import SrtWhep.Library.Runs

namespace SrtWhep.MainLoop

open Library.Runs

/-- How far the task of `run` has come: it waits for the state lock, has put
the handle of its main loop into the shared state, or waits for the thread. -/
inductive Task
  | locking
  | stored
  | awaiting
  | returned
deriving DecidableEq, Repr

/-- The `gst-main-loop` thread: the bus watch is added before the loop is
entered, and a loop told to quit while it runs is leaving. -/
inductive Thread
  | unborn
  | spawned
  | watching
  | running
  | leaving
  | ended
deriving DecidableEq, Repr

/-- The main loop handle in the shared state: none, that of an earlier run
whose `clean_up` did not get the lock, or this run's. -/
inductive Handle
  | empty
  | stale
  | own
deriving DecidableEq, Repr

inductive Arm
  | selecting
  | quitting
  | joining
  | left
deriving DecidableEq, Repr

structure State where
  arm : Arm
  task : Task
  aborted : Bool
  handle : Handle
  thread : Thread
deriving DecidableEq, Repr

/-- What happens next: a step of the task, of the thread or of the supervisor.
A flag tells whether a lock was got or a call succeeded, and for `join`
whether the task was done within the bound. -/
inductive Input
  | lock (ok : Bool)
  | spawn (ok : Bool)
  | addWatch (ok : Bool)
  | enter
  | busQuit
  | leave
  | resolve
  | completed
  | restart
  | quit (ok : Bool)
  | join (ok : Bool)
deriving DecidableEq, Repr

namespace State

def start (stale : Bool) : State :=
  ⟨.selecting, .locking, false, if stale then .stale else .empty, .unborn⟩

/-- `main_loop.quit()`: it has an effect on a running loop only. -/
def quitLoop (s : State) : State :=
  if s.thread = .running then { s with thread := .leaving } else s

/-- One step; `none` where it is not the turn of this. An aborted task is
dropped where it waits, but goes on from the lock to the thread it spawns. -/
def next (s : State) : Input → Option State
  | .lock ok =>
    if s.task = .locking ∧ s.aborted = false then
      some (if ok then { s with task := .stored, handle := .own } else { s with task := .returned })
    else none
  | .spawn ok =>
    if s.task = .stored then
      some (if ok then { s with task := .awaiting, thread := .spawned }
        else { s with task := .returned })
    else none
  | .addWatch ok =>
    if s.thread = .spawned then some { s with thread := if ok then .watching else .ended }
    else none
  | .enter => if s.thread = .watching then some { s with thread := .running } else none
  | .busQuit => if s.thread = .running then some s.quitLoop else none
  | .leave => if s.thread = .leaving then some { s with thread := .ended } else none
  | .resolve =>
    if s.task = .awaiting ∧ s.thread = .ended ∧ s.aborted = false then
      some { s with task := .returned }
    else none
  | .completed =>
    if s.arm = .selecting ∧ s.task = .returned then some { s with arm := .left } else none
  | .restart => if s.arm = .selecting then some { s with arm := .quitting } else none
  | .quit ok =>
    if s.arm = .quitting then
      let s := { s with arm := .joining }
      some (if ok ∧ s.handle = .own then s.quitLoop else s)
    else none
  | .join ok =>
    if s.arm = .joining ∧ (ok → s.task = .returned) then
      some { s with arm := .left, aborted := !ok }
    else none

def Step (s : State) (i : Input) (t : State) : Prop := s.next i = some t

/-- The loop runs, or will come to run. -/
def Alive (s : State) : Prop :=
  s.task = .stored ∨ s.thread = .spawned ∨ s.thread = .watching ∨ s.thread = .running

/-- What the restart arm is for: the supervisor goes on without a live loop. -/
def Safe (s : State) : Prop := s.arm = .left → ¬ s.Alive

def Ended (s : State) : Prop := s.task = .returned ∨ s.thread = .leaving ∨ s.thread = .ended

/-- A quit ends the run it is aimed at: it gets the lock while the loop runs,
or it finds the run ended already. -/
def Effective (s : State) (locked : Bool) : Prop :=
  locked = true ∧ s.thread = .running ∨ s.Ended

def Meets (s : State) : Input → Prop
  | .quit locked => s.Effective locked
  | _ => True

inductive Stage : Task → Thread → Handle → Prop
  | locking (handle) : Stage .locking .unborn handle
  | stored : Stage .stored .unborn .own
  | awaiting {thread} : thread ≠ .unborn → Stage .awaiting thread .own
  | failed (handle) : Stage .returned .unborn handle
  | returned : Stage .returned .ended .own

def Staged (s : State) : Prop := Stage s.task s.thread s.handle

section Steps

variable {s t : State} {i : Input}

theorem quitLoop_staged (h : s.Staged) : s.quitLoop.Staged := by
  unfold quitLoop
  split
  next hr =>
    obtain ⟨arm, task, aborted, handle, thread⟩ := s
    obtain rfl : thread = .running := hr
    cases h with
    | awaiting => exact .awaiting (by simp)
  next => exact h

theorem quitLoop_arm (s : State) : s.quitLoop.arm = s.arm := by
  unfold quitLoop
  split <;> rfl

theorem quitLoop_ended (h : s.thread = .running ∨ s.Ended) : s.quitLoop.Ended := by
  unfold quitLoop
  split
  next => exact .inr (.inl rfl)
  next hr => exact h.resolve_left hr

theorem step_staged (hs : s.Staged) (h : s.Step i t) : t.Staged := by
  obtain ⟨arm, task, aborted, handle, thread⟩ := s
  cases i <;> simp only [Step, next, Option.ite_none_right_eq_some, Option.some.injEq] at h <;>
    obtain ⟨hg, rfl⟩ := h
  case lock ok =>
    obtain ⟨rfl, -⟩ := hg
    cases hs
    cases ok with
    | true => exact .stored
    | false => exact .failed _
  case spawn ok =>
    obtain rfl := hg
    cases hs
    cases ok with
    | true => exact .awaiting (by simp)
    | false => exact .failed _
  case addWatch ok =>
    obtain rfl := hg
    cases hs
    exact .awaiting (by split <;> simp)
  case enter =>
    obtain rfl := hg
    cases hs
    exact .awaiting (by simp)
  case busQuit => exact quitLoop_staged hs
  case leave =>
    obtain rfl := hg
    cases hs
    exact .awaiting (by simp)
  case resolve =>
    obtain ⟨rfl, rfl, -⟩ := hg
    cases hs
    exact .returned
  case completed => exact hs
  case restart => exact hs
  case quit ok =>
    split
    · exact quitLoop_staged hs
    · exact hs
  case join ok => exact hs

theorem step_ended (hs : s.Staged) (he : s.Ended) (h : s.Step i t) : t.Ended := by
  obtain ⟨arm, task, aborted, handle, thread⟩ := s
  cases i <;> simp only [Step, next, Option.ite_none_right_eq_some, Option.some.injEq] at h <;>
    obtain ⟨hg, rfl⟩ := h
  case lock ok =>
    obtain ⟨rfl, -⟩ := hg
    cases hs
    simp [Ended] at he
  case spawn ok =>
    obtain rfl := hg
    cases hs
    simp [Ended] at he
  case addWatch ok =>
    obtain rfl := hg
    cases hs
    simp [Ended] at he
  case enter =>
    obtain rfl := hg
    cases hs
    simp [Ended] at he
  case busQuit => exact quitLoop_ended (.inr he)
  case leave => exact .inr (.inr rfl)
  case resolve => exact .inl rfl
  case completed => exact he
  case restart => exact he
  case quit ok =>
    split
    · exact quitLoop_ended (.inr he)
    · exact he
  case join ok => exact he

theorem Ended.not_alive (h : s.Ended) (hs : s.Staged) : ¬ s.Alive := by
  obtain ⟨arm, task, aborted, handle, thread⟩ := s
  cases hs with
  | awaiting hu =>
    obtain he | rfl | rfl := h
    · cases he
    · simp [Alive]
    · simp [Alive]
  | _ => simp_all [Ended, Alive]

def Settled (s : State) : Prop := s.Staged ∧ (s.arm = .joining ∨ s.arm = .left → s.Ended)

theorem start_settled (stale : Bool) : (start stale).Settled :=
  ⟨.locking _, fun h => by simp [start] at h⟩

theorem Settled.safe (h : s.Settled) : s.Safe := fun ha => (h.2 (.inr ha)).not_alive h.1

theorem step_settled (hs : s.Settled) (hq : s.Meets i) (h : s.Step i t) : t.Settled := by
  refine ⟨step_staged hs.1 h, fun ha => ?_⟩
  by_cases he : s.Ended
  · exact step_ended hs.1 he h
  have hn : ¬ (s.arm = .joining ∨ s.arm = .left) := fun harm => he (hs.2 harm)
  cases i <;> simp only [Step, next, Option.ite_none_right_eq_some, Option.some.injEq] at h <;>
    obtain ⟨hg, rfl⟩ := h
  case completed => exact .inl hg.2
  case quit ok =>
    obtain ⟨hl, hr⟩ := hq.resolve_right he
    have hown : s.handle = .own := by
      obtain ⟨arm, task, aborted, handle, thread⟩ := s
      obtain rfl : thread = .running := hr
      cases hs.1
      rfl
    rw [if_pos ⟨hl, hown⟩]
    exact quitLoop_ended (.inl hr)
  case join ok => exact absurd (.inl hg.1) hn
  case restart => simp at ha
  case lock ok => exact absurd (by cases ok <;> exact ha) hn
  case spawn ok => exact absurd (by cases ok <;> exact ha) hn
  case busQuit => exact absurd (s.quitLoop_arm ▸ ha) hn
  all_goals exact absurd ha hn

end Steps

section Runs

variable {stale : Bool} {ls : List Input} {s t : State}

theorem run_staged (h : Run Step (start stale) ls s) : s.Staged :=
  h.invariant (start_settled stale).1 fun hs hl => step_staged hs hl

theorem run_aborted (h : Run Step (start stale) ls s) : s.aborted = true → s.arm = .left := by
  refine h.invariant (P := fun s => s.aborted = true → s.arm = .left) (by simp [start]) ?_
  intro u v i hu hv ha
  cases i <;> simp only [Step, next, Option.ite_none_right_eq_some, Option.some.injEq] at hv <;>
    obtain ⟨hg, rfl⟩ := hv
  case lock ok =>
    have hf : u.aborted = true := by cases ok <;> exact ha
    rw [hg.2] at hf
    cases hf
  case spawn ok =>
    have harm := hu (by cases ok <;> exact ha)
    cases ok <;> exact harm
  case addWatch ok => exact hu ha
  case enter => exact hu ha
  case busQuit =>
    have hf : u.aborted = true := by
      unfold quitLoop at ha
      split at ha <;> exact ha
    rw [quitLoop_arm]
    exact hu hf
  case leave => exact hu ha
  case resolve => exact hu ha
  case completed => rfl
  case restart => rw [hu ha] at hg; cases hg
  case quit ok =>
    have hf : u.aborted = true := by
      simp only [quitLoop] at ha
      split at ha
      · split at ha <;> exact ha
      · exact ha
    rw [hu hf] at hg
    cases hg
  case join ok => rfl

theorem starts_up (hs : s.Staged) (he : ¬ s.Ended) (ha : s.aborted = false) :
    ∃ ms u, Run Step s ms u ∧ u.thread = .running ∧ u.arm = s.arm := by
  obtain ⟨arm, task, aborted, handle, thread⟩ := s
  obtain rfl : aborted = false := ha
  have hwatch : ∀ handle, Run Step ⟨arm, .awaiting, false, handle, .spawned⟩
      [.addWatch true, .enter] ⟨arm, .awaiting, false, handle, .running⟩ :=
    fun handle => .cons rfl (.cons rfl (.nil _))
  cases hs with
  | locking =>
    exact ⟨[.lock true, .spawn true, .addWatch true, .enter], _,
      .cons rfl (.cons rfl (hwatch .own)), rfl, rfl⟩
  | stored => exact ⟨[.spawn true, .addWatch true, .enter], _, .cons rfl (hwatch .own), rfl, rfl⟩
  | failed => simp [Ended] at he
  | returned => simp [Ended] at he
  | awaiting hu =>
    cases thread with
    | unborn => exact absurd rfl hu
    | spawned => exact ⟨_, _, hwatch .own, rfl, rfl⟩
    | watching => exact ⟨[.enter], _, .single rfl, rfl, rfl⟩
    | running => exact ⟨[], _, .nil _, rfl, rfl⟩
    | leaving => simp [Ended] at he
    | ended => simp [Ended] at he

/-- A quit without effect is all the arm does: the join times out, and the
supervisor goes on beside a running loop. -/
theorem lost_quit {locked : Bool} (h : Run Step (start stale) ls s)
    (hq : s.Step (.quit locked) t) (hn : ¬ s.Effective locked) :
    ∃ ms u, Run Step t ms u ∧ u.arm = .left ∧ u.thread = .running := by
  have hst := run_staged h
  have he : ¬ s.Ended := fun he => hn (.inr he)
  have hr : ¬ (locked = true ∧ s.thread = .running) := fun hr => hn (.inl hr)
  simp only [Step, next, Option.ite_none_right_eq_some, Option.some.injEq] at hq
  obtain ⟨harm, rfl⟩ := hq
  have ha : s.aborted = false := by
    by_contra hab
    rw [run_aborted h (by simpa using hab)] at harm
    cases harm
  have hsame : (if locked = true ∧ s.handle = .own then
      ({ s with arm := .joining } : State).quitLoop else { s with arm := .joining }) =
        { s with arm := .joining } := by
    split
    next hl => exact if_neg fun hrun => hr ⟨hl.1, hrun⟩
    next => rfl
  rw [hsame]
  obtain ⟨ms, u, hu, hrun, harm'⟩ := @starts_up { s with arm := .joining } hst he ha
  refine ⟨ms ++ [.join false], { u with arm := .left, aborted := true }, hu.snoc ?_, rfl, hrun⟩
  simp [Step, next, harm']

end Runs

/-- A run whose quits are all effective never leaves its loop behind, and a
quit keeps it from being left behind exactly when it is effective: when it gets
the lock while the loop runs, or finds the run ended already. -/
theorem forced_quit_ends_run {stale : Bool} {ls : List Input} {s : State}
    (h : Run Step (start stale) ls s) :
    (Each Step Meets (start stale) ls → Always Step Safe (start stale) ls) ∧
      ∀ locked t, s.Step (.quit locked) t →
        ((∀ ms u, Run Step t ms u → u.Safe) ↔ s.Effective locked) := by
  refine ⟨fun he => ?_, fun locked t hq => ⟨fun hsafe => ?_, fun heff ms u hu => ?_⟩⟩
  · have hall : Always Step Settled (start stale) ls :=
      he.always (start_settled stale) fun hs hm hst => step_settled hs hm hst
    exact fun ls₁ ls₂ t hl hr => (hall ls₁ ls₂ t hl hr).safe
  · by_contra hn
    obtain ⟨ms, u, hu, harm, hrun⟩ := lost_quit h hq hn
    exact hsafe ms u hu harm (.inr (.inr (.inr hrun)))
  · have hst := run_staged h
    have harm : s.arm = .quitting := (Option.ite_none_right_eq_some.mp hq).1
    have hm : s.Meets (.quit locked) := heff
    have ht := step_settled ⟨hst, by simp [harm]⟩ hm hq
    have hjoin : t.arm = .joining := by
      obtain ⟨-, ht⟩ := Option.ite_none_right_eq_some.mp hq
      obtain rfl := Option.some.inj ht
      split
      · exact quitLoop_arm _
      · rfl
    have hend : u.Staged ∧ u.Ended :=
      hu.invariant (P := fun u => u.Staged ∧ u.Ended) ⟨ht.1, ht.2 (.inl hjoin)⟩
        fun hp hst => ⟨step_staged hp.1 hst, step_ended hp.1 hp.2 hst⟩
    exact fun _ => hend.2.not_alive hend.1

theorem forced_quit_ends_run_running : ∃ ls s, Run Step (start false) ls s ∧
    s.arm = .quitting ∧ s.thread = .running ∧
    (Each Step Meets (start false) ls → Always Step Safe (start false) ls) ∧
      ∀ locked t, s.Step (.quit locked) t →
        ((∀ ms u, Run Step t ms u → u.Safe) ↔ s.Effective locked) := by
  have h : Run Step (start false) [.lock true, .spawn true, .addWatch true, .enter, .restart]
      ⟨.quitting, .awaiting, false, .own, .running⟩ :=
    .cons rfl (.cons rfl (.cons rfl (.cons rfl (.single rfl))))
  exact ⟨_, _, h, rfl, rfl, forced_quit_ends_run h⟩

/-- Told to quit before it is entered, the loop runs on beside the next run. -/
theorem forced_quit_lost : ¬ ∀ ls s, Run Step (start false) ls s → s.Safe := by
  intro h
  have hr : Run Step (start false)
      [.lock true, .restart, .quit true, .spawn true, .addWatch true, .enter, .join false]
      ⟨.left, .awaiting, true, .own, .running⟩ :=
    .cons rfl (.cons rfl (.cons rfl (.cons rfl (.cons rfl (.cons rfl (.single rfl))))))
  exact h _ _ hr rfl (.inr (.inr (.inr rfl)))

end State

end SrtWhep.MainLoop
