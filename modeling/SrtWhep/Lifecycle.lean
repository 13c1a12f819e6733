import SrtWhep.RestartRequests

namespace SrtWhep.Lifecycle

open Library.Runs RestartRequests

/-- The supervisor with its restart channel and its end of the shutdown
channel: the value last sent, and whether the sender is gone. -/
structure System where
  restarts : RestartSystem
  shutdown : Bool
  dropped : Bool
deriving DecidableEq

inductive Input
  | shutdown
  | drop
  | effect (o : Effect)
  | wake (w : Wake)

inductive Entry
  | woke (w : Wake)
  | called (call : Call)
deriving DecidableEq, Repr

namespace System

def start : System := ⟨.start, false, false⟩

def phase (s : System) : Phase := s.restarts.supervisor.phase

/-- What the shutdown channel lets the supervisor see: `borrow` reads the last
value, and `wait_for` returns once it is true or the sender is gone. -/
def shows (s : System) : Wake → Bool
  | .checked shutdown => shutdown == s.shutdown
  | .shutdownSeen => s.shutdown || s.dropped
  | _ => true

def next (s : System) : Input → Option (System × List Entry)
  | .shutdown => if s.dropped then none else some ({ s with shutdown := true }, [])
  | .drop => some ({ s with dropped := true }, [])
  | .effect o => some ({ s with restarts := (s.restarts.effect o).1 }, [])
  | .wake w =>
    if s.shows w then do
      let (supervisor, calls) ← s.restarts.supervisor.step w
      let (requests, _) ← RestartSystem.receive s.restarts.requests w
      some ({ s with restarts := ⟨supervisor, requests⟩ }, .woke w :: calls.map .called)
    else none

def Step (s : System) (l : Input × List Entry) (s' : System) : Prop := s.next l.1 = some (s', l.2)

end System

def log (ls : List (Input × List Entry)) : List Entry := ls.flatMap Prod.snd

@[simp] def call : Entry → Option Call
  | .called call => some call
  | .woke _ => none

def calls (t : List Entry) : List Call := t.filterMap call

/-- What the supervisor must have met to make a call. -/
def cause : Call → Wake → Bool
  | .init, .received found => !found
  | .run, .initialized ok => ok
  | .endRun, .shutdownSeen => true
  | .quit, .restartRequested => true
  | .cleanUp, .initialized ok => !ok
  | .cleanUp, .ran _ => true
  | .cleanUp, .joined _ => true
  | .reset, .cleanedUp _ => true
  | _, _ => false

def bodies : List (List Call) :=
  [[.init], [.init, .run], [.init, .run, .endRun], [.init, .run, .quit]]

/-- The calls of one whole cycle. -/
def forms : List (List Call) := bodies.map (· ++ [.cleanUp, .reset])

/-- After the call that opens a cycle, each comes right after its cause. -/
def Caused (t : List Entry) : Entry → Prop
  | .called c => t ≠ [] → ∃ u w, t = u ++ [.woke w] ∧ cause c w
  | .woke _ => True

/-- One cycle of the log, complete or still going on: it opens with `init`, and
its calls follow one of the forms, each with its cause. -/
structure Cycle (t : List Entry) : Prop where
  opens : ∃ u, t = .called .init :: u
  follows : ∃ form ∈ forms, calls t <+: form
  caused : Throughout Caused t

def Complete (t : List Entry) : Prop := calls t ∈ forms

inductive Reached : Phase → List Call → Prop
  | initializing : Reached .initializing [.init]
  | selecting : Reached .selecting [.init, .run]
  | ending : Reached .ending [.init, .run, .endRun]
  | quitting : Reached .quitting [.init, .run, .quit]
  | ended : Reached (.joining .shuttingDown) [.init, .run, .endRun]
  | quitted : Reached (.joining .restart) [.init, .run, .quit]
  | cleaning {body} (outcome) : body ∈ bodies → Reached (.cleaning outcome) (body ++ [.cleanUp])
  | resetting {body} (outcome) : body ∈ bodies →
      Reached (.resetting outcome) (body ++ [.cleanUp, .reset])
  | finished {phase form} : phase ∈ [.backingOff, .top, .draining, .stopped] → form ∈ forms →
      Reached phase form

/-- A log cut into cycles: only the last of them may still be going on, and
none once the supervisor has stopped. -/
def InCycles (t : List Entry) (phase : Phase) : Prop :=
  ∃ (pre : List Entry) (cycles : List (List Entry)), t = pre ++ cycles.flatten ∧
    calls pre = [] ∧ (∀ c ∈ cycles, Cycle c) ∧ (∀ c ∈ cycles.dropLast, Complete c) ∧
    (phase = .stopped → ∀ c ∈ cycles, Complete c)

inductive Progress (t : List Entry) (phase : Phase) : Prop
  | waiting : calls t = [] → phase ∈ [.top, .draining, .stopped] → Progress t phase
  | cycling {pre cur} {done : List (List Entry)} : t = pre ++ done.flatten ++ cur → calls pre = [] →
      (∀ c ∈ done, Cycle c ∧ Complete c) → Cycle cur → Reached phase (calls cur) →
      Progress t phase

section Steps

variable {s s' : Supervisor} {w : Wake} {cs body form : List Call}

theorem step_cause (h : s.step w = some (s', cs)) :
    cs = [] ∨ ∃ c, cs = [c] ∧ cause c w := by
  unfold Supervisor.step at h
  split at h <;> cases h <;> simp [cause]

/-- Only a drain that has found the channel empty starts a new cycle. -/
theorem step_init (h : s.step w = some (s', [.init])) :
    s.phase = .draining ∧ s'.phase = .initializing := by
  unfold Supervisor.step at h
  split at h <;> cases h
  exact ⟨‹_›, rfl⟩

theorem step_draining (h : s.step w = some (s', cs)) (hp : s'.phase = .draining) :
    w = .checked false ∨ s.phase = .draining := by
  unfold Supervisor.step at h
  split at h <;> cases h <;> try cases hp
  case h_2 => exact .inl rfl
  case h_3 hs => exact .inr hs
  case h_14 outcome ok hs =>
    obtain he | he := s.settle_phase outcome <;> cases he.symm.trans hp

theorem Reached.step (hr : Reached s.phase form) (h : s.step w = some (s', cs))
    (hi : cs ≠ [.init]) : Reached s'.phase (form ++ cs) := by
  obtain ⟨phase, failures⟩ := s
  have hlift : ∀ {p}, p ∈ [Phase.backingOff, .top, .draining, .stopped] → form ∈ forms →
      Reached p (form ++ []) := fun hp hf => by simpa using Reached.finished hp hf
  cases hr with
  | initializing =>
    cases w with
    | initialized ok =>
      cases ok with
      | true =>
        cases h
        exact .selecting
      | false =>
        cases h
        exact .cleaning _ (by decide)
    | _ => cases h
  | selecting =>
    cases w with
    | ran ok =>
      cases h
      exact .cleaning _ (by decide)
    | shutdownSeen =>
      cases h
      exact .ending
    | restartRequested =>
      cases h
      exact .quitting
    | _ => cases h
  | ending =>
    cases w with
    | asked =>
      cases h
      exact .ended
    | _ => cases h
  | quitting =>
    cases w with
    | asked =>
      cases h
      exact .quitted
    | _ => cases h
  | ended =>
    cases w with
    | joined ok =>
      cases h
      exact .cleaning _ (by decide)
    | _ => cases h
  | quitted =>
    cases w with
    | joined ok =>
      cases h
      exact .cleaning _ (by decide)
    | _ => cases h
  | cleaning outcome hb =>
    cases w with
    | cleanedUp ok =>
      cases h
      simpa using Reached.resetting outcome hb
    | _ => cases h
  | resetting outcome hb =>
    cases w with
    | answered ok =>
      cases h
      have hs := Supervisor.settle_phase ⟨.resetting outcome, failures⟩ outcome
      exact hlift (by obtain he | he := hs <;> simp [he]) (List.mem_map_of_mem hb)
    | _ => cases h
  | finished hp hf =>
    simp only [List.mem_cons, List.not_mem_nil, or_false] at hp
    obtain rfl | rfl | rfl | rfl := hp
    · cases w <;> cases h <;> exact hlift (by simp) hf
    · cases w with
      | checked shutdown => cases shutdown <;> cases h <;> exact hlift (by simp) hf
      | _ => cases h
    · cases w with
      | received found =>
        cases found with
        | true =>
          cases h
          exact hlift (by simp) hf
        | false =>
          cases h
          exact absurd rfl hi
      | _ => cases h
    · cases w <;> cases h

theorem Reached.follows {phase : Phase} (h : Reached phase form) :
    ∃ f ∈ forms, form <+: f := by
  cases h with
  | initializing => exact ⟨[.init, .cleanUp, .reset], by decide, by decide⟩
  | selecting => exact ⟨[.init, .run, .cleanUp, .reset], by decide, by decide⟩
  | ending | ended => exact ⟨[.init, .run, .endRun, .cleanUp, .reset], by decide, by decide⟩
  | quitting | quitted => exact ⟨[.init, .run, .quit, .cleanUp, .reset], by decide, by decide⟩
  | cleaning _ hb => exact ⟨_, List.mem_map_of_mem hb, [.reset], by simp⟩
  | resetting _ hb => exact ⟨_, List.mem_map_of_mem hb, List.prefix_rfl⟩
  | finished _ hf => exact ⟨_, hf, List.prefix_rfl⟩

theorem Reached.complete {phase : Phase} (h : Reached phase form)
    (hp : phase ∈ [.draining, .stopped]) : form ∈ forms := by
  cases h with
  | finished _ hf => exact hf
  | _ => simp at hp

end Steps

section Logs

variable {t u : List Entry} {w : Wake} {cs : List Call}

@[simp] theorem calls_nil : calls [] = [] := rfl

@[simp] theorem calls_append : calls (t ++ u) = calls t ++ calls u := List.filterMap_append

@[simp] theorem calls_woke : calls (.woke w :: t) = calls t := rfl

@[simp] theorem log_snoc (ls : List (Input × List Entry)) (l : Input × List Entry) :
    log (ls ++ [l]) = log ls ++ l.2 := by
  simp [log]

@[simp] theorem log_cons (l : Input × List Entry) (ls : List (Input × List Entry)) :
    log (l :: ls) = l.2 ++ log ls := rfl

@[simp] theorem calls_called (cs : List Call) : calls (cs.map .called) = cs := by
  induction cs with
  | nil => rfl
  | cons c cs ih => exact congrArg (c :: ·) ih

theorem cycle_init : Cycle [.called .init] where
  opens := ⟨[], rfl⟩
  follows := Reached.follows .initializing
  caused := throughout_snoc.mpr ⟨throughout_nil, fun h => absurd rfl h⟩

theorem Cycle.step (h : Cycle t) (hc : cs = [] ∨ ∃ c, cs = [c] ∧ cause c w)
    (hf : ∃ form ∈ forms, calls t ++ cs <+: form) : Cycle (t ++ .woke w :: cs.map .called) := by
  obtain ⟨u, hu⟩ := h.opens
  have hw : Throughout Caused (t ++ [.woke w]) := throughout_snoc.mpr ⟨h.caused, trivial⟩
  refine ⟨⟨u ++ .woke w :: cs.map .called, by simp [hu]⟩, by simpa using hf, ?_⟩
  obtain rfl | ⟨c, rfl, hcw⟩ := hc
  · exact hw
  · rw [List.append_cons]
    exact throughout_snoc.mpr ⟨hw, fun _ => ⟨_, w, rfl, hcw⟩⟩

theorem Cycle.idle (h : Cycle t) (w : Wake) : Cycle (t ++ [.woke w]) :=
  h.step (.inl rfl) (by simpa using h.follows)

theorem Progress.init {s s' : Supervisor} (h : Progress t s.phase)
    (hs : s.step w = some (s', [.init])) : Progress (t ++ [.woke w, .called .init]) s'.phase := by
  obtain ⟨hp, hp'⟩ := step_init hs
  rw [hp] at h
  rw [hp']
  cases h with
  | waiting hc _ =>
    exact @Progress.cycling _ _ (t ++ [.woke w]) _ [] (by simp) (by simp [hc]) (by simp)
      cycle_init .initializing
  | @cycling pre cur done ht hpre hd hcur hr =>
    refine @Progress.cycling _ _ pre _ (done ++ [cur ++ [.woke w]]) (by simp [ht]) hpre ?_
      cycle_init .initializing
    intro c hc
    obtain hc | hc := List.mem_append.mp hc
    · exact hd c hc
    · have hcomp := hr.complete (by simp)
      rw [List.mem_singleton.mp hc]
      exact ⟨hcur.idle w, by simpa [Complete] using hcomp⟩

/-- Before the first cycle the supervisor only checks, drains or stops. -/
theorem step_waiting {s s' : Supervisor} (hs : s.step w = some (s', cs))
    (hp : s.phase ∈ [.top, .draining, .stopped]) (hi : cs ≠ [.init]) :
    cs = [] ∧ s'.phase ∈ [.top, .draining, .stopped] := by
  obtain ⟨phase, failures⟩ := s
  simp only [List.mem_cons, List.not_mem_nil, or_false] at hp
  obtain rfl | rfl | rfl := hp
  · cases w with
    | checked shutdown => cases shutdown <;> cases hs <;> simp
    | _ => cases hs
  · cases w with
    | received found =>
      cases found with
      | true =>
        cases hs
        simp
      | false =>
        cases hs
        exact absurd rfl hi
    | _ => cases hs
  · cases w <;> cases hs

theorem Progress.step {s s' : Supervisor} (h : Progress t s.phase)
    (hs : s.step w = some (s', cs)) : Progress (t ++ .woke w :: cs.map .called) s'.phase := by
  by_cases hi : cs = [.init]
  · subst hi
    exact h.init hs
  cases h with
  | waiting hc hp =>
    obtain ⟨rfl, hp'⟩ := step_waiting hs hp hi
    exact .waiting (by simp [hc]) hp'
  | cycling ht hpre hd hcur hr =>
    have hr' := hr.step hs hi
    have hcur' := hcur.step (step_cause hs) hr'.follows
    exact .cycling (by rw [ht, List.append_assoc]) hpre hd hcur' (by simpa using hr')

theorem Progress.inCycles {phase : Phase} (h : Progress t phase) : InCycles t phase := by
  cases h with
  | waiting hc _ => exact ⟨t, [], by simp, hc, by simp, by simp, by simp⟩
  | @cycling pre cur done ht hpre hd hcur hr =>
    have hall : ∀ {P : List Entry → Prop}, (∀ c ∈ done, P c) → P cur →
        ∀ c ∈ done ++ [cur], P c := by
      intro P hdone hlast c hc
      obtain hc | hc := List.mem_append.mp hc
      · exact hdone c hc
      · rwa [List.mem_singleton.mp hc]
    refine ⟨pre, done ++ [cur], by simp [ht], hpre, hall (fun c hc => (hd c hc).1) hcur, ?_, ?_⟩
    · rw [List.dropLast_concat]
      exact fun c hc => (hd c hc).2
    · rintro rfl
      exact hall (fun c hc => (hd c hc).2) (hr.complete (by simp))

theorem count_flatten {cycles : List (List Entry)} (h : ∀ c ∈ cycles, Complete c) {k : Call}
    (hk : ∀ form ∈ forms, form.count k = 1) : (calls cycles.flatten).count k = cycles.length := by
  induction cycles with
  | nil => rfl
  | cons c cycles ih =>
    have hc : (calls c).count k = 1 := hk _ (h c (by simp))
    rw [List.flatten_cons, calls_append, List.count_append, hc,
      ih fun c' hc' => h c' (by simp [hc']), List.length_cons, Nat.add_comm]

theorem InCycles.paired (h : InCycles t .stopped) :
    (calls t).count .init = (calls t).count .cleanUp ∧
      (calls t).count .init = (calls t).count .reset := by
  obtain ⟨pre, cycles, rfl, hpre, -, -, hc⟩ := h
  have hcomp := hc rfl
  simp only [calls_append, hpre, List.nil_append]
  rw [count_flatten hcomp (by decide), count_flatten hcomp (by decide),
    count_flatten hcomp (by decide)]
  exact ⟨rfl, rfl⟩

end Logs

section Systems

variable {s s' : System} {i : Input} {t : List Entry} {ls : List (Input × List Entry)}

theorem step_cases (h : s.Step (i, t) s') :
    t = [] ∧ s'.restarts.supervisor = s.restarts.supervisor ∧
        (s.shutdown = true → s'.shutdown = true) ∨
      ∃ w cs, i = .wake w ∧ s.shows w = true ∧
        s.restarts.supervisor.step w = some (s'.restarts.supervisor, cs) ∧
        t = .woke w :: cs.map .called ∧ s'.shutdown = s.shutdown := by
  cases i with
  | shutdown =>
    simp only [System.Step, System.next] at h
    split at h
    · cases h
    · cases h
      exact .inl ⟨rfl, rfl, fun _ => rfl⟩
  | drop =>
    cases h
    exact .inl ⟨rfl, rfl, id⟩
  | effect o =>
    cases h
    exact .inl ⟨rfl, RestartSystem.feed_supervisor s.restarts [o], id⟩
  | wake w =>
    simp only [System.Step, System.next] at h
    split at h
    next hw =>
      simp only [Option.bind_eq_bind, Option.bind_eq_some_iff, Option.some.injEq,
        Prod.mk.injEq] at h
      obtain ⟨⟨v, cs⟩, hv, r, -, rfl, rfl⟩ := h
      exact .inr ⟨w, cs, rfl, hw, hv, rfl, rfl⟩
    · cases h

theorem run_progress (h : Run System.Step .start ls s) : Progress (log ls) s.phase := by
  refine h.history (P := fun ls s => Progress (log ls) s.phase)
    (.waiting rfl (by decide)) ?_
  rintro ls s s' ⟨i, t⟩ hp hs
  rw [log_snoc]
  obtain ⟨rfl, he, -⟩ | ⟨w, cs, -, -, hv, rfl, -⟩ := step_cases hs
  · simpa [System.phase, he] using hp
  · exact hp.step hv

def pending (phase : Phase) : Nat := if phase = .draining then 1 else 0

theorem step_pending {v v' : Supervisor} {w : Wake} {cs : List Call}
    (h : v.step w = some (v', cs)) (hw : w ≠ .checked false) :
    cs.count .init + pending v'.phase ≤ pending v.phase := by
  by_cases hi : cs = [.init]
  · subst hi
    obtain ⟨hp, hp'⟩ := step_init h
    simp [pending, hp, hp']
  · have hc : cs.count .init = 0 := by
      obtain rfl | ⟨c, rfl, -⟩ := step_cause h
      · rfl
      · simpa [List.count_singleton] using hi
    have hd := step_draining h
    simp only [hw, false_or] at hd
    by_cases hp : v'.phase = .draining
    · simp [pending, hc, hp, hd hp]
    · simp [pending, hc, hp]

/-- Once shutdown reads true a cycle starts only behind a check passed before. -/
theorem step_shutdown (h : s.Step (i, t) s') (hs : s.shutdown = true) :
    s'.shutdown = true ∧ (calls t).count .init + pending s'.phase ≤ pending s.phase := by
  obtain ⟨rfl, he, hk⟩ | ⟨w, cs, -, hw, hv, rfl, hk⟩ := step_cases h
  · exact ⟨hk hs, by simp [System.phase, he]⟩
  · have hne : w ≠ .checked false := by
      rintro rfl
      simp [System.shows, hs] at hw
    exact ⟨hk.trans hs, by simpa [System.phase] using step_pending hv hne⟩

theorem run_shutdown (h : Run System.Step s ls s') (hs : s.shutdown = true) :
    (calls (log ls)).count .init + pending s'.phase ≤ pending s.phase := by
  induction h with
  | nil s => simp [log]
  | @cons s u s' l ls hst _ ih =>
    obtain ⟨hu, hle⟩ := step_shutdown hst hs
    have hrest := ih hu
    rw [log_cons, calls_append, List.count_append]
    omega

end Systems

theorem step_deterministic (s : System) (l : Input × List Entry) (u v : System)
    (h : s.Step l u) (g : s.Step l v) : u = v :=
  (Prod.mk.inj (Option.some.inj (h.symm.trans g))).1

/-- In every run the supervisor's calls come in cycles, shutdown starts no new
one, and on exit every `init` has its `clean_up` and its reset. -/
theorem supervisor_lifecycle {ls : List (Input × List Entry)} {s : System}
    (h : Run System.Step .start ls s) :
    InCycles (log ls) s.phase ∧
      (∀ ls₁ ls₂ u, ls = ls₁ ++ ls₂ → Run System.Step .start ls₁ u → u.shutdown = true →
        (calls (log ls₂)).count .init ≤ pending u.phase) ∧
      (s.phase = .stopped →
        (calls (log ls)).count .init = (calls (log ls)).count .cleanUp ∧
          (calls (log ls)).count .init = (calls (log ls)).count .reset) := by
  have hc := (run_progress h).inCycles
  refine ⟨hc, ?_, fun hp => (hp ▸ hc : InCycles (log ls) .stopped).paired⟩
  rintro ls₁ ls₂ u rfl hu hs
  obtain ⟨v, hv, hr⟩ := run_append.mp h
  obtain rfl := hv.unique step_deterministic hu
  exact Nat.le_of_add_right_le (run_shutdown hr hs)

/-- Shutdown arrives during a run whose join times out. -/
theorem supervisor_lifecycle_shutdown : ∃ ls s, Run System.Step .start ls s ∧
    calls (log ls) = [.init, .run, .endRun, .cleanUp, .reset] ∧ s.phase = .stopped ∧
    InCycles (log ls) s.phase ∧
      (∀ ls₁ ls₂ u, ls = ls₁ ++ ls₂ → Run System.Step .start ls₁ u → u.shutdown = true →
        (calls (log ls₂)).count .init ≤ pending u.phase) ∧
      (s.phase = .stopped →
        (calls (log ls)).count .init = (calls (log ls)).count .cleanUp ∧
          (calls (log ls)).count .init = (calls (log ls)).count .reset) := by
  obtain ⟨ls, s, h, -, hv⟩ := replayed System.next System.Step (fun _ _ _ _ h => h) .start
    [.wake (.checked false), .wake (.received false), .wake (.initialized true), .shutdown,
      .wake .shutdownSeen, .wake .asked, .wake (.joined none), .wake (.cleanedUp false),
      .wake (.answered none)]
    ([.init, .run, .endRun, .cleanUp, .reset], .stopped)
    (fun r => (calls (log r.2), r.1.phase)) (by decide)
  obtain ⟨hl, hp⟩ := Prod.mk.inj hv
  exact ⟨ls, s, h, hl, hp, supervisor_lifecycle h⟩

end SrtWhep.Lifecycle
