import SrtWhep.Deliveries
import SrtWhep.Library.Channels

namespace SrtWhep.Reaping

open Library.Runs Library.Tables Library.Channels Moves Deliveries

def branchFailureCapacity : Nat := 64

/-- A turn of the loop during which the bus watch may go on. A reap takes its
entry out of the map before it waits for anything, so it counts as instant. -/
inductive Turn
  | command (cmd : Command)
  | sweepTick

namespace Turn

def event (env : Env) : Turn → Event
  | command cmd => .command cmd env
  | sweepTick => .sweepTick env

def creates : Turn → Option ConnectionId
  | command (.createConnection id _) => some id
  | _ => none

def removes : Turn → Option ConnectionId
  | command (.removeConnection id _) => some id
  | _ => none

end Turn

/-- The coordinator, the reap channel and the bus watch. The coordinator is
the one before the turn under way. In `failed` are the connections whose
branch the bus watch has seen fail. -/
structure ReapSystem where
  coordinator : Coordinator
  reports : Channel BranchId branchFailureCapacity
  turn : Option Turn
  failed : List ConnectionId

inductive Input
  | busError (branch : BranchId)
  | begin (turn : Turn)
  | finish (env : Env)
  | reap (env : Env)

namespace ReapSystem

def start (config : CoordinatorConfig) : ReapSystem := ⟨.new config, .empty, none, []⟩

def entry (s : ReapSystem) (id : ConnectionId) : Option ConnectionState :=
  if s.turn.bind Turn.removes = some id then none else s.coordinator.connections.lookup id

def knows (s : ReapSystem) (id : ConnectionId) : Bool :=
  s.coordinator.containsKey id || decide (s.turn.bind Turn.creates = some id)

def busWatch (s : ReapSystem) (branch : BranchId) : ReapSystem :=
  { s with
    reports := (s.reports.trySend branch).1
    failed := if s.knows branch.intoString then branch.intoString :: s.failed else s.failed }

def resume (s : ReapSystem) (c : Coordinator) : ReapSystem :=
  { s with coordinator := c, turn := none, failed := s.failed.filter c.containsKey }

def next (s : ReapSystem) : Input → Option (ReapSystem × List Effect)
  | .busError branch => some (s.busWatch branch, [])
  | .begin turn => if s.turn.isSome then none else some ({ s with turn := some turn }, [])
  | .finish env => do
    let turn ← s.turn
    let (c, os) ← s.coordinator.next (turn.event env)
    some (s.resume c, os)
  | .reap env =>
    if s.turn.isSome then none else do
      let (branch, reports) ← s.reports.tryRecv
      let (c, os) ← s.coordinator.next (.branchFailure branch env)
      some ({ s with reports }.resume c, os)

def Step (s : ReapSystem) (l : Input × List Effect) (s' : ReapSystem) : Prop :=
  s.next l.1 = some (s', l.2)

end ReapSystem

/-- A failed branch of a connection in the map has a report queued, or the
sweep will end the connection. -/
def Kept (s : ReapSystem) : Prop :=
  ∀ id ∈ s.failed, ∀ state, s.entry id = some state →
    ⟨id⟩ ∈ s.reports.queue ∨ state.deadline.isSome = true

/-- The connection has failed and no report says so. -/
def Unreported (s : ReapSystem) (id : ConnectionId) : Prop :=
  id ∈ s.failed ∧ ⟨id⟩ ∉ s.reports.queue

/-- No step loses the last trace of a failure: an error that finds the channel
full is about a connection with a deadline or with a report queued; an answer
does not establish an unreported connection; and a failed teardown does not
put one back that was established. -/
def Heeded (s : ReapSystem) (l : Input × List Effect) : Prop :=
  match l.1, s.turn with
  | .busError branch, _ =>
    s.reports.queue.length < branchFailureCapacity ∨ branch ∈ s.reports.queue ∨
      ∀ since, s.entry branch.intoString ≠ some (.established since)
  | .finish env, some (.command (.answerReceived id _ _)) =>
    Unreported s id → ∀ whip d,
      s.coordinator.connections.lookup id = some (.awaitingAnswer whip d) →
        env.listening whip.channel = false
  | .finish env, some (.command (.removeConnection id _)) =>
    Unreported s id → ∀ since,
      s.coordinator.connections.lookup id = some (.established since) →
        (env.branch id).succeeded = true
  | _, _ => True

section Turns

variable {c c' : Coordinator} {env : Env} {id : ConnectionId} {os : List Effect}
  {state : ConnectionState}

theorem move_deadline {cmd : Command} (h : Move c ([cmd], os) c')
    (hl : c'.connections.lookup id = some state) :
    c.connections.lookup id = some state ∨ state.deadline.isSome = true ∨
      ∃ sdp reply, cmd = .answerReceived id sdp reply := by
  obtain hl | he := move_entry h hl
  · exact .inl hl
  cases he with
  | registered _ _ _ => exact .inr (.inl rfl)
  | offered _ _ => exact .inr (.inl rfl)
  | established _ _ _ => exact .inr (.inr ⟨_, _, rfl⟩)

theorem answer_establishes {sdp : SdpAnswer} {reply : UnitReply} {whip : AnswerReply} {d : Instant}
    (h : c.answerReceived id sdp reply env = some (c', os))
    (hl : c.connections.lookup id = some (.awaitingAnswer whip d))
    (hw : env.listening whip.channel = true) :
    c'.connections.lookup id = some (.established env.now) := by
  simp only [Coordinator.answerReceived, hl, ConnectionState.deliverAnswer, hw, if_true,
    Coordinator.insert, Option.some.injEq, Prod.mk.injEq] at h
  obtain ⟨rfl, -⟩ := h
  exact Finmap.lookup_insert _

theorem answer_abandons {sdp : SdpAnswer} {reply : UnitReply} {whip : AnswerReply} {d : Instant}
    (hc : Covers env.order c.connections)
    (h : c.answerReceived id sdp reply env = some (c', os))
    (hl : c.connections.lookup id = some (.awaitingAnswer whip d))
    (hw : env.listening whip.channel = false) : c'.connections.lookup id = none := by
  simp only [Coordinator.answerReceived, hl, ConnectionState.deliverAnswer, hw,
    Bool.false_eq_true, if_false, Option.bind_eq_bind, Option.bind_eq_some_iff,
    Option.some.injEq, Prod.mk.injEq] at h
  obtain ⟨⟨r, d', os'⟩, ht, rfl, -⟩ := h
  obtain ⟨tripped, w, -, os₂, -, hs⟩ := peerGone_settles hc ht
  have he := (hs [] (by simp)).lookup id
  rw [Finmap.lookup_erase] at he
  exact he.elim (fun he => he) (fun he => he)

theorem answer_entry {sdp : SdpAnswer} {reply : UnitReply} (hc : Covers env.order c.connections)
    (h : c.answerReceived id sdp reply env = some (c', os))
    (hl : c'.connections.lookup id = some state) :
    c.connections.lookup id = some state ∨
      ∃ whip d, c.connections.lookup id = some (.awaitingAnswer whip d) ∧
        env.listening whip.channel = true := by
  obtain ⟨os₁, c₁, os₂, hm, hs, -⟩ := answerReceived_move hc h
  have hl₁ : c₁.connections.lookup id = some state := by
    obtain he | he := hs.lookup id
    · rwa [← he]
    · rw [he] at hl
      cases hl
  cases hm with
  | reject _ _ => exact .inl hl₁
  | @establish _ _ _ whip d since _ hi =>
    cases hw : env.listening whip.channel with
    | true => exact .inr ⟨whip, d, hi, hw⟩
    | false =>
      rw [answer_abandons hc h hi hw] at hl
      cases hl
  | abandonAnswer _ _ _ =>
    rw [Finmap.lookup_erase] at hl₁
    cases hl₁

theorem remove_entry {reply : UnitReply} (h : c.removeConnection id reply env = some (c', os))
    (hs : (env.branch id).succeeded = true) : c'.connections.lookup id = none := by
  cases hl : c.connections.lookup id with
  | none =>
    simp only [Coordinator.removeConnection, terminate_deleted_absent hl, Option.bind_eq_bind,
      Option.bind_some, Option.some.injEq, Prod.mk.injEq] at h
    rw [← h.1, hl]
  | some state =>
    simp only [Coordinator.removeConnection, terminate_deleted hl hs, Option.bind_eq_bind,
      Option.bind_some, Option.some.injEq, Prod.mk.injEq] at h
    rw [← h.1]
    exact Finmap.lookup_erase id c.connections

theorem remove_restores {reply : UnitReply} (h : c.removeConnection id reply env = some (c', os))
    (hl : c.connections.lookup id = some state) (hs : (env.branch id).succeeded = false) :
    c' = c := by
  simp only [Coordinator.removeConnection, terminate_deleted_failed hl hs, Option.bind_eq_bind,
    Option.bind_some, Option.some.injEq, Prod.mk.injEq] at h
  exact h.1.symm

end Turns

section Steps

variable {s s' : ReapSystem} {os : List Effect} {id : ConnectionId} {state : ConnectionState}

theorem mem_resume {c : Coordinator} (h : id ∈ (s.resume c).failed) :
    id ∈ s.failed ∧ c.containsKey id = true := List.mem_filter.mp h

theorem entry_eq_some (h : s.entry id = some state) :
    s.turn.bind Turn.removes ≠ some id ∧ s.coordinator.connections.lookup id = some state := by
  unfold ReapSystem.entry at h
  split at h
  · cases h
  next hn => exact ⟨hn, h⟩

theorem entry_of_ne (h : s.turn.bind Turn.removes ≠ some id) :
    s.entry id = s.coordinator.connections.lookup id := if_neg h

theorem entry_resume (c : Coordinator) : (s.resume c).entry id = c.connections.lookup id :=
  entry_of_ne (by simp [ReapSystem.resume])

theorem Kept.busWatch {branch : BranchId} (h : Kept s)
    (hd : Heeded s (.busError branch, os)) : Kept (s.busWatch branch) := by
  intro id hid state he
  have he' : s.entry id = some state := he
  by_cases hb : branch = ⟨id⟩
  · subst hb
    obtain ⟨-, -, hq⟩ | ⟨hfull, hq⟩ := s.reports.trySend_cases ⟨id⟩
    · exact .inl (by simp [ReapSystem.busWatch, hq])
    · obtain hlt | hm | hn := hd
      · omega
      · exact .inl (Channel.mem_trySend hm)
      · cases state with
        | established since => exact absurd he' (hn since)
        | _ => exact .inr rfl
  · have hid' : id ∈ s.failed := by
      unfold ReapSystem.busWatch at hid
      simp only at hid
      split at hid
      · obtain rfl | hid := List.mem_cons.mp hid
        · exact absurd rfl hb
        · exact hid
      · exact hid
    exact (h id hid' state he').imp_left Channel.mem_trySend

/-- An entry that outlives a turn without a deadline was there before, and
the turn was not the DELETE that failed to take it out. -/
theorem Kept.finish {turn : Turn} {env : Env} {c : Coordinator} (h : Kept s)
    (ht : s.turn = some turn) (hs : s.coordinator.Step (turn.event env, os) c)
    (hd : Heeded s (.finish env, os)) : Kept (s.resume c) := by
  intro id hid state he
  rw [entry_resume] at he
  have hf : id ∈ s.failed := (mem_resume hid).1
  have keep (hl : s.coordinator.connections.lookup id = some state)
      (hr : turn.removes ≠ some id) : ⟨id⟩ ∈ s.reports.queue ∨ state.deadline.isSome = true :=
    h id hf state (by rwa [entry_of_ne (by simpa [ht] using hr)])
  obtain ⟨hn, hl, -⟩ | ⟨cmd, env', hcmd, hm⟩ := step_entry hs he
  · cases turn with
    | command cmd => cases hn
    | sweepTick => exact keep hl (by simp [Turn.removes])
  cases turn with
  | sweepTick => cases hcmd
  | command cmd₀ =>
    cases hcmd
    by_cases hq : ⟨id⟩ ∈ s.reports.queue
    · exact .inl hq
    have hu : Unreported s id := ⟨hf, hq⟩
    obtain hl | hdl | ⟨sdp, reply, rfl⟩ := move_deadline hm he
    · by_cases hr : Turn.removes (.command cmd) = some id
      · cases cmd with
        | removeConnection i reply =>
          cases hr
          cases state with
          | established since =>
            simp only [Heeded, ht] at hd
            rw [remove_entry hs.2 (hd hu since hl)] at he
            cases he
          | _ => exact .inr rfl
        | _ => cases hr
      · exact keep hl hr
    · exact .inr hdl
    · obtain hl | ⟨whip, d, hl, hw⟩ := answer_entry hs.1 hs.2 he
      · exact keep hl (by simp [Turn.removes])
      · simp only [Heeded, ht] at hd
        cases (hd hu whip d hl).symm.trans hw

theorem Kept.reap {branch : BranchId} {reports : Channel BranchId branchFailureCapacity}
    {env : Env} {c : Coordinator} (h : Kept s) (ht : s.turn = none)
    (hr : s.reports.tryRecv = some (branch, reports))
    (hs : s.coordinator.Step (.branchFailure branch env, os) c) :
    Kept ({ s with reports }.resume c) := by
  intro id hid state he
  rw [entry_resume] at he
  have hl := (step_uncommanded hs rfl).1 id state he
  have hb : (⟨id⟩ : BranchId) ≠ branch := by
    rintro rfl
    obtain ⟨hn, rfl, -⟩ | ⟨state', -, rfl, -⟩ := reapBranch_move hs.2
    · rw [BranchId.intoString, he] at hn
      cases hn
    · simp [BranchId.intoString, Coordinator.remove] at he
  have hk := h id (mem_resume hid).1 state (by rwa [entry_of_ne (by simp [ht])])
  rw [Channel.tryRecv_eq_some.mp hr] at hk
  exact hk.imp_left fun hm => (List.mem_cons.mp hm).resolve_left hb

theorem step_cases {i : Input} (h : s.Step (i, os) s') :
    (∃ branch, i = .busError branch ∧ s' = s.busWatch branch) ∨
      (∃ turn, i = .begin turn ∧ s.turn = none ∧ s' = { s with turn := some turn }) ∨
      (∃ turn env c, i = .finish env ∧ s.turn = some turn ∧
        s.coordinator.Step (turn.event env, os) c ∧ s' = s.resume c) ∨
      ∃ branch reports env c, i = .reap env ∧ s.turn = none ∧
        s.reports.tryRecv = some (branch, reports) ∧
        s.coordinator.Step (.branchFailure branch env, os) c ∧
        s' = { s with reports }.resume c := by
  cases i with
  | busError branch =>
    obtain ⟨rfl, -⟩ := Prod.mk.inj (Option.some.inj h)
    exact .inl ⟨branch, rfl, rfl⟩
  | begin turn =>
    obtain ⟨ht, h⟩ := Option.ite_none_left_eq_some.mp h
    obtain ⟨rfl, -⟩ := Prod.mk.inj (Option.some.inj h)
    exact .inr (.inl ⟨turn, rfl, by simpa using ht, rfl⟩)
  | finish env =>
    simp only [ReapSystem.Step, ReapSystem.next, Option.bind_eq_bind, Option.bind_eq_some_iff,
      Option.some.injEq, Prod.mk.injEq] at h
    obtain ⟨turn, ht, ⟨c, os'⟩, hc, rfl, rfl⟩ := h
    exact .inr (.inr (.inl ⟨turn, env, c, rfl, ht, Coordinator.next_eq_some.mp hc, rfl⟩))
  | reap env =>
    obtain ⟨ht, h⟩ := Option.ite_none_left_eq_some.mp h
    simp only [Option.bind_eq_bind, Option.bind_eq_some_iff, Option.some.injEq,
      Prod.mk.injEq] at h
    obtain ⟨⟨branch, reports⟩, hr, ⟨c, os'⟩, hc, rfl, rfl⟩ := h
    exact .inr (.inr (.inr ⟨branch, reports, env, c, rfl, by simpa using ht, hr,
      Coordinator.next_eq_some.mp hc, rfl⟩))

theorem Kept.step {l : Input × List Effect} (h : Kept s) (hd : Heeded s l) (hs : s.Step l s') :
    Kept s' := by
  obtain ⟨i, os⟩ := l
  obtain ⟨branch, rfl, rfl⟩ | ⟨turn, rfl, ht, rfl⟩ | ⟨turn, env, c, rfl, ht, hc, rfl⟩ |
    ⟨branch, reports, env, c, rfl, ht, hr, hc, rfl⟩ := step_cases hs
  · exact h.busWatch hd
  · intro id hid state he
    have hl := (entry_eq_some he).2
    exact h id hid state (by rwa [entry_of_ne (by simp [ht])])
  · exact h.finish ht hc hd
  · exact h.reap ht hr hc

theorem heeded_busError {branch : BranchId} (h : Kept (s.busWatch branch)) :
    Heeded s (.busError branch, os) := by
  by_contra hno
  obtain ⟨hlt, hm, hn⟩ := by simpa only [Heeded, not_or, not_forall, not_not] using hno
  obtain ⟨since, he⟩ := hn
  have hb := s.reports.bounded
  have hfull := @Channel.trySend_of_full _ _ s.reports branch (by omega)
  have hknown : s.knows branch.intoString = true := by
    simp [ReapSystem.knows, Coordinator.containsKey, (entry_eq_some he).2]
  have hk := h branch.intoString (by simp [ReapSystem.busWatch, hknown]) (.established since) he
  rw [ReapSystem.busWatch, hfull] at hk
  obtain hq | hd := hk
  · exact hm hq
  · cases hd

theorem heeded_finish {turn : Turn} {env : Env} {c : Coordinator} (h : Kept (s.resume c))
    (ht : s.turn = some turn) (hs : s.coordinator.Step (turn.event env, os) c) :
    Heeded s (.finish env, os) := by
  have lost (id : ConnectionId) (since : Instant) (hu : Unreported s id)
      (hl : c.connections.lookup id = some (.established since)) : False := by
    have hid : id ∈ (s.resume c).failed :=
      List.mem_filter.mpr ⟨hu.1, by simp [Coordinator.containsKey, hl]⟩
    obtain hq | hd := h id hid (.established since) (by rw [entry_resume, hl])
    · exact hu.2 hq
    · cases hd
  cases turn with
  | sweepTick => simp only [Heeded, ht]
  | command cmd =>
    cases cmd with
    | answerReceived id sdp reply =>
      simp only [Heeded, ht]
      intro hu whip d hl
      by_contra hw
      exact lost id _ hu (answer_establishes hs.2 hl (by simpa using hw))
    | removeConnection id reply =>
      simp only [Heeded, ht]
      intro hu since hl
      by_contra hw
      have hc : c = s.coordinator := remove_restores hs.2 hl (by simpa using hw)
      exact lost id since hu (hc ▸ hl)
    | _ => simp only [Heeded, ht]

theorem heeded_of_kept {l : Input × List Effect} (hs : s.Step l s') (h : Kept s') :
    Heeded s l := by
  obtain ⟨i, os⟩ := l
  obtain ⟨branch, rfl, rfl⟩ | ⟨turn, rfl, -, -⟩ | ⟨turn, env, c, rfl, ht, hc, rfl⟩ |
    ⟨branch, reports, env, c, rfl, -, -, -, -⟩ := step_cases hs
  · exact heeded_busError h
  · trivial
  · exact heeded_finish h ht hc
  · trivial

theorem step_unique (s : ReapSystem) (l : Input × List Effect) (t u : ReapSystem)
    (h : s.Step l t) (g : s.Step l u) : t = u :=
  (Prod.mk.inj (Option.some.inj (h.symm.trans g))).1

end Steps

theorem run_coordinator {config : CoordinatorConfig} {ls : List (Input × List Effect)}
    {s : ReapSystem} (h : Run ReapSystem.Step (.start config) ls s) :
    ∃ ms, Run Coordinator.Step (.new config) ms s.coordinator := by
  refine h.invariant (P := fun s => ∃ ms, Run Coordinator.Step (.new config) ms s.coordinator)
    ⟨[], .nil _⟩ ?_
  rintro s s' ⟨i, os⟩ ⟨ms, hm⟩ hs
  obtain ⟨branch, -, rfl⟩ | ⟨turn, -, -, rfl⟩ | ⟨turn, env, c, -, -, hc, rfl⟩ |
    ⟨branch, reports, env, c, -, -, -, hc, rfl⟩ := step_cases hs
  · exact ⟨ms, hm⟩
  · exact ⟨ms, hm⟩
  · exact ⟨_, hm.snoc hc⟩
  · exact ⟨_, hm.snoc hc⟩

/-- Every failure keeps a trace in every state of a run exactly when no step
of the run loses the last trace of one. -/
theorem failures_kept_iff {config : CoordinatorConfig} {ls : List (Input × List Effect)}
    {s : ReapSystem} (h : Run ReapSystem.Step (.start config) ls s) :
    Always ReapSystem.Step Kept (.start config) ls ↔
      Each ReapSystem.Step Heeded (.start config) ls := by
  refine h.always_iff step_unique ?_ (fun hk hd hs => hk.step hd hs) heeded_of_kept
  intro id hid
  cases hid

def handshake (id : ConnectionId) (ch : Nat) (order : List ConnectionId) : List Input :=
  [.begin (.command (.createConnection id ⟨ch⟩)), .finish (.calm 0 order),
    .begin (.command (.offerReceived id default ⟨ch + 1⟩)), .finish (.calm 0 order),
    .begin (.command (.answerReceived id default ⟨ch + 2⟩)), .finish (.calm 0 order)]

/-- With room in the channel the report of an established viewer is queued. -/
theorem failures_kept_reported :
    ∃ ls s, Run ReapSystem.Step (.start {}) ls s ∧ s.failed = ["a"] ∧
      s.reports.queue = [⟨"a"⟩] ∧
      (Always ReapSystem.Step Kept (.start {}) ls ↔
        Each ReapSystem.Step Heeded (.start {}) ls) := by
  obtain ⟨ls, s, h, -, hv⟩ := replayed ReapSystem.next ReapSystem.Step (fun _ _ _ _ h => h)
    (.start {}) (handshake "a" 0 ["a"] ++ [.busError ⟨"a"⟩])
    (["a"], [⟨"a"⟩]) (fun r => (r.1.failed, r.1.reports.queue)) (by decide)
  obtain ⟨hf, hq⟩ := Prod.mk.inj hv
  exact ⟨ls, s, h, hf, hq, failures_kept_iff h⟩

set_option maxRecDepth 4000 in
/-- While the coordinator waits for the teardown of one viewer, the reports of
that viewer fill the channel and the one about another is dropped. -/
theorem overflow_forgets :
    ∃ ls s, Run ReapSystem.Step (.start {}) ls s ∧
      ¬ Always ReapSystem.Step Kept (.start {}) ls := by
  obtain ⟨ls, s, h, -, hv⟩ := replayed ReapSystem.next ReapSystem.Step (fun _ _ _ _ h => h)
    (.start {}) (handshake "a" 0 ["a"] ++ handshake "b" 3 ["a", "b"] ++
    [.begin (.command (.removeConnection "b" ⟨6⟩))] ++
    List.replicate 64 (.busError ⟨"b"⟩) ++ [.busError ⟨"a"⟩])
    (true, false, some (.established 0))
    (fun r => (decide ("a" ∈ r.1.failed), decide (⟨"a"⟩ ∈ r.1.reports.queue), r.1.entry "a"))
    (by decide)
  simp only [Prod.mk.injEq, decide_eq_true_eq, decide_eq_false_iff_not] at hv
  obtain ⟨hf, hq, he⟩ := hv
  refine ⟨ls, s, h, fun ha => ?_⟩
  obtain hm | hd := ha ls [] s (by simp) h "a" hf (.established 0) he
  · exact hq hm
  · cases hd

end SrtWhep.Reaping
