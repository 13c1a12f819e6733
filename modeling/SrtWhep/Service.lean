import SrtWhep.Coordinator
import SrtWhep.RestartRequests

namespace SrtWhep

open Library.Runs Library.Channels RestartRequests

def mailboxCapacity : Nat := 64

/-- A command in the mailbox, with the number of the run that had last been
started when it was sent. -/
structure Posted where
  command : Command
  run : Nat
deriving DecidableEq

def Command.isReset : Command → Bool
  | reset _ => true
  | _ => false

inductive Turn
  | command (p : Posted)
  | branchFailure (branch : BranchId)
  | sweepTick
deriving DecidableEq

namespace Turn

def event (env : Env) : Turn → Event
  | command p => .command p.command env
  | branchFailure branch => .branchFailure branch env
  | sweepTick => .sweepTick env

def creates : Turn → Option ConnectionId
  | command ⟨.createConnection id _, _⟩ => some id
  | _ => none

def resets : Turn → Option Nat
  | command ⟨.reset _, run⟩ => some run
  | _ => none

end Turn

structure Job where
  turn : Turn
  started : Instant
  attached : Bool
deriving DecidableEq

def Job.attaching (job : Job) : Option ConnectionId :=
  if job.attached then job.turn.creates else none

inductive ResetCall
  | sending
  | posted
  | executed
deriving DecidableEq

/-- The supervisor, the coordinator, the channels between them and the
pipeline slot. Runs are numbered by the calls of `init`; `pipeline` is the run
whose pipeline is in the slot, and the coordinator is the one before the turn
under way, which is its last turn if its task is no longer alive. The last three
fields are history: the run each connection was
attached in, those of the failures recorded since the watchdog was last
cleared, and whether `clean_up` and `reset` returned `Ok` in the last cleanup. -/
structure Service where
  clock : Instant
  control : RestartSystem
  since : Instant
  run : Nat
  pipeline : Option Nat
  coordinator : Coordinator
  alive : Bool
  mailbox : Channel Posted mailboxCapacity
  job : Option Job
  resetCall : Option ResetCall
  births : ConnectionId → Nat
  counted : List Nat
  orderly : Bool

/-- What happens next: time passes, a request handler or the supervisor's
reset gets its slot in the mailbox, the supervisor goes on, `init` puts its
pipeline in the slot, or the coordinator takes up, goes on with or ends a turn,
by a panic if it has to. -/
inductive Service.Input
  | tick (d : Duration)
  | request (cmd : Command)
  | postReset (reply : UnitReply)
  | wake (w : Wake)
  | built
  | receive
  | receiveFailure (branch : BranchId)
  | sweep
  | attach
  | finish (env : Env)
  | panic (env : Env)

def Effect.branchCall : Effect → Option BranchCall
  | addBranch _ call => some call
  | removeBranch _ call => some call
  | _ => none

def Effect.attaches : Effect → Bool
  | addBranch _ call => call.succeeded
  | _ => false

def Supervisor.timer (s : Supervisor) : Wake → Duration
  | .joined none => shutdownJoinTimeout
  | .answered none => resetTimeout
  | .slept => backoffDelay s.consecutiveFailures
  | _ => 0

def tally (births : ConnectionId → Nat) (os : List Effect) (counted : List Nat) : List Nat :=
  os.foldl (fun ms o =>
    match o with
    | .recordFailure id _ => births id :: ms
    | .recordSuccess _ => []
    | _ => ms) counted

namespace Service

def start (config : CoordinatorConfig) : Service where
  clock := 0
  control := .start
  since := 0
  run := 0
  pipeline := none
  coordinator := .new config
  alive := (Coordinator.start config).isSome
  mailbox := .empty
  job := none
  resetCall := none
  births _ := 0
  counted := []
  orderly := true

def phase (s : Service) : Phase := s.control.supervisor.phase

def post (s : Service) (p : Posted) : Option Service :=
  let (mailbox, accepted) := s.mailbox.trySend p
  if s.alive && accepted then some { s with mailbox } else none

def allows (s : Service) (w : Wake) : Bool :=
  decide (s.since + s.control.supervisor.timer w ≤ s.clock) &&
    match w with
    | .initialized ok => ok == decide (s.pipeline = some s.run)
    | .answered (some true) => decide (s.resetCall = some .executed)
    | .answered (some false) => !s.alive && decide (s.resetCall ≠ some .executed)
    | .answered none => decide (s.resetCall ≠ some .executed)
    | _ => true

def woken (s : Service) : Wake → Service
  | .received false => { s with run := s.run + 1 }
  | .cleanedUp ok =>
    { s with
      pipeline := if ok then none else s.pipeline
      resetCall := some .sending
      orderly := ok }
  | .answered reply =>
    { s with resetCall := none, orderly := s.orderly && decide (reply = some true) }
  | _ => s

def take (s : Service) (turn : Turn) : Option Service :=
  if s.alive && s.job.isNone then some { s with job := some ⟨turn, s.clock, false⟩ } else none

/-- The turn made its calls within their time, one that was cut off took all
of it, and its `add_branch` succeeded if the branch was attached. -/
def punctual (s : Service) (job : Job) (env : Env) (os : List Effect) : Bool :=
  let timeout := s.coordinator.config.teardownTimeout
  decide (job.started ≤ env.now ∧ env.now ≤ s.clock) &&
    decide (s.clock ≤ job.started + os.countP (·.branchCall.isSome) * timeout) &&
    os.all (fun o => o.branchCall.all fun call =>
      decide (job.started ≤ call.returned ∧ call.returned ≤ s.clock) &&
        (call.result.isSome || decide (job.started + timeout ≤ call.returned))) &&
    os.any Effect.attaches == job.attached

def attached (s : Service) (job : Job) (id : ConnectionId) (run : Nat) : Service :=
  { s with
    job := some { job with attached := true }
    births := Function.update s.births id run }

def finished (s : Service) (job : Job) (c : Coordinator) (os : List Effect) : Service :=
  { s with
    control := s.control.feed os
    coordinator := c
    job := none
    resetCall :=
      if job.turn.resets = some s.run ∧ s.resetCall = some .posted then some .executed
      else s.resetCall
    counted := tally s.births os s.counted }

/-- With the coordinator go the commands in its mailbox. -/
def died (s : Service) : Service := { s with alive := false, job := none, mailbox := .empty }

def next (s : Service) : Input → Option (Service × List Effect)
  | .tick d => some ({ s with clock := s.clock + d }, [])
  | .request cmd => if cmd.isReset then none else (s.post ⟨cmd, s.run⟩).map (·, [])
  | .postReset reply =>
    if s.resetCall = some .sending then
      (s.post ⟨.reset reply, s.run⟩).map ({ · with resetCall := some .posted }, [])
    else none
  | .wake w =>
    if s.allows w then
      (s.control.next (.wake w)).map fun r =>
        ({ s.woken w with control := r.1, since := s.clock }, [])
    else none
  | .built =>
    if s.phase = .initializing ∧ s.pipeline ≠ some s.run then
      some ({ s with pipeline := some s.run }, [])
    else none
  | .receive => do
    let (p, mailbox) ← s.mailbox.tryRecv
    let t ← s.take (.command p)
    some ({ t with mailbox }, [])
  | .receiveFailure branch => (s.take (.branchFailure branch)).map (·, [])
  | .sweep => (s.take .sweepTick).map (·, [])
  | .attach => do
    let job ← s.job
    let id ← job.turn.creates
    let run ← s.pipeline
    if job.attached || s.coordinator.containsKey id then none
    else some (s.attached job id run, [])
  | .finish env => do
    let job ← s.job
    let (c, os) ← s.coordinator.next (job.turn.event env)
    if s.punctual job env os then some (s.finished job c os, os) else none
  | .panic env => do
    let job ← s.job
    let os ← s.coordinator.panicked (job.turn.event env)
    if s.punctual job env os then some (s.died, os) else none

def Step (s : Service) (l : Input × List Effect) (s' : Service) : Prop :=
  s.next l.1 = some (s', l.2)

def live (s : Service) (id : ConnectionId) : Prop :=
  s.coordinator.containsKey id = true ∨ s.job.bind Job.attaching = some id

/-- The runs after which the `Reset`s not yet executed were requested. -/
def pendingResets (s : Service) : List Nat :=
  s.mailbox.queue.filterMap (fun p => (Turn.command p).resets) ++
    (s.job.bind fun job => job.turn.resets).toList

/-- What the steps that only move messages, or lose them, leave as it is. -/
structure Shuffles (s s' : Service) : Prop where
  control : s'.control = s.control
  run : s'.run = s.run
  pipeline : s'.pipeline = s.pipeline
  coordinator : s'.coordinator = s.coordinator
  births : s'.births = s.births
  counted : s'.counted = s.counted
  orderly : s'.orderly = s.orderly
  live : ∀ id, s'.live id → s.live id
  executed : s'.resetCall = some .executed → s.resetCall = some .executed
  pendingResets : ∀ n ∈ s'.pendingResets, n ∈ s.pendingResets ∨ n = s.run

section Inversion

variable {s s' : Service} {os : List Effect}

theorem post_eq_some {p : Posted} (h : s.post p = some s') :
    s.alive = true ∧
      ∃ mailbox, s' = { s with mailbox } ∧ mailbox.queue = s.mailbox.queue ++ [p] := by
  obtain ⟨-, ha, hq⟩ | ⟨-, hq⟩ := s.mailbox.trySend_cases p
  · simp only [post, ha, Bool.and_true, Option.ite_none_right_eq_some] at h
    exact ⟨h.1, _, (Option.some.inj h.2).symm, hq⟩
  · simp [post, hq] at h

theorem mem_pendingResets {n : Nat} :
    n ∈ s.pendingResets ↔ (∃ p ∈ s.mailbox.queue, (Turn.command p).resets = some n) ∨
      s.job.bind (fun job => job.turn.resets) = some n := by
  simp [pendingResets]

theorem pendingResets_post {p : Posted} {mailbox : Channel Posted mailboxCapacity} {n : Nat}
    (hq : mailbox.queue = s.mailbox.queue ++ [p]) (hp : p.run = s.run)
    (h : n ∈ { s with mailbox }.pendingResets) : n ∈ s.pendingResets ∨ n = s.run := by
  obtain ⟨q, hm, hr⟩ | hj := mem_pendingResets.mp h
  · rw [hq] at hm
    obtain hm | hm := List.mem_append.mp hm
    · exact .inl (mem_pendingResets.mpr (.inl ⟨q, hm, hr⟩))
    · obtain rfl := List.mem_singleton.mp hm
      obtain ⟨cmd, run⟩ := q
      cases cmd with
      | reset reply => exact .inr ((Option.some.inj hr).symm.trans hp)
      | _ => cases hr
  · exact .inl (mem_pendingResets.mpr (.inr hj))

theorem Shuffles.post {p : Posted} (h : s.post p = some s') (hp : p.run = s.run) :
    s.Shuffles s' := by
  obtain ⟨-, mailbox, rfl, hq⟩ := post_eq_some h
  exact ⟨rfl, rfl, rfl, rfl, rfl, rfl, rfl, fun _ hl => hl, fun he => he,
    fun n hn => pendingResets_post hq hp hn⟩

theorem take_eq_some {turn : Turn} (h : s.take turn = some s') :
    s.alive = true ∧ s.job = none ∧ s' = { s with job := some ⟨turn, s.clock, false⟩ } := by
  obtain ⟨ha, h⟩ := Option.ite_none_right_eq_some.mp h
  obtain ⟨ha, hj⟩ := Bool.and_eq_true_iff.mp ha
  exact ⟨ha, Option.isNone_iff_eq_none.mp hj, (Option.some.inj h).symm⟩

theorem Shuffles.take {turn : Turn} (h : s.take turn = some s') (hr : turn.resets = none) :
    s.Shuffles s' := by
  obtain ⟨-, hj, rfl⟩ := take_eq_some h
  refine ⟨rfl, rfl, rfl, rfl, rfl, rfl, rfl, fun id hl => ?_, fun he => he, fun n hn => ?_⟩
  · simpa [Service.live, hj, Job.attaching] using hl
  · exact .inl (by simpa [Service.pendingResets, hj, hr] using hn)

theorem Shuffles.receive {p : Posted} {mailbox : Channel Posted mailboxCapacity} {t : Service}
    (hr : s.mailbox.tryRecv = some (p, mailbox)) (h : s.take (.command p) = some t) :
    s.Shuffles { t with mailbox } := by
  obtain ⟨-, hj, rfl⟩ := take_eq_some h
  have hq := Channel.tryRecv_eq_some.mp hr
  refine ⟨rfl, rfl, rfl, rfl, rfl, rfl, rfl, fun id hl => ?_, fun he => he, fun n hn => .inl ?_⟩
  · simpa [Service.live, hj, Job.attaching] using hl
  · refine mem_pendingResets.mpr (.inl ?_)
    obtain ⟨q, hm, hn⟩ | hn := mem_pendingResets.mp hn
    · exact ⟨q, by simp [hq, hm], hn⟩
    · exact ⟨p, by simp [hq], by simpa using hn⟩

theorem Shuffles.died (s : Service) : s.Shuffles s.died := by
  refine ⟨rfl, rfl, rfl, rfl, rfl, rfl, rfl, fun id hl => ?_, fun he => he, fun n hn => ?_⟩
  · exact .inl (hl.resolve_right (by simp [Service.died]))
  · simp [Service.pendingResets, Service.died, Channel.empty] at hn

/-- Everything a step can do. -/
theorem step_cases {i : Input} (h : s.Step (i, os) s') :
    s.Shuffles s' ∨
      (∃ w r, i = .wake w ∧ s.allows w = true ∧ s.control.next (.wake w) = some r ∧
        s' = { s.woken w with control := r.1, since := s.clock }) ∨
      (i = .built ∧ s.phase = .initializing ∧ s' = { s with pipeline := some s.run }) ∨
      (∃ job id n, i = .attach ∧ s.job = some job ∧ job.turn.creates = some id ∧
        s.pipeline = some n ∧ s.coordinator.containsKey id = false ∧ s' = s.attached job id n) ∨
      ∃ job env c, i = .finish env ∧ s.job = some job ∧
        s.coordinator.Step (job.turn.event env, os) c ∧ os.any Effect.attaches = job.attached ∧
        s' = s.finished job c os := by
  cases i with
  | tick d =>
    obtain ⟨rfl, -⟩ := Prod.mk.inj (Option.some.inj h)
    exact .inl ⟨rfl, rfl, rfl, rfl, rfl, rfl, rfl, fun _ hl => hl, fun he => he,
      fun _ hn => .inl hn⟩
  | request cmd =>
    obtain ⟨-, h⟩ := Option.ite_none_left_eq_some.mp h
    obtain ⟨t, ht, h⟩ := Option.map_eq_some_iff.mp h
    obtain ⟨rfl, -⟩ := Prod.mk.inj h
    exact .inl (.post ht rfl)
  | postReset reply =>
    obtain ⟨-, h⟩ := Option.ite_none_right_eq_some.mp h
    obtain ⟨t, ht, h⟩ := Option.map_eq_some_iff.mp h
    obtain ⟨rfl, -⟩ := Prod.mk.inj h
    obtain ⟨hc, hr, hp, hco, hb, hcn, ho, hl, -, hpend⟩ := Shuffles.post ht rfl
    exact .inl ⟨hc, hr, hp, hco, hb, hcn, ho, hl, by simp, hpend⟩
  | wake w =>
    obtain ⟨ha, h⟩ := Option.ite_none_right_eq_some.mp h
    obtain ⟨r, hr, h⟩ := Option.map_eq_some_iff.mp h
    obtain ⟨rfl, -⟩ := Prod.mk.inj h
    exact .inr (.inl ⟨w, r, rfl, ha, hr, rfl⟩)
  | built =>
    obtain ⟨⟨hp, -⟩, h⟩ := Option.ite_none_right_eq_some.mp h
    obtain ⟨rfl, -⟩ := Prod.mk.inj (Option.some.inj h)
    exact .inr (.inr (.inl ⟨rfl, hp, rfl⟩))
  | receive =>
    simp only [Step, next, Option.bind_eq_bind, Option.bind_eq_some_iff, Option.some.injEq,
      Prod.mk.injEq] at h
    obtain ⟨⟨p, mailbox⟩, hr, t, ht, rfl, -⟩ := h
    exact .inl (.receive hr ht)
  | receiveFailure branch =>
    obtain ⟨t, ht, h⟩ := Option.map_eq_some_iff.mp h
    obtain ⟨rfl, -⟩ := Prod.mk.inj h
    exact .inl (.take ht rfl)
  | sweep =>
    obtain ⟨t, ht, h⟩ := Option.map_eq_some_iff.mp h
    obtain ⟨rfl, -⟩ := Prod.mk.inj h
    exact .inl (.take ht rfl)
  | attach =>
    simp only [Step, next, Option.bind_eq_bind, Option.bind_eq_some_iff] at h
    obtain ⟨job, hj, id, hid, n, hn, h⟩ := h
    obtain ⟨ha, h⟩ := Option.ite_none_left_eq_some.mp h
    obtain ⟨rfl, -⟩ := Prod.mk.inj (Option.some.inj h)
    obtain ⟨-, hk⟩ : job.attached = false ∧ s.coordinator.containsKey id = false := by
      simpa using ha
    exact .inr (.inr (.inr (.inl ⟨job, id, n, rfl, hj, hid, hn, hk, rfl⟩)))
  | finish env =>
    simp only [Step, next, Option.bind_eq_bind, Option.bind_eq_some_iff] at h
    obtain ⟨job, hj, ⟨c, os'⟩, hc, h⟩ := h
    obtain ⟨hp, h⟩ := Option.ite_none_right_eq_some.mp h
    obtain ⟨rfl, rfl⟩ := Prod.mk.inj (Option.some.inj h)
    have ha : os'.any Effect.attaches = job.attached := by
      simp only [punctual, Bool.and_eq_true, beq_iff_eq] at hp
      exact hp.2
    exact .inr (.inr (.inr (.inr ⟨job, env, c, rfl, hj, Coordinator.next_eq_some.mp hc, ha, rfl⟩)))
  | panic env =>
    simp only [Step, next, Option.bind_eq_bind, Option.bind_eq_some_iff] at h
    obtain ⟨job, -, os', -, h⟩ := h
    obtain ⟨-, h⟩ := Option.ite_none_right_eq_some.mp h
    obtain ⟨rfl, -⟩ := Prod.mk.inj (Option.some.inj h)
    exact .inl (.died s)

theorem step_parts {l : Input × List Effect} (h : s.Step l s') :
    (∃ ls, Run RestartSystem.Step s.control ls s'.control) ∧
      ∃ ls, Run Coordinator.Step s.coordinator ls s'.coordinator := by
  obtain ⟨i, os⟩ := l
  obtain hs | ⟨w, r, -, -, hr, rfl⟩ | ⟨-, -, rfl⟩ | ⟨job, id, n, -, -, -, -, -, rfl⟩ |
    ⟨job, env, c, -, -, hc, -, rfl⟩ := step_cases h
  · rw [hs.control, hs.coordinator]
    exact ⟨⟨[], .nil _⟩, ⟨[], .nil _⟩⟩
  · refine ⟨⟨[(.wake w, r.2)], .single hr⟩, ⟨[], ?_⟩⟩
    have hw : (s.woken w).coordinator = s.coordinator := by unfold woken; split <;> rfl
    exact run_nil.mpr hw.symm
  · exact ⟨⟨[], .nil _⟩, ⟨[], .nil _⟩⟩
  · exact ⟨⟨[], .nil _⟩, ⟨[], .nil _⟩⟩
  · exact ⟨s.control.feed_run os, ⟨_, .single hc⟩⟩

end Inversion

/-- What holds of every run of the restart channel's two sides, or of the
coordinator, holds of them in the service. -/
theorem run_parts {config : CoordinatorConfig} {ls : List (Input × List Effect)} {s : Service}
    (h : Run Step (.start config) ls s) :
    (∃ ms, Run RestartSystem.Step .start ms s.control) ∧
      ∃ ms, Run Coordinator.Step (.new config) ms s.coordinator := by
  refine h.invariant (P := fun s => (∃ ms, Run RestartSystem.Step .start ms s.control) ∧
    ∃ ms, Run Coordinator.Step (.new config) ms s.coordinator) ⟨⟨[], .nil _⟩, ⟨[], .nil _⟩⟩ ?_
  rintro s s' l ⟨⟨ms, hm⟩, ns, hn⟩ hs
  obtain ⟨⟨ks, hk⟩, js, hj⟩ := step_parts hs
  exact ⟨⟨ms ++ ks, hm.append hk⟩, ns ++ js, hn.append hj⟩

end Service

end SrtWhep
