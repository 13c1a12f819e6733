import SrtWhep.Moves
import SrtWhep.Stream.Leftovers

namespace SrtWhep.Stream.Creation

open Library.Runs

inductive Lock
  | pipeline
  | noPipeline
  | timedOut (message : String)
deriving DecidableEq, Repr

/-- How far a call of `add_branch` has come under the timeout that bounds it.
When it has returned, `none` for cut off, a call it awaited may still be under
way. -/
inductive Phase
  | locking
  | checking
  | attaching (ops : List AttachOp)
  | detaching (message : String) (ops : List DetachOp)
  | returned (result : Option (Except PipelineError Unit)) (pending : Option DetachOp)
deriving DecidableEq

structure State where
  branch : Branch
  decodeVideo : Bool
  graph : Graph
  phase : Phase

/-- `attach` and `detach` are the next operation and what GStreamer makes of it,
`late` the end of a call that was under way at the timeout, and `elsewhere` what
others do to the pipeline, who leave alone what the viewer has in it. -/
inductive Input
  | lock (outcome : Lock)
  | check
  | attach (verdict : Except String Unit)
  | detach (verdict : Except String Unit)
  | finish
  | timeout
  | late (verdict : Except String Unit)
  | elsewhere (graph : Graph)

namespace State

def start (id : String) (decodeVideo : Bool) (graph : Graph) : State :=
  ⟨⟨id⟩, decodeVideo, graph, .locking⟩

def goTo (s : State) (phase : Phase) : Option (State × List Change) :=
  some ({ s with phase }, [])

def next (s : State) : Input → Option (State × List Change)
  | .lock outcome =>
    match s.phase, outcome with
    | .locking, .pipeline => s.goTo .checking
    | .locking, .noPipeline => s.goTo (.returned (some (.error .notReady)) none)
    | .locking, .timedOut message => s.goTo (.returned (some (.error (.transient message))) none)
    | _, _ => none
  | .check =>
    match s.phase, s.graph.inputReady with
    | .checking, .ok true => s.goTo (.attaching s.branch.attach)
    | .checking, .ok false => s.goTo (.returned (some (.error .notReady)) none)
    | .checking, .error e => s.goTo (.returned (some (.error e)) none)
    | _, _ => none
  | .attach verdict =>
    match s.phase with
    | .attaching (op :: ops) => do
      match ← op.run s.branch s.decodeVideo s.graph ops verdict with
      | .ok (graph, changes, ops) => some ({ s with graph, phase := .attaching ops }, changes)
      | .error message => s.goTo (.detaching message s.branch.detach)
    | _ => none
  | .detach verdict =>
    match s.phase with
    | .detaching message (op :: ops) => do
      match ← op.run s.graph ops verdict with
      | .ok (graph, changes, ops) =>
        some ({ s with graph, phase := .detaching message ops }, changes)
      -- The error of the cleanup is logged; that of the attach is reported.
      | .error _ => s.goTo (.returned (some (.error (.fatal message))) none)
    | _ => none
  | .finish =>
    match s.phase with
    | .attaching [] => s.goTo (.returned (some (.ok ())) none)
    | .detaching message [] => s.goTo (.returned (some (.error (.fatal message))) none)
    | _ => none
  | .timeout =>
    match s.phase with
    | .locking => s.goTo (.returned none none)
    | .detaching _ (op :: _) => if op.awaits then s.goTo (.returned none (some op)) else none
    | _ => none
  | .late verdict =>
    match s.phase with
    | .returned result (some op) => do
      match ← op.run s.graph [] verdict with
      | .ok (graph, changes, _) => some ({ s with graph, phase := .returned result none }, changes)
      | .error _ => none
    | _ => none
  | .elsewhere graph =>
    if graph.own s.branch.id = s.graph.own s.branch.id then some ({ s with graph }, []) else none

def Step (s : State) (l : Input × List Change) (t : State) : Prop := s.next l.1 = some (t, l.2)

inductive Takes (s : State) : Input → List Change → State → Prop
  | locked : s.phase = .locking → Takes s (.lock .pipeline) [] { s with phase := .checking }
  | refused {i e} : s.phase = .locking ∨ s.phase = .checking → (∀ graph, i ≠ .elsewhere graph) →
      Takes s i [] { s with phase := .returned (some (.error e)) none }
  | checked : s.phase = .checking →
      Takes s .check [] { s with phase := .attaching s.branch.attach }
  | attached {op ops verdict graph cs ops'} : s.phase = .attaching (op :: ops) →
      Attaches s.branch s.decodeVideo s.graph ops op graph cs ops' →
      Takes s (.attach verdict) cs { s with graph, phase := .attaching ops' }
  | broken {ops verdict message} : s.phase = .attaching ops →
      Takes s (.attach verdict) [] { s with phase := .detaching message s.branch.detach }
  | complete : s.phase = .attaching [] →
      Takes s .finish [] { s with phase := .returned (some (.ok ())) none }
  | detached {message op ops verdict graph cs ops'} : s.phase = .detaching message (op :: ops) →
      Detaches s.graph ops op (failed verdict) graph cs ops' →
      Takes s (.detach verdict) cs { s with graph, phase := .detaching message ops' }
  | stuck {message ops verdict} : s.phase = .detaching message ops → failed verdict = true →
      Takes s (.detach verdict) []
        { s with phase := .returned (some (.error (.fatal message))) none }
  | cleaned {message} : s.phase = .detaching message [] →
      Takes s .finish [] { s with phase := .returned (some (.error (.fatal message))) none }
  | waited : s.phase = .locking → Takes s .timeout [] { s with phase := .returned none none }
  | cut {message op ops} : s.phase = .detaching message (op :: ops) → op.awaits = true →
      Takes s .timeout [] { s with phase := .returned none (some op) }
  | late {result op verdict graph cs ops'} : s.phase = .returned result (some op) →
      Detaches s.graph [] op (failed verdict) graph cs ops' →
      Takes s (.late verdict) cs { s with graph, phase := .returned result none }
  | elsewhere {graph} : graph.own s.branch.id = s.graph.own s.branch.id →
      Takes s (.elsewhere graph) [] { s with graph }

theorem Step.takes {s t : State} {i : Input} {cs : List Change} (h : s.Step (i, cs) t) :
    s.Takes i cs t := by
  obtain ⟨branch, decodeVideo, graph, phase⟩ := s
  cases i with
  | lock outcome =>
    cases phase with
    | locking =>
      cases outcome with
      | pipeline =>
        cases h
        exact .locked rfl
      | noPipeline | timedOut =>
        cases h
        exact .refused (.inl rfl) (by simp)
    | _ => cases h
  | check =>
    cases phase with
    | checking =>
      simp only [Step, next] at h
      split at h
      · cases h
        exact .checked rfl
      · cases h
        exact .refused (.inr rfl) (by simp)
      · cases h
        exact .refused (.inr rfl) (by simp)
      · cases h
    | _ => simp [Step, next] at h
  | attach verdict =>
    cases phase with
    | attaching ops =>
      cases ops with
      | nil => cases h
      | cons op ops =>
        simp only [Step, next, Option.bind_eq_bind, Option.bind_eq_some_iff] at h
        obtain ⟨outcome, hr, h⟩ := h
        cases outcome with
        | error message =>
          cases h
          exact .broken rfl
        | ok r =>
          cases h
          exact .attached rfl (AttachOp.run_attaches hr)
    | _ => cases h
  | detach verdict =>
    cases phase with
    | detaching message ops =>
      cases ops with
      | nil => cases h
      | cons op ops =>
        simp only [Step, next, Option.bind_eq_bind, Option.bind_eq_some_iff] at h
        obtain ⟨outcome, hr, h⟩ := h
        cases outcome with
        | error err =>
          cases h
          exact .stuck rfl (DetachOp.run_error hr)
        | ok r =>
          cases h
          exact .detached rfl (DetachOp.run_detaches hr)
    | _ => cases h
  | finish =>
    cases phase with
    | attaching ops =>
      cases ops with
      | nil =>
        cases h
        exact .complete rfl
      | cons => cases h
    | detaching message ops =>
      cases ops with
      | nil =>
        cases h
        exact .cleaned rfl
      | cons => cases h
    | _ => cases h
  | timeout =>
    cases phase with
    | locking =>
      cases h
      exact .waited rfl
    | detaching message ops =>
      cases ops with
      | nil => cases h
      | cons op ops =>
        simp only [Step, next] at h
        split at h
        next ha =>
          cases h
          exact .cut rfl ha
        next => cases h
    | _ => cases h
  | late verdict =>
    cases phase with
    | returned result pending =>
      cases pending with
      | none => cases h
      | some op =>
        simp only [Step, next, Option.bind_eq_bind, Option.bind_eq_some_iff] at h
        obtain ⟨outcome, hr, h⟩ := h
        cases outcome with
        | error err => cases h
        | ok r =>
          cases h
          exact .late rfl (DetachOp.run_detaches hr)
    | _ => cases h
  | elsewhere graph' =>
    simp only [Step, next] at h
    split at h
    next he =>
      cases h
      exact .elsewhere he
    next => cases h

end State

def changes (ls : List (Input × List Change)) : List Change := ls.flatMap Prod.snd

/-- The cleanup is neither cut off nor is any of its calls failed. -/
def Calm (ls : List (Input × List Change)) : Prop :=
  ∀ l ∈ ls, l.1 ≠ .timeout ∧ ∀ message, l.1 ≠ .detach (.error message)

def Undisturbed (ls : List (Input × List Change)) : Prop :=
  ∀ l ∈ ls, ∀ graph, l.1 ≠ .elsewhere graph

/-- What a call that has not succeeded leaves of the viewer in the pipeline. -/
structure Left (b : Branch) (o : Graph) (ls : List (Input × List Change))
    (pending : Option DetachOp) : Prop where
  tidy : Tidy b o
  exact : Exact (changes ls) o
  clean : Calm ls → o = .empty ∧ pending = none
  due : ∀ op ∈ pending, Due b o op

def Holds (b : Branch) (o : Graph) (ls : List (Input × List Change)) : Phase → Prop
  | .locking | .checking => o = .empty ∧ changes ls = []
  | .attaching ops => Attached b (changes ls) o ∧ ∀ op ∈ ops, b.Allows op
  | .detaching _ ops => Detaching b (Calm ls) (changes ls) o ops
  | .returned result pending => result = some (.ok ()) ∧ pending = none ∨ Left b o ls pending

section Runs

variable {s t : State} {ls : List (Input × List Change)} {l : Input × List Change} {i : Input}
  {cs : List Change} {b : Branch} {o : Graph} {phase : Phase}

@[simp] theorem changes_snoc : changes (ls ++ [(i, cs)]) = changes ls ++ cs := by
  simp [changes]

theorem calm_snoc : Calm (ls ++ [l]) ↔
    Calm ls ∧ l.1 ≠ .timeout ∧ ∀ message, l.1 ≠ .detach (.error message) := by
  simp only [Calm, List.mem_append, List.mem_singleton, or_imp, forall_and, forall_eq]
  tauto

theorem calm_detach {verdict : Except String Unit} (h : Calm (ls ++ [(.detach verdict, cs)])) :
    Calm ls ∧ failed verdict = false := by
  obtain ⟨hc, -, hn⟩ := calm_snoc.mp h
  cases verdict with
  | ok => exact ⟨hc, rfl⟩
  | error message => exact absurd rfl (hn message)

/-- An input that changes nothing the viewer has in the pipeline. -/
theorem Holds.extend (h : Holds b o ls phase) : Holds b o (ls ++ [(i, [])]) phase := by
  have hc : Calm (ls ++ [(i, [])]) → Calm ls := fun hc => (calm_snoc.mp hc).1
  cases phase with
  | locking | checking => simpa [Holds] using h
  | attaching ops => simpa [Holds] using h
  | detaching message ops =>
    have h' := h.weaken hc
    simpa [Holds] using h'
  | returned result pending =>
    exact h.imp_right fun h => ⟨h.tidy, by simpa using h.exact, fun hn => h.clean (hc hn), h.due⟩

theorem left_empty (hc : changes ls = []) : Left b .empty ls none := by
  have h := @attached_empty b
  exact ⟨h.tidy, hc ▸ h.exact, fun _ => ⟨rfl, rfl⟩, by simp⟩

theorem step_holds (hs : s.Step (i, cs) t)
    (h : Holds s.branch (s.graph.own s.branch.id) ls s.phase) : t.branch = s.branch ∧
      Holds t.branch (t.graph.own t.branch.id) (ls ++ [(i, cs)]) t.phase ∧
      ((∀ graph, i ≠ .elsewhere graph) →
        t.graph.rest s.branch.id = s.graph.rest s.branch.id) := by
  have hext := @Holds.extend ls i _ _ _ h
  cases hs.takes with
  | locked hp =>
    rw [hp] at hext
    exact ⟨rfl, hext, fun _ => rfl⟩
  | refused hp =>
    have hfresh : s.graph.own s.branch.id = .empty ∧ changes (ls ++ [(i, [])]) = [] := by
      obtain hp | hp := hp <;> rw [hp] at hext <;> exact hext
    refine ⟨rfl, .inr ?_, fun _ => rfl⟩
    rw [hfresh.1]
    exact left_empty hfresh.2
  | checked hp =>
    rw [hp] at hext
    refine ⟨rfl, ⟨?_, Branch.attach_allows⟩, fun _ => rfl⟩
    rw [hext.1, hext.2]
    exact attached_empty
  | attached hp ha =>
    rw [hp] at h
    obtain ⟨hatt, hall, hrest⟩ := ha.attached h.2 h.1
    exact ⟨rfl, ⟨by simpa using hatt, hall⟩, fun _ => hrest⟩
  | broken hp =>
    rw [hp] at hext
    exact ⟨rfl, hext.1.detaching, fun _ => rfl⟩
  | complete hp => exact ⟨rfl, .inl ⟨rfl, rfl⟩, fun _ => rfl⟩
  | detached hp hd =>
    rw [hp] at h
    obtain ⟨hdet, hrest⟩ := hd.detaching h
    have hcalm := hdet.weaken (@calm_detach ls cs _)
    exact ⟨rfl, by simpa [Holds] using hcalm, fun _ => hrest⟩
  | stuck hp hf =>
    rw [hp] at hext
    refine ⟨rfl, .inr ⟨hext.tidy, hext.exact, fun hc => ?_, by simp⟩, fun _ => rfl⟩
    exact absurd ((calm_detach hc).2.symm.trans hf) (by simp)
  | cleaned hp =>
    rw [hp] at hext
    exact ⟨rfl, .inr ⟨hext.tidy, hext.exact, fun hc => ⟨hext.finished hc rfl, rfl⟩, by simp⟩,
      fun _ => rfl⟩
  | waited hp =>
    rw [hp] at hext
    refine ⟨rfl, .inr ?_, fun _ => rfl⟩
    rw [hext.1]
    exact left_empty hext.2
  | cut hp ha =>
    rw [hp] at hext
    refine ⟨rfl, .inr ⟨hext.tidy, hext.exact, fun hc => ?_, ?_⟩, fun _ => rfl⟩
    · exact absurd rfl (calm_snoc.mp hc).2.1
    · rintro op ⟨⟩
      exact hext.stage.due ha
  | late hp hd =>
    rw [hp] at h
    obtain ⟨-, hn⟩ | hl := h
    · cases hn
    have hdue := hl.due _ rfl
    obtain ⟨htidy, hexact⟩ := hd.accounted hdue hl.tidy hl.exact
    refine ⟨rfl, .inr ⟨htidy, by simpa using hexact, fun hc => ?_, by simp⟩, fun _ =>
      (hd.call hdue).2.1⟩
    cases (hl.clean (calm_snoc.mp hc).1).2
  | elsewhere he =>
    refine ⟨rfl, ?_, fun hn => absurd rfl (hn _)⟩
    rw [he]
    exact hext

theorem run_holds {id : String} {decodeVideo : Bool} {g : Graph}
    (h : Run State.Step (.start id decodeVideo g) ls s) (hg : g.own id = .empty) :
    s.branch = ⟨id⟩ ∧ Holds ⟨id⟩ (s.graph.own id) ls s.phase ∧
      (Undisturbed ls → s.graph.rest id = g.rest id) := by
  have hstart : Holds ⟨id⟩ (g.own id) [] .locking := ⟨hg, rfl⟩
  refine h.history (P := fun ls s => s.branch = ⟨id⟩ ∧ Holds ⟨id⟩ (s.graph.own id) ls s.phase ∧
    (Undisturbed ls → s.graph.rest id = g.rest id)) ⟨rfl, hstart, fun _ => rfl⟩ ?_
  rintro ls u v ⟨i, cs⟩ ⟨hb, hh, hr⟩ hs
  have hh' : Holds u.branch (u.graph.own u.branch.id) ls u.phase := by rwa [hb]
  obtain ⟨hvb, hvh, hvr⟩ := step_holds hs hh'
  rw [hvb, hb] at hvh
  rw [hb] at hvr
  refine ⟨hvb.trans hb, hvh, fun hu => ?_⟩
  have hlast := hu (i, cs) (by simp)
  exact (hvr hlast).trans (hr fun l hl => hu l (by simp [hl]))

end Runs

section Replies

variable {c c' : Coordinator} {id : ConnectionId} {reply : OfferReply} {env : Env}
  {os : List Effect} {err : SignalError} {b : Bool}

theorem createConnection_fails (hl : c.connections.lookup id = none)
    (h : c.createConnection id reply env = some (c', os))
    (ho : .send reply.channel (.error err) b ∈ os) :
    (env.branch id).result ≠ some (.ok ()) ∧ c' = c := by
  simp only [Coordinator.createConnection, Coordinator.containsKey, hl, Option.isSome_none,
    Bool.false_eq_true, if_false] at h
  split at h
  next hr =>
    obtain ⟨deadline, -, h⟩ := Option.bind_eq_some_iff.mp h
    simp only [Coordinator.insert, hl, Option.some.injEq, Prod.mk.injEq] at h
    obtain ⟨rfl, rfl⟩ := h
    simp at ho
  next hr =>
    cases h
    exact ⟨by simp [hr], rfl⟩
  next hr =>
    cases h
    exact ⟨by simp [hr], rfl⟩

/-- When a creation has failed its id is in no map, and what is in the pipeline
for it is exactly what the attach has put there and the cleanup has not taken out
again: nothing, unless the cleanup was cut off or one of its calls failed. The
rest of the pipeline is as it was. -/
theorem failed_create_leaves {decodeVideo : Bool} {g : Graph} {ls : List (Input × List Change)}
    {s : State} {pending : Option DetachOp} (hg : g.own id = .empty)
    (h : Run State.Step (.start id decodeVideo g) ls s)
    (hp : s.phase = .returned (env.branch id).result pending)
    (hl : c.connections.lookup id = none) (hc : c.createConnection id reply env = some (c', os))
    (ho : .send reply.channel (.error err) b ∈ os) :
    c'.connections.lookup id = none ∧ (Calm ls → s.graph.own id = .empty) ∧
      (∀ name, Owns id name →
        (name ∈ s.graph.names ↔ .added name ∈ changes ls ∧ .removed name ∉ changes ls)) ∧
      (∀ tee queue, Owns id queue → ((∃ p ∈ s.graph.teePads, p.tee = tee ∧ p.queue = queue) ↔
        .requested tee queue ∈ changes ls ∧ .released tee queue ∉ changes ls)) ∧
      (Undisturbed ls → s.graph.rest id = g.rest id) := by
  obtain ⟨hfail, rfl⟩ := createConnection_fails hl hc ho
  obtain ⟨-, hh, hrest⟩ := run_holds h hg
  rw [hp] at hh
  obtain ⟨he, -⟩ | hleft := hh
  · exact absurd he hfail
  refine ⟨hl, fun hcalm => (hleft.clean hcalm).1, fun name hname => ?_, fun tee queue hq => ?_,
    hrest⟩
  · rw [← hleft.exact.names, Graph.mem_own_names, and_iff_left hname]
  · rw [← hleft.exact.pads]
    constructor
    · rintro ⟨p, hp, ht, rfl⟩
      exact ⟨p, Graph.mem_own_teePads.mpr ⟨hp, hq⟩, ht, rfl⟩
    · rintro ⟨p, hp, ht, hpq⟩
      exact ⟨p, (Graph.mem_own_teePads.mp hp).1, ht, hpq⟩

end Replies

def received : Graph where
  elements := [⟨"tsdemux", demux⟩, ⟨"tee", outputTeeVideo⟩]
  links := []
  teePads := []
  demuxPads := ["sink", "video_0"]
  unique := by decide

def attempt : List Input :=
  [.lock .pipeline, .check] ++ List.replicate 13 (.attach (.ok ())) ++
    [.attach (.error "Failed to sync state")]

def seen (result : Option (Except PipelineError Unit)) : Env :=
  { Env.calm 0 [] with branch := fun _ => ⟨result, 0⟩ }

set_option maxRecDepth 4000 in
/-- The cleanup of that attach, when it runs to its end. -/
theorem failed_create_leaves_nothing :
    ∃ ls s result, Run State.Step (.start "a" false received) ls s ∧
      s.phase = .returned result none ∧ s.graph.own "a" = .empty ∧
      s.graph.rest "a" = received.rest "a" := by
  let result : Option (Except PipelineError Unit) := some (.error (.fatal "Failed to sync state"))
  obtain ⟨ls, s, h, hin, hp⟩ := replayed State.next State.Step (fun _ _ _ _ h => h)
    (.start "a" false received)
    (attempt ++ List.replicate 7 (.detach (.ok ())) ++ [.finish]) (.returned result none)
    (fun r => r.1.phase) (by decide)
  have hcalm : Calm ls := by
    intro l hl
    have hm : l.1 ∈ ls.map Prod.fst := List.mem_map_of_mem hl
    rw [hin] at hm
    constructor
    · rintro he
      simp [he, attempt] at hm
    · intro message he
      simp [he, attempt] at hm
  have hu : Undisturbed ls := by
    intro l hl graph he
    have hm : l.1 ∈ ls.map Prod.fst := List.mem_map_of_mem hl
    rw [hin] at hm
    simp [he, attempt] at hm
  have hleaves := @failed_create_leaves (.new {}) (.new {}) "a" ⟨0⟩ (seen result)
    [.addBranch "a" ⟨result, 0⟩, .send 0 (.error (.pipeline "Failed to sync state")) true]
    (.pipeline "Failed to sync state") true false received ls s none (by decide) h hp rfl rfl
    (by simp)
  exact ⟨ls, s, result, h, hp, hleaves.2.1 hcalm, hleaves.2.2.2.2 hu⟩

set_option maxRecDepth 4000 in
/-- Cut off while it waits for the pad of the tee, the cleanup leaves everything. -/
theorem cut_off_create_leaves : ¬ ∀ (id : ConnectionId) (decodeVideo : Bool) (g : Graph)
    (ls : List (Input × List Change)) (s : State) (pending : Option DetachOp) (c c' : Coordinator)
    (reply : OfferReply) (env : Env) (os : List Effect) (err : SignalError) (b : Bool),
    g.own id = .empty → Run State.Step (.start id decodeVideo g) ls s →
    s.phase = .returned (env.branch id).result pending → c.connections.lookup id = none →
    c.createConnection id reply env = some (c', os) → .send reply.channel (.error err) b ∈ os →
    s.graph.own id = .empty := by
  intro hall
  obtain ⟨ls, s, h, -, hv⟩ := replayed State.next State.Step (fun _ _ _ _ h => h)
    (.start "a" false received) (attempt ++ [.detach (.ok ()), .timeout])
    (.returned none (some (.pad ⟨outputTeeVideo, "video-queue-a", true⟩)),
      ["whip-sink-a", "video-queue-a"], [⟨outputTeeVideo, "video-queue-a", true⟩])
    (fun r => (r.1.phase, (r.1.graph.own "a").names, r.1.graph.teePads)) (by decide)
  simp only [Prod.mk.injEq] at hv
  have hempty := hall "a" false received ls s _ (.new {}) (.new {}) ⟨0⟩ (seen none)
    [.addBranch "a" ⟨none, 0⟩,
      .send 0 (.error (.pipelineBusy "branch attach/cleanup timed out")) true]
    (.pipelineBusy "branch attach/cleanup timed out") true (by decide) h hv.1 rfl rfl (by simp)
  rw [hempty] at hv
  exact absurd hv.2.1 (by decide)

end SrtWhep.Stream.Creation
