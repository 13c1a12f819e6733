import SrtWhep.Stream.Attachment
import SrtWhep.Stream.Callbacks

namespace SrtWhep.Stream.Plane

open Library.Runs Relation

inductive Removal
  | locking
  | detaching (ops : List DetachOp)
  | returned (result : Option (Except PipelineError Unit)) (pending : Option DetachOp)
deriving DecidableEq

inductive RemovalInput
  | lock (outcome : Creation.Lock)
  | detach (verdict : Except String Unit)
  | finish
  | timeout
deriving DecidableEq

def Removal.next (b : Branch) (g : Graph) : Removal → RemovalInput → Option (Graph × Removal)
  | .locking, .lock .pipeline => some (g, .detaching b.detach)
  | .locking, .lock .noPipeline =>
    some (g, .returned (some (.error (.transient "Pipeline is not initialized"))) none)
  | .locking, .lock (.timedOut message) =>
    some (g, .returned (some (.error (.transient message))) none)
  | .locking, .timeout => some (g, .returned none none)
  | .detaching (op :: ops), .detach verdict =>
    (op.run g ops verdict).map fun
      | .ok (g', _, ops') => (g', .detaching ops')
      | .error message => (g, .returned (some (.error (.fatal message))) none)
  | .detaching [], .finish => some (g, .returned (some (.ok ())) none)
  | .detaching (op :: _), .timeout =>
    if op.awaits then some (g, .returned none (some op)) else none
  | _, _ => none

inductive Removal.Takes (b : Branch) (g : Graph) :
    Removal → RemovalInput → Graph → Removal → Prop
  | locked : Takes b g .locking (.lock .pipeline) g (.detaching b.detach)
  | refused {i result} : result ≠ some (.ok ()) → Takes b g .locking i g (.returned result none)
  | detached {op ops verdict g' cs ops'} : Detaches g ops op (failed verdict) g' cs ops' →
      Takes b g (.detaching (op :: ops)) (.detach verdict) g' (.detaching ops')
  | stuck {ops verdict message} : failed verdict = true →
      Takes b g (.detaching ops) (.detach verdict) g
        (.returned (some (.error (.fatal message))) none)
  | finished : Takes b g (.detaching []) .finish g (.returned (some (.ok ())) none)
  | cut {op ops} : op.awaits = true →
      Takes b g (.detaching (op :: ops)) .timeout g (.returned none (some op))

theorem Removal.next_takes {b : Branch} {g g' : Graph} {phase phase' : Removal}
    {i : RemovalInput} (h : phase.next b g i = some (g', phase')) :
    Removal.Takes b g phase i g' phase' := by
  unfold Removal.next at h
  split at h
  · cases h
    exact .locked
  · cases h
    exact .refused (by simp)
  · cases h
    exact .refused (by simp)
  · cases h
    exact .refused (by simp)
  next op ops verdict =>
    obtain ⟨outcome, hr, he⟩ := Option.map_eq_some_iff.mp h
    cases outcome with
    | ok r =>
      cases he
      exact .detached (DetachOp.run_detaches hr)
    | error message =>
      cases he
      exact .stuck (DetachOp.run_error hr)
  · cases h
    exact .finished
  next op ops =>
    obtain ⟨ha, h⟩ := Option.ite_none_right_eq_some.mp h
    cases h
    exact .cut ha
  · cases h

inductive Job
  | add (phase : Creation.Phase) (reading : Readiness.Reading)
  | remove (phase : Removal)

inductive Report
  | added (id : ConnectionId) (result : Option (Except PipelineError Unit))
  | removed (id : ConnectionId) (result : Option (Except PipelineError Unit))
deriving DecidableEq

namespace Job

def report (id : ConnectionId) (result : Option (Except PipelineError Unit)) : Job → Report
  | add _ _ => .added id result
  | remove _ => .removed id result

def returned : Job → Option (Option (Except PipelineError Unit) × Option DetachOp)
  | add (.returned result pending) _ | remove (.returned result pending) => some (result, pending)
  | _ => none

end Job

/-- One pipeline and those who work on it: the coordinator, one call at a time, what
its calls have left under way, the demux, and a whip sink that takes itself out. -/
structure State where
  bin : Bin
  decodeVideo : Bool
  job : Option (ConnectionId × Job)
  late : List (ConnectionId × DetachOp)

inductive Input
  | add (id : ConnectionId)
  | remove (id : ConnectionId)
  | adding (id : ConnectionId) (i : Readiness.Input)
  | removing (id : ConnectionId) (i : RemovalInput)
  | late (id : ConnectionId) (op : DetachOp) (verdict : Except String Unit)
  | lost (id : ConnectionId)
  | demux (c : Callback)

/-- What others do is no step of the call itself. -/
def isOwn : Readiness.Input → Bool
  | .other (.elsewhere _) | .other (.late _) => false
  | _ => true

namespace State

def start (numbers : String → Nat) (decodeVideo : Bool) : State :=
  ⟨(Bin.init numbers).1, decodeVideo, none, []⟩

def withGraph (s : State) (g : Graph) : State := { s with bin := ⟨g, s.bin.numbers⟩ }

def goOn (s : State) (id : ConnectionId) (job : Job) : State × List Report :=
  match job.returned with
  | some (result, pending) =>
    ({ s with job := none, late := s.late ++ pending.toList.map (id, ·) }, [job.report id result])
  | none => ({ s with job := some (id, job) }, [])

def call (s : State) (id : ConnectionId) (phase : Creation.Phase) (reading : Readiness.Reading) :
    Readiness.State :=
  ⟨⟨⟨id⟩, s.decodeVideo, s.bin.graph, phase⟩, reading⟩

def next (s : State) : Input → Option (State × List Report)
  | .add id =>
    match s.job with
    | none => some (s.goOn id (.add .locking .nothing))
    | some _ => none
  | .remove id =>
    match s.job with
    | none => some (s.goOn id (.remove .locking))
    | some _ => none
  | .adding id i =>
    match s.job with
    | some (id', .add phase reading) =>
      if id' = id ∧ isOwn i then
        ((s.call id phase reading).next i).map fun (t, _) =>
          (s.withGraph t.call.graph).goOn id (.add t.call.phase t.reading)
      else none
    | _ => none
  | .removing id i =>
    match s.job with
    | some (id', .remove phase) =>
      if id' = id then
        (phase.next ⟨id⟩ s.bin.graph i).map fun (g, phase) =>
          (s.withGraph g).goOn id (.remove phase)
      else none
    | _ => none
  | .late id op verdict =>
    match op.run s.bin.graph [] verdict with
    | some (.ok (g, _, _)) =>
      if (id, op) ∈ s.late then
        some ({ s.withGraph g with late := s.late.erase (id, op) }, [])
      else none
    | _ => none
  | .lost id =>
    -- "If whip sink fails to send offer, it is removed from pipeline automatically."
    let sink := (Branch.mk id).whipSinkName
    if sink ∈ s.bin.graph.names then some (s.withGraph (s.bin.graph.remove sink), []) else none
  | .demux c => some ({ s with bin := s.bin.callback c }, [])

def Step (s : State) (l : Input × List Report) (t : State) : Prop := s.next l.1 = some (t, l.2)

end State

section Histories

def applyReport (up : Finset ConnectionId) : Report → Finset ConnectionId
  | .added id result => if result = some (.ok ()) then insert id up else up
  | .removed id result => if result = some (.ok ()) then up.erase id else up

def reports (ls : List (Input × List Report)) : List Report := ls.flatMap Prod.snd

def up (ls : List (Input × List Report)) : Finset ConnectionId := (reports ls).foldl applyReport ∅

def Input.adds : Input → Option ConnectionId
  | .add id => some id
  | _ => none

def Input.removes : Input → Option ConnectionId
  | .remove id => some id
  | _ => none

/-- Whose teardown is cut off, or finds a call failed. -/
def Input.disturbs : Input → Option ConnectionId
  | .adding id (.other .timeout) | .adding id (.other (.detach (.error _)))
  | .removing id .timeout | .removing id (.detach (.error _)) => some id
  | _ => none

def begun (ls : List (Input × List Report)) : List ConnectionId := ls.filterMap (·.1.adds)

def Ended (ls : List (Input × List Report)) (id : ConnectionId) : Prop :=
  ∃ l ∈ ls, l.1.removes = some id

/-- No teardown of the viewer's has been cut off or had a call fail. -/
def Calm (ls : List (Input × List Report)) (id : ConnectionId) : Prop :=
  ∀ l ∈ ls, l.1.disturbs ≠ some id

def Input.leaves : Input → Option ConnectionId
  | .lost id => some id
  | _ => none

/-- The viewer's whip sink has taken itself out of the pipeline. -/
def Lost (ls : List (Input × List Report)) (id : ConnectionId) : Prop :=
  ∃ l ∈ ls, l.1.leaves = some id

def Input.callback : Input → Option Callback
  | .demux c => some c
  | _ => none

def callbacks (ls : List (Input × List Report)) : List Callback := ls.filterMap (·.1.callback)

end Histories

end SrtWhep.Stream.Plane
