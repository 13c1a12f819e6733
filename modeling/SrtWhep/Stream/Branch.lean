import SrtWhep.Stream.Graph

namespace SrtWhep.Stream

/-- The calls `attach` makes on the pipeline, one at a time. Only `scan` looks at
the pads of the demux: it goes on to link that kind of media if there is one. -/
inductive AttachOp
  | find (name : String)
  | make (e : Element)
  | add (e : Element)
  | scan (m : Media)
  | link (source sink : String)
  | sync (name : String)
deriving DecidableEq, Repr

/-- What `detach` does: `branch` and `present` look an element up by its name, and
`pad` and `element` are the calls that it awaits. -/
inductive DetachOp
  | branch (queue : String)
  | pad (p : TeePad)
  | element (name : String)
  | present (name : String)
deriving DecidableEq, Repr

namespace DetachOp

def target : DetachOp → String
  | branch queue => queue
  | pad p => p.queue
  | element name => name
  | present name => name

def awaits : DetachOp → Bool
  | pad _ | element _ => true
  | branch _ | present _ => false

end DetachOp

structure Branch where
  id : String

namespace Branch

variable (b : Branch)

def whipSinkName : String := Stream.whipSinkName b.id
def videoQueueName : String := Stream.videoQueueName b.id
def audioQueueName : String := Stream.audioQueueName b.id
def videoDecoderName : String := Stream.videoDecoderName b.id

def whipSink : Element := ⟨"whipclientsink", b.whipSinkName⟩
def videoQueue : Element := ⟨"queue", b.videoQueueName⟩
def audioQueue : Element := ⟨"queue", b.audioQueueName⟩
def videoDecoder : Element := ⟨"avdec_h264", b.videoDecoderName⟩

def elements : List Element := [b.whipSink, b.videoQueue, b.videoDecoder, b.audioQueue]

/-- `gst::Element::link_many` links its elements pairwise, and stops at the first
pair that does not link. -/
def linkMany : List String → List AttachOp
  | source :: sink :: names => .link source sink :: linkMany (sink :: names)
  | _ => []

def attachMedia (decodeVideo : Bool) : Media → List AttachOp
  | .video =>
    [.find outputTeeVideo, .make b.videoQueue, .add b.videoQueue] ++
      if decodeVideo then
        [.make b.videoDecoder, .add b.videoDecoder] ++
          linkMany [outputTeeVideo, b.videoQueueName, b.videoDecoderName, b.whipSinkName] ++
          [outputTeeVideo, b.videoQueueName, b.videoDecoderName].map .sync
      else
        linkMany [outputTeeVideo, b.videoQueueName, b.whipSinkName] ++
          [outputTeeVideo, b.videoQueueName].map .sync
  | .audio =>
    [.find outputTeeAudio, .make b.audioQueue, .add b.audioQueue] ++
      linkMany [outputTeeAudio, b.audioQueueName, b.whipSinkName] ++
      [outputTeeAudio, b.audioQueueName].map .sync

def attach : List AttachOp :=
  [.find demux, .make b.whipSink, .add b.whipSink, .scan .video, .scan .audio,
    .sync b.whipSinkName, .sync demux]

def detach : List DetachOp :=
  [.branch b.videoQueueName, .branch b.audioQueueName, .present b.videoDecoderName,
    .present b.whipSinkName]

end Branch

inductive Change
  | added (name : String)
  | requested (tee queue : String)
  | released (tee queue : String)
  | removed (name : String)
deriving DecidableEq, Repr

/-- How an operation comes out: with the error it returns, or with the graph it
leaves, what it changed in it, and the operations still to do. -/
abbrev Outcome (Op : Type) := Except String (Graph × List Change × List Op)

def Graph.requested (g g' : Graph) : List Change :=
  (g'.teePads.drop g.teePads.length).map fun p => .requested p.tee p.queue

/-- An operation of `attach` before `ops`, when GStreamer does what it asks for or
fails; `none` where it cannot come out like this. -/
def AttachOp.run (b : Branch) (decodeVideo : Bool) (g : Graph) (ops : List AttachOp) :
    AttachOp → Except String Unit → Option (Outcome AttachOp)
  | .find name, .ok () =>
    if (g.byName name).isSome then some (.ok (g, [], ops))
    else some (.error s!"Failed to find element: {name}")
  | .find _, .error _ => none
  | .make _, verdict => some (verdict.map fun _ => (g, [], ops))
  | .add e, .ok () => (g.add e).map fun g' => .ok (g', [.added e.name], ops)
  | .scan m, .ok () =>
    some (.ok (g, [], if g.exposes m then b.attachMedia decodeVideo m ++ ops else ops))
  | .scan _, .error _ => none
  | .link source sink, .ok () =>
    (g.link source sink).map fun g' => .ok (g', g.requested g', ops)
  | .sync _, verdict => some (verdict.map fun _ => (g, [], ops))
  | .add _, .error message | .link _ _, .error message => some (.error message)

/-- An operation of `detach`. A call that fails while it is awaited is logged only. -/
def DetachOp.run (g : Graph) (ops : List DetachOp) :
    DetachOp → Except String Unit → Option (Outcome DetachOp)
  | .branch queue, verdict =>
    match g.byName queue, verdict with
    | none, .ok () => some (.ok (g, [], ops))
    | none, .error _ => none
    | some _, verdict =>
      let calls := (g.teePad queue).toList.map DetachOp.pad ++ [.element queue]
      some (verdict.map fun _ => (g, [], calls ++ ops))
  | .pad p, .ok () => some (.ok (g.removePad p, [.released p.tee p.queue], ops))
  | .element name, .ok () => some (.ok (g.remove name, [.removed name], ops))
  | .pad _, .error _ | .element _, .error _ => some (.ok (g, [], ops))
  | .present name, .ok () =>
    some (.ok (g, [], if (g.byName name).isSome then .element name :: ops else ops))
  | .present _, .error _ => none

inductive Attaches (b : Branch) (decodeVideo : Bool) (g : Graph) (ops : List AttachOp) :
    AttachOp → Graph → List Change → List AttachOp → Prop
  | kept {op} : Attaches b decodeVideo g ops op g [] ops
  | scanned {m} : Attaches b decodeVideo g ops (.scan m) g [] (b.attachMedia decodeVideo m ++ ops)
  | added {e g'} : g.add e = some g' →
      Attaches b decodeVideo g ops (.add e) g' [.added e.name] ops
  | linked {source sink g'} : g.link source sink = some g' →
      Attaches b decodeVideo g ops (.link source sink) g' (g.requested g') ops

inductive Detaches (g : Graph) (ops : List DetachOp) :
    DetachOp → Bool → Graph → List Change → List DetachOp → Prop
  | absent {op} : op.awaits = false → op.target ∉ g.names → Detaches g ops op false g [] ops
  | unlinked {op} : op.awaits = false → op.target ∈ g.names →
      (∀ p ∈ g.teePads, p.linked = true → p.queue ≠ op.target) →
      Detaches g ops op false g [] (.element op.target :: ops)
  | linked {queue p} : p ∈ g.teePads → p.queue = queue →
      Detaches g ops (.branch queue) false g [] (.pad p :: .element queue :: ops)
  | present {name} : name ∈ g.names →
      Detaches g ops (.present name) false g [] (.element name :: ops)
  | pad {p} : Detaches g ops (.pad p) false (g.removePad p) [.released p.tee p.queue] ops
  | element {name} : Detaches g ops (.element name) false (g.remove name) [.removed name] ops
  | failed {op} : op.awaits = true → Detaches g ops op true g [] ops

section Operations

variable {b : Branch} {decodeVideo : Bool} {g g' : Graph} {cs : List Change}
  {verdict : Except String Unit}

def AttachOp.Done (b : Branch) (decodeVideo : Bool) (g : Graph) (ops : List AttachOp) :
    AttachOp → Graph → List Change → List AttachOp → Prop
  | .add e, g', cs, ops' => g.add e = some g' ∧ cs = [.added e.name] ∧ ops' = ops
  | .link source sink, g', cs, ops' =>
    g.link source sink = some g' ∧ cs = g.requested g' ∧ ops' = ops
  | .scan m, g', cs, ops' => g' = g ∧ cs = [] ∧
    ops' = if g.exposes m then b.attachMedia decodeVideo m ++ ops else ops
  | .find _, g', cs, ops' | .make _, g', cs, ops' | .sync _, g', cs, ops' =>
    g' = g ∧ cs = [] ∧ ops' = ops

theorem AttachOp.run_done {op : AttachOp} {ops ops' : List AttachOp}
    (h : op.run b decodeVideo g ops verdict = some (.ok (g', cs, ops'))) :
    op.Done b decodeVideo g ops g' cs ops' := by
  cases op with
  | find name =>
    cases verdict with
    | error => cases h
    | ok =>
      simp only [run] at h
      split at h
      · cases h
        exact ⟨rfl, rfl, rfl⟩
      · cases h
  | make | sync | scan =>
    cases verdict with
    | error => cases h
    | ok =>
      cases h
      exact ⟨rfl, rfl, rfl⟩
  | add | link =>
    cases verdict with
    | error => cases h
    | ok =>
      obtain ⟨g'', hg, he⟩ := Option.map_eq_some_iff.mp h
      cases he
      exact ⟨hg, rfl, rfl⟩

theorem AttachOp.run_attaches {op : AttachOp} {ops ops' : List AttachOp}
    (h : op.run b decodeVideo g ops verdict = some (.ok (g', cs, ops'))) :
    Attaches b decodeVideo g ops op g' cs ops' := by
  have hd := run_done h
  cases op with
  | add e =>
    obtain ⟨ha, rfl, rfl⟩ := hd
    exact .added ha
  | link source sink =>
    obtain ⟨hl, rfl, rfl⟩ := hd
    exact .linked hl
  | scan m =>
    obtain ⟨rfl, rfl, rfl⟩ := hd
    split
    · exact .scanned
    · exact .kept
  | find | make | sync =>
    obtain ⟨rfl, rfl, rfl⟩ := hd
    exact .kept

def failed (verdict : Except String Unit) : Bool := verdict.toBool = false

theorem DetachOp.run_detaches {op : DetachOp} {ops ops' : List DetachOp}
    (h : op.run g ops verdict = some (.ok (g', cs, ops'))) :
    Detaches g ops op (failed verdict) g' cs ops' := by
  cases op with
  | branch queue =>
    cases hq : g.byName queue with
    | none =>
      cases verdict with
      | error => simp [run, hq] at h
      | ok =>
        simp only [run, hq, Option.some.injEq, Except.ok.injEq, Prod.mk.injEq] at h
        obtain ⟨rfl, rfl, rfl⟩ := h
        exact .absent rfl (Graph.byName_eq_none.mp hq)
    | some e =>
      have hin : queue ∈ g.names := Graph.byName_isSome.mp (by simp [hq])
      cases verdict with
      | error => simp [run, hq, Except.map] at h
      | ok =>
        simp only [run, hq, Except.map, Option.some.injEq, Except.ok.injEq, Prod.mk.injEq] at h
        obtain ⟨rfl, rfl, rfl⟩ := h
        cases hp : g.teePad queue with
        | none => exact .unlinked rfl hin (Graph.teePad_eq_none hp)
        | some p =>
          obtain ⟨hm, hq⟩ := Graph.teePad_eq_some hp
          exact .linked hm hq
  | pad p =>
    cases verdict with
    | error =>
      cases h
      exact .failed rfl
    | ok =>
      cases h
      exact .pad
  | element name =>
    cases verdict with
    | error =>
      cases h
      exact .failed rfl
    | ok =>
      cases h
      exact .element
  | present name =>
    cases verdict with
    | error => cases h
    | ok =>
      cases h
      split
      next hp => exact .present (Graph.byName_isSome.mp hp)
      next hp => exact .absent rfl (mt Graph.byName_isSome.mpr hp)

theorem DetachOp.run_error {op : DetachOp} {ops : List DetachOp} {message : String}
    (h : op.run g ops verdict = some (.error message)) : failed verdict = true := by
  cases verdict with
  | error => rfl
  | ok =>
    cases op with
    | branch queue =>
      simp only [run] at h
      split at h <;> cases h
    | _ => cases h

end Operations

end SrtWhep.Stream
