import SrtWhep.Stream.Parts
import SrtWhep.Stream.Readiness

namespace SrtWhep.Stream

open Relation

namespace Branch

variable (b : Branch) (decodeVideo : Bool)

def mediaElements : Media → List Element
  | .video => if decodeVideo then [b.videoQueue, b.videoDecoder] else [b.videoQueue]
  | .audio => [b.audioQueue]

def mediaLinks : Media → List (String × String)
  | .video =>
    if decodeVideo then
      [(b.videoQueueName, b.videoDecoderName), (b.videoDecoderName, b.whipSinkName)]
    else [(b.videoQueueName, b.whipSinkName)]
  | .audio => [(b.audioQueueName, b.whipSinkName)]

def mediaQueue : Media → String
  | .video => b.videoQueueName
  | .audio => b.audioQueueName

def mediaPad (m : Media) : TeePad := ⟨m.outputTee, b.mediaQueue m, true⟩

end Branch

/-- The branch of a viewer who gets these kinds of media. -/
structure Complete (b : Branch) (decodeVideo : Bool) (ms : List Media) (o : Graph) : Prop where
  elements : o.elements.Perm (b.whipSink :: ms.flatMap (b.mediaElements decodeVideo))
  links : o.links.Perm (ms.flatMap (b.mediaLinks decodeVideo))
  teePads : o.teePads.Perm (ms.map b.mediaPad)

namespace AttachOp

def added : AttachOp → Option Element
  | .add e => some e
  | _ => none

def joined (b : Branch) : AttachOp → Option (String × String)
  | .link source sink => if Owns b.id source then some (source, sink) else none
  | _ => none

def tapped (b : Branch) : AttachOp → Option TeePad
  | .link source sink => if Owns b.id source then none else some ⟨source, sink, true⟩
  | _ => none

def scanned : AttachOp → Option Media
  | .scan m => some m
  | _ => none

end AttachOp

/-- What is there and what is still to be done make a complete branch, so far as the
pads of the demux have been looked at. -/
structure Progress (b : Branch) (decodeVideo : Bool) (ms : List Media) (ops : List AttachOp)
    (o : Graph) : Prop where
  elements : (o.elements ++ ops.filterMap AttachOp.added).Perm
    (b.whipSink :: ms.flatMap (b.mediaElements decodeVideo))
  links : (o.links ++ ops.filterMap (AttachOp.joined b)).Perm
    (ms.flatMap (b.mediaLinks decodeVideo))
  teePads : (o.teePads ++ ops.filterMap (AttachOp.tapped b)).Perm (ms.map b.mediaPad)
  once : (ms ++ ops.filterMap AttachOp.scanned).Nodup

def Branch.Joins (b : Branch) : AttachOp → Prop
  | .link source _ => Owns b.id source ∨ ∃ m : Media, source = m.outputTee
  | _ => True

def Tees (g : Graph) : Prop :=
  ∀ m : Media, m.outputTee ∈ g.names → ⟨"tee", m.outputTee⟩ ∈ g.elements

section Programs

variable {b : Branch} {decodeVideo : Bool} {m : Media}

theorem attach_joins : ∀ op ∈ b.attach, b.Joins op := by
  simp [Branch.attach, Branch.Joins]

theorem attachMedia_joins : ∀ op ∈ b.attachMedia decodeVideo m, b.Joins op := by
  obtain ⟨-, h₂, h₃, h₄⟩ := @Branch.owns_names b
  have hv : ∃ m : Media, outputTeeVideo = m.outputTee := ⟨.video, rfl⟩
  have ha : ∃ m : Media, outputTeeAudio = m.outputTee := ⟨.audio, rfl⟩
  cases m with
  | video =>
    cases decodeVideo <;>
      simp [Branch.attachMedia, Branch.linkMany, Branch.Joins, h₂, h₄, hv]
  | audio => simp [Branch.attachMedia, Branch.linkMany, Branch.Joins, h₃, ha]

theorem attachMedia_gives :
    (b.attachMedia decodeVideo m).filterMap AttachOp.added = b.mediaElements decodeVideo m ∧
    (b.attachMedia decodeVideo m).filterMap (AttachOp.joined b) = b.mediaLinks decodeVideo m ∧
    (b.attachMedia decodeVideo m).filterMap (AttachOp.tapped b) = [b.mediaPad m] ∧
    (b.attachMedia decodeVideo m).filterMap AttachOp.scanned = [] := by
  obtain ⟨-, h₂, h₃, h₄⟩ := @Branch.owns_names b
  have hv : ¬ Owns b.id outputTeeVideo := Graph.not_owned (by decide)
  have ha : ¬ Owns b.id outputTeeAudio := Graph.not_owned (by decide)
  cases m with
  | video =>
    cases decodeVideo with
    | true =>
      simp [Branch.attachMedia, Branch.linkMany, Branch.mediaElements, Branch.mediaLinks,
        Branch.mediaPad, Branch.mediaQueue, AttachOp.added, AttachOp.joined, AttachOp.tapped,
        AttachOp.scanned, Media.outputTee, List.filterMap_cons, h₂, h₄, hv]
    | false =>
      simp [Branch.attachMedia, Branch.linkMany, Branch.mediaElements, Branch.mediaLinks,
        Branch.mediaPad, Branch.mediaQueue, AttachOp.added, AttachOp.joined, AttachOp.tapped,
        AttachOp.scanned, Media.outputTee, List.filterMap_cons, h₂, hv]
  | audio =>
    simp [Branch.attachMedia, Branch.linkMany, Branch.mediaElements, Branch.mediaLinks,
      Branch.mediaPad, Branch.mediaQueue, AttachOp.added, AttachOp.joined, AttachOp.tapped,
      AttachOp.scanned, Media.outputTee, List.filterMap_cons, h₃, ha]

theorem Progress.start : Progress b decodeVideo [] b.attach .empty where
  elements := by simp [Branch.attach, AttachOp.added, List.filterMap_cons, Graph.empty]
  links := by simp [Branch.attach, AttachOp.joined, Graph.empty]
  teePads := by simp [Branch.attach, AttachOp.tapped, Graph.empty]
  once := by simp [Branch.attach, AttachOp.scanned, List.filterMap_cons]

theorem Progress.complete {ms : List Media} {o : Graph} (h : Progress b decodeVideo ms [] o) :
    Complete b decodeVideo ms o ∧ ms.Nodup := by
  obtain ⟨he, hl, hp, hn⟩ := h
  simp only [List.filterMap_nil, List.append_nil] at he hl hp hn
  exact ⟨⟨he, hl, hp⟩, hn⟩

end Programs

section Steps

variable {b : Branch} {decodeVideo : Bool} {g g' : Graph} {cs cs' : List Change} {op : AttachOp}
  {ops ops' : List AttachOp} {verdict : Except String Unit} {ms : List Media} {source sink : String}

/-- A link that `attach` makes is a pad of an output tee or one of the viewer's own. -/
theorem link_own (hl : g.link source sink = some g') (hs : b.Allows (.link source sink))
    (hj : b.Joins (.link source sink)) (ht : Tees g) (hd : Tidy b (g.own b.id)) :
    (g'.own b.id).elements = (g.own b.id).elements ∧ (g.Split → g'.Split) ∧
      (Owns b.id source ∧ (g'.own b.id).links = (g.own b.id).links ++ [(source, sink)] ∧
          (g'.own b.id).teePads = (g.own b.id).teePads ∨
        ¬ Owns b.id source ∧ (g'.own b.id).links = (g.own b.id).links ∧
          (g'.own b.id).teePads = (g.own b.id).teePads ++ [⟨source, sink, true⟩] ∧
          source ∈ g.core.names) := by
  have ho : Owns b.id sink := hs.1
  obtain ⟨hin, -, he, -, ⟨⟨s, hm, rfl, hf⟩, -, hli, hp⟩ | ⟨hli, hp⟩⟩ := Graph.link_cases hl
  · refine ⟨by simp [Graph.own, he], fun h => by rwa [Graph.Split, hli], .inr ?_⟩
    have hno : ¬ Owns b.id s.name := by
      intro h
      exact Branch.not_tee (hd.elements s (Graph.mem_own_elements.mpr ⟨hm, h⟩)) hf
    obtain ⟨m, htee⟩ := hj.resolve_left hno
    exact ⟨hno, by simp [Graph.own, hli], by simp [Graph.own, hp, ho],
      Graph.mem_core_names.mpr ⟨hin, htee ▸ Bin.outputTee_core m⟩⟩
  · have hown : Owns b.id source := by
      refine hj.resolve_right ?_
      rintro ⟨m, rfl⟩
      have hsame := Graph.link_tee hl (ht m hin)
      rw [hli] at hsame
      simpa using congrArg List.length hsame
    refine ⟨by simp [Graph.own, he], fun h => ?_, .inl ⟨hown, by simp [Graph.own, hli, ho],
      by simp [Graph.own, hp]⟩⟩
    rw [Graph.Split, hli]
    intro l hm
    obtain hm | hm := List.mem_append.mp hm
    · exact h l hm
    · obtain rfl := List.mem_singleton.mp hm
      exact hown.trans ho.symm

theorem promised {A : Type} {l r t : List A} (m : List A) (h : (l ++ r).Perm t) :
    (l ++ (m ++ r)).Perm (t ++ m) := by
  have hswap : (l ++ (m ++ r)).Perm (l ++ r ++ m) := by
    rw [List.append_assoc]
    exact List.perm_append_comm.append_left l
  exact hswap.trans (h.append_right m)

theorem AttachOp.run_split (hr : op.run b decodeVideo g ops verdict = some (.ok (g', cs', ops')))
    (ha : b.Allows op) (hj : b.Joins op) (ht : Tees g) (hd : Tidy b (g.own b.id)) :
    g.Split → g'.Split := by
  have hdone := AttachOp.run_done hr
  cases op with
  | find name | make e | sync name | scan m =>
    obtain ⟨rfl, -, rfl⟩ := hdone
    exact id
  | add e =>
    obtain ⟨hadd, -, rfl⟩ := hdone
    obtain ⟨-, -, hli, -⟩ := Graph.add_eq hadd
    exact fun h => by rwa [Graph.Split, hli]
  | link source sink =>
    obtain ⟨hlink, -, rfl⟩ := hdone
    exact (link_own hlink ha hj ht hd).2.1

/-- Every operation of `attach` that succeeds is one nearer to the branch. -/
theorem Progress.step (h : Progress b decodeVideo ms (op :: ops) (g.own b.id))
    (hr : op.run b decodeVideo g ops verdict = some (.ok (g', cs', ops')))
    (ha : b.Allows op) (hj : b.Joins op) (ht : Tees g) (hd : Tidy b (g.own b.id)) :
    ∃ ms', Progress b decodeVideo ms' ops' (g'.own b.id) ∧
      (∀ p ∈ (g'.own b.id).teePads, p ∈ (g.own b.id).teePads ∨ p.tee ∈ g.core.names) ∧
      ∀ m ∈ ms ++ (op :: ops).filterMap AttachOp.scanned, g.exposes m →
        m ∈ ms' ++ ops'.filterMap AttachOp.scanned := by
  obtain ⟨he, hl, hp, hn⟩ := h
  have hdone := AttachOp.run_done hr
  cases op with
  | find name | make e | sync name =>
    obtain ⟨rfl, -, rfl⟩ := hdone
    exact ⟨ms, ⟨he, hl, hp, hn⟩, fun p hm => .inl hm, fun m hm _ => hm⟩
  | add e =>
    obtain ⟨hadd, -, rfl⟩ := hdone
    obtain ⟨hel, hli, hpads, -⟩ := Graph.add_own hadd (Branch.owns_elements ha)
    refine ⟨ms, ⟨?_, hli ▸ hl, hpads ▸ hp, hn⟩, fun p hm => .inl (hpads ▸ hm), fun m hm _ => hm⟩
    rw [hel]
    simpa [AttachOp.added] using he
  | link source sink =>
    obtain ⟨hlink, -, rfl⟩ := hdone
    obtain ⟨hel, -, ⟨ho, hli, hpads⟩ | ⟨ho, hli, hpads, hin⟩⟩ := link_own hlink ha hj ht hd
    · refine ⟨ms, ⟨hel ▸ he, ?_, ?_, hn⟩, fun p hm => .inl (hpads ▸ hm), fun m hm _ => hm⟩
      · rw [hli]
        simpa [AttachOp.joined, ho] using hl
      · rw [hpads]
        simpa [AttachOp.tapped, ho] using hp
    · refine ⟨ms, ⟨hel ▸ he, ?_, ?_, hn⟩, fun p hm => ?_, fun m hm _ => hm⟩
      · rw [hli]
        simpa [AttachOp.joined, ho] using hl
      · rw [hpads]
        simpa [AttachOp.tapped, ho] using hp
      · rw [hpads] at hm
        obtain hm | hm := List.mem_append.mp hm
        · exact .inl hm
        · exact .inr (List.mem_singleton.mp hm ▸ hin)
  | scan m =>
    obtain ⟨rfl, -, rfl⟩ := hdone
    obtain ⟨h₁, h₂, h₃, h₄⟩ := @attachMedia_gives b decodeVideo m
    by_cases hx : g'.exposes m = true
    · -- The elements, links and pads of this kind of media are promised from here on.
      rw [if_pos hx]
      refine ⟨ms ++ [m], ⟨?_, ?_, ?_, ?_⟩, fun p hm => .inl hm, fun m' hm' _ => ?_⟩
      · have hrest : ((g'.own b.id).elements ++ ops.filterMap AttachOp.added).Perm _ := he
        simpa [h₁] using promised (b.mediaElements decodeVideo m) hrest
      · have hrest : ((g'.own b.id).links ++ ops.filterMap (AttachOp.joined b)).Perm _ := hl
        simpa [h₂] using promised (b.mediaLinks decodeVideo m) hrest
      · have hrest : ((g'.own b.id).teePads ++ ops.filterMap (AttachOp.tapped b)).Perm _ := hp
        simpa [h₃] using promised [b.mediaPad m] hrest
      · simpa [h₄, AttachOp.scanned] using hn
      · simpa [h₄, AttachOp.scanned] using hm'
    · rw [if_neg hx]
      refine ⟨ms, ⟨he, hl, hp, ?_⟩, fun p hm => .inl hm, fun m' hm' hx' => ?_⟩
      · exact hn.sublist ((List.sublist_cons_self ..).append_left ms)
      · have hne : m' ≠ m := by
          rintro rfl
          exact hx hx'
        simpa [AttachOp.scanned, hne] using hm'

end Steps

/-- All that a step does to the pipeline it does to one viewer's own. -/
structure Graph.Touches (id : ConnectionId) (g g' : Graph) : Prop where
  rest : g'.rest id = g.rest id
  split : g.Split → g'.Split

structure Attaching (b : Branch) (decodeVideo : Bool) (ms : List Media) (ops : List AttachOp)
    (g : Graph) : Prop where
  attached : ∃ cs, Attached b cs (g.own b.id)
  progress : Progress b decodeVideo ms ops (g.own b.id)
  allowed : ∀ op ∈ ops, b.Allows op ∧ b.Joins op
  tees : ∀ p ∈ (g.own b.id).teePads, p.tee ∈ g.core.names
  exposed : ∃ m ∈ ms ++ ops.filterMap AttachOp.scanned, g.exposes m

structure Served (b : Branch) (decodeVideo : Bool) (ms : List Media) (g : Graph) : Prop where
  attached : ∃ cs, Attached b cs (g.own b.id)
  complete : Complete b decodeVideo ms (g.own b.id)
  tees : ∀ p ∈ (g.own b.id).teePads, p.tee ∈ g.core.names
  once : ms.Nodup
  nonempty : ms ≠ []

section Branches

variable {b : Branch} {decodeVideo : Bool} {ms : List Media} {g g' : Graph} {m : Media}
  {op : AttachOp} {ops ops' : List AttachOp} {cs cs' : List Change}
  {verdict : Except String Unit}

theorem exposes_of_rest {id : ConnectionId} (h : g'.rest id = g.rest id) :
    g'.exposes m = g.exposes m := by
  have hpads : (g'.rest id).demuxPads = (g.rest id).demuxPads := by rw [h]
  rw [Graph.exposes, Graph.exposes, show g'.demuxPads = g.demuxPads from hpads]

theorem Attaching.start (ho : g.own b.id = .empty) (hx : g.exposes m) :
    Attaching b decodeVideo [] b.attach g := by
  constructor
  case attached => exact ⟨[], ho ▸ attached_empty⟩
  case progress => exact ho ▸ Progress.start
  case allowed => exact fun op hm => ⟨Branch.attach_allows op hm, attach_joins op hm⟩
  case tees => simp [ho, Graph.empty]
  case exposed =>
    refine ⟨m, ?_, hx⟩
    cases m <;> simp [Branch.attach, AttachOp.scanned, List.filterMap_cons]

theorem AttachOp.run_touches (hr : op.run b decodeVideo g ops verdict = some (.ok (g', cs', ops')))
    (hall : ∀ o ∈ op :: ops, b.Allows o ∧ b.Joins o) (ht : Tees g)
    (h : Attached b cs (g.own b.id)) :
    g.Touches b.id g' ∧ (∃ cs', Attached b cs' (g'.own b.id)) ∧
      ∀ o ∈ ops', b.Allows o ∧ b.Joins o := by
  obtain ⟨ha, hj⟩ := hall op (List.mem_cons_self ..)
  obtain ⟨hatt, hall', hrest⟩ :=
    (AttachOp.run_attaches hr).attached (fun o ho => (hall o ho).1) h
  refine ⟨⟨hrest, AttachOp.run_split hr ha hj ht h.tidy⟩, ⟨_, hatt⟩, fun o ho => ⟨hall' o ho, ?_⟩⟩
  obtain ⟨hops, -⟩ | ⟨m, -, -, -, -, hops⟩ := Readiness.run_ops hr
  · exact (hall o (List.mem_cons_of_mem _ (hops ▸ ho))).2
  · rw [hops] at ho
    obtain ho | ho := List.mem_append.mp ho
    · exact attachMedia_joins o ho
    · exact (hall o (List.mem_cons_of_mem _ ho)).2

theorem Attaching.step (h : Attaching b decodeVideo ms (op :: ops) g) (ht : Tees g)
    (hr : op.run b decodeVideo g ops verdict = some (.ok (g', cs', ops'))) :
    g.Touches b.id g' ∧ ∃ ms', Attaching b decodeVideo ms' ops' g' := by
  obtain ⟨⟨cs, hatt⟩, hprog, hall, htees, m, hm, hx⟩ := h
  obtain ⟨ha, hj⟩ := hall op (List.mem_cons_self ..)
  obtain ⟨htouch, hatt', hall'⟩ := AttachOp.run_touches hr hall ht hatt
  obtain ⟨ms', hprog', htees', hscans⟩ := hprog.step hr ha hj ht hatt.tidy
  have hcore := Graph.core_of_rest htouch.rest
  refine ⟨htouch, ms', hatt', hprog', hall', fun p hp => ?_, m, hscans m hm hx, ?_⟩
  · rw [hcore]
    obtain hp | hp := htees' p hp
    · exact htees p hp
    · exact hp
  · rwa [exposes_of_rest htouch.rest]

theorem Attaching.finished (h : Attaching b decodeVideo ms [] g) : Served b decodeVideo ms g := by
  obtain ⟨hatt, hprog, -, htees, m, hm, -⟩ := h
  obtain ⟨hc, hn⟩ := hprog.complete
  refine ⟨hatt, hc, htees, hn, ?_⟩
  rintro rfl
  simp at hm

theorem Complete.reaches (h : Complete b decodeVideo ms (g.own b.id)) (hm : m ∈ ms) :
    ReflTransGen g.Flows m.outputTee b.whipSinkName := by
  have hpad : b.mediaPad m ∈ g.teePads :=
    (Graph.mem_own_teePads.mp (h.teePads.mem_iff.mpr (List.mem_map_of_mem hm))).1
  have hlink : ∀ l ∈ b.mediaLinks decodeVideo m, g.Flows l.1 l.2 := by
    intro l hl
    have hown := h.links.mem_iff.mpr (List.mem_flatMap.mpr ⟨m, hm, hl⟩)
    exact .inl (List.mem_of_mem_filter hown)
  have htap : g.Flows m.outputTee (b.mediaQueue m) := .inr ⟨_, hpad, rfl, rfl, rfl⟩
  cases m with
  | video =>
    cases decodeVideo with
    | true =>
      have h₁ := hlink (b.videoQueueName, b.videoDecoderName) (by simp [Branch.mediaLinks])
      have h₂ := hlink (b.videoDecoderName, b.whipSinkName) (by simp [Branch.mediaLinks])
      exact .head htap (.head h₁ (.single h₂))
    | false =>
      have h₁ := hlink (b.videoQueueName, b.whipSinkName) (by simp [Branch.mediaLinks])
      exact .head htap (.single h₁)
  | audio =>
    have h₁ := hlink (b.audioQueueName, b.whipSinkName) (by simp [Branch.mediaLinks])
    exact .head htap (.single h₁)

theorem Attaching.frame (h : Attaching b decodeVideo ms ops g) (ho : g'.own b.id = g.own b.id)
    (hc : ∀ name ∈ g.core.names, name ∈ g'.core.names) (hx : ∀ m, g.exposes m → g'.exposes m) :
    Attaching b decodeVideo ms ops g' := by
  obtain ⟨hatt, hprog, hall, htees, m, hm, hmx⟩ := h
  exact ⟨ho ▸ hatt, ho ▸ hprog, hall, fun p hp => hc _ (htees p (ho ▸ hp)), m, hm, hx m hmx⟩

theorem Served.frame (h : Served b decodeVideo ms g) (ho : g'.own b.id = g.own b.id)
    (hc : ∀ name ∈ g.core.names, name ∈ g'.core.names) : Served b decodeVideo ms g' := by
  obtain ⟨hatt, hcomp, htees, hn, hne⟩ := h
  exact ⟨ho ▸ hatt, ho ▸ hcomp, fun p hp => hc _ (htees p (ho ▸ hp)), hn, hne⟩

end Branches

section Calls

variable {id : ConnectionId} {g g' : Graph} {op : DetachOp} {ops ops' : List DetachOp}
  {failed : Bool} {cs : List Change}

theorem Graph.Touches.refl (id : ConnectionId) (g : Graph) : g.Touches id g := ⟨rfl, fun h => h⟩

theorem Detaches.touches (h : Detaches g ops op failed g' cs ops') (ho : Owns id op.target) :
    g.Touches id g' ∧ ∀ o ∈ ops', o ∈ ops ∨ Owns id o.target := by
  cases h with
  | absent | failed => exact ⟨.refl id g, fun o hm => .inl hm⟩
  | unlinked | present =>
    refine ⟨.refl id g, fun o hm => ?_⟩
    obtain rfl | hm := List.mem_cons.mp hm
    · exact .inr ho
    · exact .inl hm
  | @linked queue p _ hq =>
    have hp : Owns id p.queue := by
      rw [hq]
      exact ho
    refine ⟨.refl id g, fun o hm => ?_⟩
    obtain rfl | rfl | hm : o = _ ∨ o = _ ∨ o ∈ ops := by simpa using hm
    · exact .inr hp
    · exact .inr ho
    · exact .inl hm
  | pad => exact ⟨⟨(Graph.removePad_own ho).2, fun hs => hs⟩, fun o hm => .inl hm⟩
  | element =>
    exact ⟨⟨(Graph.remove_own ho).2, fun hs l hl => hs l (List.mem_of_mem_filter hl)⟩,
      fun o hm => .inl hm⟩

end Calls

end SrtWhep.Stream
