import Mathlib.Data.Set.Defs
import SrtWhep.Stream.Leftovers

namespace SrtWhep.Stream

namespace Branch

/-- The pipeline and the operations still to do when some calls of `attach` have
succeeded; `none` where they cannot. -/
def attachCalls (b : Branch) (decodeVideo : Bool) :
    Nat → Graph → List AttachOp → Option (Graph × List AttachOp)
  | 0, g, ops => some (g, ops)
  | _ + 1, _, [] => none
  | n + 1, g, op :: ops =>
    match op.run b decodeVideo g ops (.ok ()) with
    | some (.ok (g', _, ops')) => b.attachCalls decodeVideo n g' ops'
    | _ => none

end Branch

namespace DetachOp

def weight : DetachOp → Nat
  | branch _ => 3
  | present _ => 2
  | pad _ | element _ => 1

def weights (ops : List DetachOp) : Nat := (ops.map weight).sum

section Calls

variable {g g' : Graph} {op : DetachOp} {ops ops' : List DetachOp} {cs : List Change}

theorem run_weight (h : op.run g ops (.ok ()) = some (.ok (g', cs, ops'))) :
    weights ops' < op.weight + weights ops := by
  cases run_detaches h with
  | absent => cases op <;> simp [weight]
  | unlinked ha => cases op <;> simp_all [weights, weight, awaits]
  | linked => simp [weights, weight]; omega
  | present => simp [weights, weight]
  | pad => simp [weight]
  | element => simp [weight]

theorem run_succeeds (op : DetachOp) (g : Graph) (ops : List DetachOp) :
    ∃ g' cs ops', op.run g ops (.ok ()) = some (.ok (g', cs, ops')) := by
  cases op with
  | branch queue =>
    cases hq : g.byName queue with
    | none => exact ⟨g, [], ops, by simp [run, hq]⟩
    | some e =>
      exact ⟨g, [], (g.teePad queue).toList.map pad ++ [.element queue] ++ ops, by
        simp [run, hq, Except.map]⟩
  | _ => exact ⟨_, _, _, rfl⟩

end Calls

end DetachOp

def detachCalls (g : Graph) : List DetachOp → Option (Except String Graph)
  | [] => some (.ok g)
  | op :: ops =>
    match _ : op.run g ops (.ok ()) with
    | some (.ok (g', _, ops')) => detachCalls g' ops'
    | some (.error message) => some (.error message)
    | none => none
termination_by ops => DetachOp.weights ops
decreasing_by exact DetachOp.run_weight ‹_›

structure Serving (ids : Set ConnectionId) (g : Graph) : Prop where
  elements : ∀ e ∈ g.elements, (∃ spec number, e = ⟨spec.factory, spec.nameWith number⟩ ∧
    (spec ∈ initElements ∨ ∃ mediaType specs, egressElements mediaType = some specs ∧
      spec ∈ specs)) ∨ ∃ id ∈ ids, e ∈ (Branch.mk id).elements
  links : ∀ l ∈ g.links, l.1 ∈ g.names ∧ l.2 ∈ g.names
  teePads : ∀ p ∈ g.teePads, p.queue ∈ g.names

section Undoing

variable {ids : Set ConnectionId} {b : Branch} {decodeVideo : Bool} {g g' : Graph}
  {cs : List Change} {id name : String}

theorem Serving.apart (h : Serving ids g) (hid : id ∉ ids) (hn : name ∈ g.names) :
    ¬ Owns id name := by
  intro ho
  obtain ⟨e, he, rfl⟩ := Graph.mem_names.mp hn
  obtain ⟨spec, number, rfl, hcore⟩ | ⟨id', hid', hb⟩ := h.elements e he
  · have hnone : branchIdFromName (spec.nameWith number) = none := by
      obtain hi | ⟨mediaType, specs, hm, hs⟩ := hcore
      · exact (initElements_core spec hi).nameWith number
      · exact (egressElements_core hm spec hs).nameWith number
    cases hnone.symm.trans ho
  · have hown : Owns id' e.name := Branch.owns_elements hb
    obtain rfl := Option.some.inj (hown.symm.trans ho)
    exact hid hid'

theorem Serving.fresh (h : Serving ids g) (hid : id ∉ ids) : g.own id = .empty := by
  ext1
  · refine List.filter_eq_nil_iff.mpr fun e he => ?_
    simpa using h.apart hid (Graph.mem_names.mpr ⟨e, he, rfl⟩)
  · refine List.filter_eq_nil_iff.mpr fun l hl => ?_
    obtain ⟨h₁, h₂⟩ := h.links l hl
    simpa using ⟨h.apart hid h₁, h.apart hid h₂⟩
  · refine List.filter_eq_nil_iff.mpr fun p hp => ?_
    simpa using h.apart hid (h.teePads p hp)
  · rfl

theorem Graph.rest_eq_self (h : g.own id = .empty) : g.rest id = g := by
  have hnone : ∀ {A : Type} {l : List A} {q : A → Prop} [DecidablePred q],
      l.filter (fun a => q a) = [] → l.filter (fun a => ¬ q a) = l := by
    intro A l q _ hl
    refine List.filter_eq_self.mpr fun a ha => ?_
    simpa using List.filter_eq_nil_iff.mp hl a ha
  ext1
  · exact hnone (congrArg Graph.elements h)
  · exact hnone (congrArg Graph.links h)
  · exact hnone (congrArg Graph.teePads h)
  · rfl

/-- However many calls of `attach` have succeeded, all they have made of the
pipeline is the viewer's. -/
theorem attachCalls_attached {n : Nat} {ops ops' : List AttachOp} (hall : ∀ op ∈ ops, b.Allows op)
    (ha : Attached b cs (g.own b.id))
    (h : b.attachCalls decodeVideo n g ops = some (g', ops')) :
    ∃ cs', Attached b cs' (g'.own b.id) ∧ g'.rest b.id = g.rest b.id := by
  induction n generalizing g ops cs with
  | zero =>
    cases h
    exact ⟨cs, ha, rfl⟩
  | succ n ih =>
    cases ops with
    | nil => cases h
    | cons op ops =>
      simp only [Branch.attachCalls] at h
      split at h
      next g₁ cs₁ ops₁ hr =>
        obtain ⟨ha₁, hall₁, hrest⟩ := (AttachOp.run_attaches hr).attached hall ha
        obtain ⟨cs', ha', hrest'⟩ := ih hall₁ ha₁ h
        exact ⟨cs', ha', hrest'.trans hrest⟩
      next => cases h

theorem detachCalls_finishes {ops : List DetachOp} (h : Detaching b True cs (g.own b.id) ops) :
    ∃ g', detachCalls g ops = some (.ok g') ∧ g'.own b.id = .empty ∧
      g'.rest b.id = g.rest b.id := by
  induction hw : DetachOp.weights ops using Nat.strongRecOn generalizing g cs ops with
  | ind w ih =>
    cases ops with
    | nil =>
      rw [detachCalls]
      exact ⟨g, rfl, h.finished trivial rfl, rfl⟩
    | cons op ops =>
      obtain ⟨g₁, cs₁, ops₁, hr⟩ := op.run_succeeds g ops
      obtain ⟨hd, hrest⟩ := (DetachOp.run_detaches hr).detaching h
      have hlt : DetachOp.weights ops₁ < w := by
        rw [← hw]
        exact DetachOp.run_weight hr
      obtain ⟨g', hc, hown, hrest'⟩ := ih _ hlt (hd.weaken fun _ => ⟨trivial, rfl⟩) rfl
      refine ⟨g', ?_, hown, hrest'.trans hrest⟩
      rw [detachCalls]
      split
      next hr' =>
        cases hr.symm.trans hr'
        exact hc
      next hr' => cases hr.symm.trans hr'
      next hr' => cases hr.symm.trans hr'

/-- Wherever `attach` stops, `detach` leaves the pipeline as it was before. -/
theorem detach_undoes_attach {n : Nat} {ops : List AttachOp} (hg : Serving ids g)
    (hid : b.id ∉ ids) (h : b.attachCalls decodeVideo n g b.attach = some (g', ops)) :
    detachCalls g' b.detach = some (.ok g) := by
  have hfresh := hg.fresh hid
  have hempty : Attached b [] (g.own b.id) := hfresh ▸ attached_empty
  obtain ⟨cs, ha, hrest⟩ := attachCalls_attached Branch.attach_allows hempty h
  obtain ⟨g'', hc, hown, hrest'⟩ := detachCalls_finishes ha.detaching
  rw [hc, ← Graph.rest_eq_self hown, hrest', hrest, Graph.rest_eq_self hfresh]

end Undoing

def watched : Graph where
  elements := [⟨"tsdemux", demux⟩, ⟨"tee", outputTeeVideo⟩, Branch.whipSink ⟨"b"⟩,
    Branch.videoQueue ⟨"b"⟩]
  links := [(videoQueueName "b", whipSinkName "b")]
  teePads := [⟨outputTeeVideo, videoQueueName "b", true⟩]
  demuxPads := ["sink", "video_0"]
  unique := by decide

theorem watched_serving : Serving {"b"} watched where
  elements := by
    simp only [watched, List.mem_cons, List.not_mem_nil, or_false]
    rintro e (rfl | rfl | rfl | rfl)
    · exact .inl ⟨⟨"tsdemux", some demux⟩, 0, rfl, .inl (by decide)⟩
    · exact .inl ⟨⟨"tee", some outputTeeVideo⟩, 0, rfl,
        .inr ⟨"video/x-h264", _, rfl, by decide⟩⟩
    · exact .inr ⟨"b", rfl, by simp [Branch.elements]⟩
    · exact .inr ⟨"b", rfl, by simp [Branch.elements]⟩
  links := by decide
  teePads := by decide

set_option maxRecDepth 4000 in
/-- A second viewer's attach stops halfway along its links. -/
theorem detach_undoes_attach_decoded : ∃ g' ops,
    Branch.attachCalls ⟨"a"⟩ true 11 watched (Branch.attach ⟨"a"⟩) = some (g', ops) ∧
      (g'.own "a").names = ["whip-sink-a", "video-queue-a", "avdec-h264-a"] ∧
      detachCalls g' (Branch.detach ⟨"a"⟩) = some (.ok watched) := by
  have hrun : (Branch.attachCalls ⟨"a"⟩ true 11 watched (Branch.attach ⟨"a"⟩)).map
      (fun r => (r.1.own "a").names) = some ["whip-sink-a", "video-queue-a", "avdec-h264-a"] := by
    decide
  obtain ⟨⟨g', ops⟩, h, hnames⟩ := Option.map_eq_some_iff.mp hrun
  have hid : "a" ∉ ({"b"} : Set ConnectionId) := by
    intro hm
    exact absurd (show "a" = "b" from hm) (by decide)
  exact ⟨g', ops, h, hnames, detach_undoes_attach watched_serving hid h⟩

end SrtWhep.Stream
