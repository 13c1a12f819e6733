import Mathlib.Data.Finset.Insert
import SrtWhep.Stream.Elements

namespace SrtWhep.Stream

/-- Who put an element where it is; what a name does not tell. -/
inductive Maker
  | init
  | egress (mediaType : String)
  | attach (id : ConnectionId)
  | inner
deriving DecidableEq, Repr

inductive Object
  | pipeline (number : Nat)
  | element (maker : Maker) (name : String) (parent : Object)
deriving DecidableEq, Repr

namespace Object

def name : Object → String
  | pipeline number => "pipeline" ++ toString number
  | element _ name _ => name

def maker : Object → Option Maker
  | pipeline _ => none
  | element maker _ _ => some maker

def ancestry : Object → List Object
  | pipeline number => [pipeline number]
  | element maker name parent => element maker name parent :: parent.ancestry

end Object

inductive BusAction
  | quit
  | reapBranch (id : BranchId)
  | ignore
deriving DecidableEq, Repr

inductive Message
  | eos
  | error (src : Option Object)
  | other

/-- The walk up from the source of an error. -/
def classifyError (obj : Object) : BusAction :=
  match branchIdFromName obj.name with
  | some id => .reapBranch ⟨id⟩
  | none =>
    match obj with
    | .pipeline _ => .quit
    | .element _ _ parent => classifyError parent

def classifyBusMessage : Message → BusAction
  | .eos => .quit
  | .error (some src) => classifyError src
  | .error none => .quit
  | .other => .ignore

/-- An object of a pipeline that serves a set of viewers: the pipeline, one of
the elements that `init`, the egress chains and `attach` put into it, or one
that an element brought along, whose name is no branch name. -/
inductive Placed (ids : Finset ConnectionId) : Object → Prop
  | pipeline (number) : Placed ids (.pipeline number)
  | init {spec} (number n) : spec ∈ initElements →
      Placed ids (.element .init (spec.nameWith n) (.pipeline number))
  | egress {mediaType specs spec} (number n) : egressElements mediaType = some specs →
      spec ∈ specs → Placed ids (.element (.egress mediaType) (spec.nameWith n) (.pipeline number))
  | attach {id spec} (number n) : id ∈ ids → spec ∈ branchElements id →
      Placed ids (.element (.attach id) (spec.nameWith n) (.pipeline number))
  | inner {name parent} : Placed ids parent → parent.maker ≠ none →
      (∀ stem ∈ stems, ∀ text, name ≠ stem ++ "-" ++ text) →
      Placed ids (.element .inner name parent)

def Serves (obj : Object) (id : ConnectionId) : Prop :=
  ∃ a ∈ obj.ancestry, a.maker = some (.attach id)

section Walks

variable {ids : Finset ConnectionId} {obj parent : Object} {id : ConnectionId} {name : String}
  {maker : Maker}

theorem serves_element : Serves (.element maker name parent) id ↔
    maker = .attach id ∨ Serves parent id := by
  simp [Serves, Object.ancestry, Object.maker]

theorem not_serves_pipeline (number : Nat) : ¬ Serves (.pipeline number) id := by
  simp [Serves, Object.ancestry, Object.maker]

theorem classifyError_up (h : branchIdFromName name = none) :
    classifyError (.element maker name parent) = classifyError parent := by
  conv_lhs => unfold classifyError
  simp [Object.name, h]

theorem classifyError_pipeline (number : Nat) : classifyError (.pipeline number) = .quit := by
  have hn : branchIdFromName (Object.pipeline number).name = none :=
    @Apart.name "pipeline" (by decide) (toString number)
  unfold classifyError
  rw [hn]

/-- The walk ends at the viewer's own element, or above the pipeline. -/
theorem Placed.classify (h : Placed ids obj) :
    (∃ id ∈ ids, classifyError obj = .reapBranch ⟨id⟩ ∧ ∀ i, Serves obj i ↔ i = id) ∨
      classifyError obj = .quit ∧ ∀ i, ¬ Serves obj i := by
  induction h with
  | pipeline number =>
    exact .inr ⟨classifyError_pipeline number, fun i => not_serves_pipeline number⟩
  | init number n hs =>
    refine .inr ⟨?_, fun i => by simp [serves_element, not_serves_pipeline]⟩
    rw [classifyError_up ((initElements_core _ hs).nameWith n), classifyError_pipeline]
  | egress number n he hs =>
    refine .inr ⟨?_, fun i => by simp [serves_element, not_serves_pipeline]⟩
    rw [classifyError_up ((egressElements_core he _ hs).nameWith n), classifyError_pipeline]
  | @attach id spec number n hid hs =>
    refine .inl ⟨id, hid, ?_, fun i => by simp [serves_element, not_serves_pipeline, eq_comm]⟩
    unfold classifyError
    simp [Object.name, branchElements_name hs]
  | @inner name parent hp hm hn ih =>
    have hnone : branchIdFromName name = none := by
      by_contra hne
      obtain ⟨id, hid⟩ := Option.ne_none_iff_exists'.mp hne
      obtain ⟨stem, hs, he⟩ := branchIdFromName_eq_some.mp hid
      exact hn stem hs id he
    rw [classifyError_up hnone]
    simpa [serves_element] using ih

end Walks

/-- Errors are contained: one that comes out of a viewer's element, or out of
anything nested in it, reaps that viewer, and every other one is fatal. -/
theorem errors_contained {ids : Finset ConnectionId} {obj : Object} (h : Placed ids obj) :
    (∀ id, classifyBusMessage (.error (some obj)) = .reapBranch ⟨id⟩ ↔ Serves obj id) ∧
      (classifyBusMessage (.error (some obj)) = .quit ↔ ∀ id, ¬ Serves obj id) ∧
      classifyBusMessage (.error none) = .quit := by
  rw [classifyBusMessage]
  obtain ⟨id, hid, hc, hs⟩ | ⟨hc, hs⟩ := h.classify
  · refine ⟨fun i => ?_, ?_, rfl⟩
    · simp [hc, hs, eq_comm]
    · simp [hc, hs]
  · exact ⟨fun i => by simp [hc, hs], by simp [hc, hs], rfl⟩

/-- Deep inside the whip sink of a viewer whose id looks like a queue's name. -/
theorem errors_contained_nested :
    classifyBusMessage (.error (some (.element .inner "webrtcbin0" (.element
      (.attach "video-queue-x") (whipSinkName "video-queue-x") (.pipeline 0))))) =
        .reapBranch ⟨"video-queue-x"⟩ := by
  have hsink : Placed {"video-queue-x"} (.element (.attach "video-queue-x")
      (whipSinkName "video-queue-x") (.pipeline 0)) :=
    @Placed.attach _ "video-queue-x" ⟨"whipclientsink", some (whipSinkName "video-queue-x")⟩ 0 0
      (by decide) (by decide)
  have hinner : ∀ stem ∈ stems, ∀ text, "webrtcbin0" ≠ stem ++ "-" ++ text := by
    intro stem hs text he
    have hn := branchIdFromName_eq_some.mpr ⟨stem, hs, he⟩
    rw [show branchIdFromName "webrtcbin0" = none by decide] at hn
    cases hn
  refine ((errors_contained (.inner hsink (by decide) hinner)).1 _).mpr ?_
  exact ⟨_, List.mem_cons_of_mem _ (List.mem_cons_self ..), rfl⟩

end SrtWhep.Stream
