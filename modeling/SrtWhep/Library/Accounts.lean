import Mathlib.Algebra.BigOperators.Group.List.Basic
import Mathlib.Algebra.Order.Monoid.Defs
import SrtWhep.Library.Runs

namespace SrtWhep.Library.Accounts

open Library.Runs

variable {S L : Type} {step : S → L → S → Prop} {s t : S} {ls : List L}

section Potentials

variable {N : Type} [AddCommMonoid N] [PartialOrder N] [IsOrderedAddMonoid N]

/-- What the steps of a run gain is paid for by what they cost and by the
potential that they use up. -/
theorem potential {inv : S → Prop} {φ : S → N} {gain cost : L → N} (h : Run step s ls t)
    (start : inv s) (keeps : ∀ {u v : S} {l : L}, inv u → step u l v → inv v)
    (pays : ∀ {u v : S} {l : L}, inv u → step u l v → φ v + gain l ≤ φ u + cost l) :
    φ t + (ls.map gain).sum ≤ φ s + (ls.map cost).sum := by
  induction h with
  | nil s => simp
  | @cons s u t l ls hs _ ih =>
    have hrest := ih (keeps start hs)
    have hstep := pays start hs
    calc φ t + ((l :: ls).map gain).sum
        = (φ t + (ls.map gain).sum) + gain l := by
          rw [List.map_cons, List.sum_cons, add_left_comm, add_comm]
      _ ≤ (φ u + (ls.map cost).sum) + gain l := add_le_add_left hrest _
      _ = (φ u + gain l) + (ls.map cost).sum := add_right_comm ..
      _ ≤ (φ s + cost l) + (ls.map cost).sum := add_le_add_left hstep _
      _ = φ s + ((l :: ls).map cost).sum := by
          rw [List.map_cons, List.sum_cons, add_assoc]

end Potentials

end SrtWhep.Library.Accounts
