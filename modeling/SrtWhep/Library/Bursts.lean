import Mathlib.Algebra.Order.Monoid.Defs

namespace SrtWhep.Library.Bursts

variable {T : Type} [AddCommMonoid T] [LinearOrder T] [IsOrderedAddMonoid T]

/-- The times, latest first, back to the first gap of more than `w` before `t`. -/
def burst (w : T) : T → List T → List T
  | _, [] => []
  | t, s :: ss => if t ≤ s + w then s :: burst w s ss else []

/-- The times at most `w` before `t`. -/
def recent (w t : T) (ts : List T) : List T := ts.filter (t ≤ · + w)

theorem recent_eq {w t u : T} {ts : List T} (hs : (t :: ts).Pairwise (· ≥ ·)) (hu : t ≤ u) :
    recent w u ts = recent w u (burst w t ts) := by
  induction ts generalizing t with
  | nil => rfl
  | cons s ss ih =>
    obtain ⟨ht, hss⟩ := List.pairwise_cons.mp hs
    have hst : s ≤ t := ht s (by simp)
    by_cases hg : t ≤ s + w
    · have hb : burst w t (s :: ss) = s :: burst w s ss := if_pos hg
      have hi := ih hss (hst.trans hu)
      rw [hb]
      unfold recent at hi ⊢
      rw [List.filter_cons, List.filter_cons, hi]
    · have hb : burst w t (s :: ss) = [] := if_neg hg
      rw [hb]
      refine List.filter_eq_nil_iff.mpr fun r hr => ?_
      have hrs : r ≤ s := by
        obtain rfl | hr := List.mem_cons.mp hr
        · exact le_refl r
        · exact (List.pairwise_cons.mp hss).1 r hr
      have hlt : r + w < u :=
        ((add_le_add_left hrs w).trans_lt (not_le.mp hg)).trans_le hu
      simpa using hlt

theorem recent_length_le {w t : T} {ts : List T} (hs : (t :: ts).Pairwise (· ≥ ·)) :
    (recent w t ts).length ≤ (burst w t ts).length := by
  rw [recent_eq hs le_rfl]
  exact List.length_filter_le _ _

theorem burst_length_le_iff {w t : T} {ts : List T} (hs : (t :: ts).Pairwise (· ≥ ·)) :
    (burst w t ts).length ≤ (recent w t ts).length ↔ ∀ s ∈ burst w t ts, t ≤ s + w := by
  have hle := recent_length_le (w := w) hs
  rw [recent_eq hs le_rfl] at hle ⊢
  rw [hle.ge_iff_eq', eq_comm]
  simp [recent, List.length_filter_eq_length_iff]

end SrtWhep.Library.Bursts
