import Mathlib.Algebra.Ring.Nat

namespace SrtWhep

/-- Clock readings and spans of time, both in nanoseconds. -/
abbrev Instant := Nat

abbrev Duration := Nat

namespace Duration

def fromSecs (s : Nat) : Duration := s * 10 ^ 9

def fromMillis (ms : Nat) : Duration := ms * 10 ^ 6

end Duration

namespace Instant

/-- The first reading a Unix clock cannot represent: its seconds are an `i64`. -/
def horizon : Instant := 2 ^ 63 * 10 ^ 9

/-- `Instant + Duration`; `none` is the panic on a sum that is not representable. -/
def checkedAdd (t : Instant) (d : Duration) : Option Instant :=
  if t + d < horizon then some (t + d) else none

/-- An instant earlier than `earlier` is at distance zero, not before it. -/
def durationSince (t earlier : Instant) : Duration := t - earlier

theorem checkedAdd_eq_some {t : Instant} {d : Duration} {u : Instant} :
    checkedAdd t d = some u ↔ t + d < horizon ∧ t + d = u := by
  by_cases h : t + d < horizon <;> simp [checkedAdd, h]

end Instant

/-- `n += 1` on a `u32`; `none` is the overflow panic. -/
def checkedSucc (n : UInt32) : Option UInt32 := if n = 0xffffffff then none else some (n + 1)

theorem checkedSucc_of_lt {n m : UInt32} (h : n < m) :
    ∃ k, checkedSucc n = some k ∧ k.toNat = n.toNat + 1 := by
  have hn : n.toNat < m.toNat := UInt32.lt_iff_toNat_lt.mp h
  have hm := m.toNat_lt
  have hne : n ≠ 0xffffffff := by
    rintro rfl
    simp at hn
    omega
  refine ⟨n + 1, if_neg hne, ?_⟩
  rw [UInt32.toNat_add]
  simp
  omega

end SrtWhep
