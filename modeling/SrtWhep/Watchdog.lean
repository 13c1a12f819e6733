import SrtWhep.Clock

namespace SrtWhep

/-- The failure counter never rests at or above the threshold: reaching it
trips, and a trip clears it. -/
structure Watchdog where
  consecutiveFailures : UInt32
  threshold : UInt32
  window : Duration
  lastFailure : Option Instant
  below : consecutiveFailures = 0 ∨ consecutiveFailures < threshold
deriving DecidableEq, Repr

namespace Watchdog

def new (threshold : UInt32) (window : Duration) : Watchdog :=
  { consecutiveFailures := 0, threshold, window, lastFailure := none, below := .inl rfl }

/-- The count a failure at `now` adds to: one that arrives more than
`window` after the previous one starts over. -/
def decayed (w : Watchdog) (now : Instant) : UInt32 :=
  match w.lastFailure with
  | some last => if w.window < now.durationSince last then 0 else w.consecutiveFailures
  | none => w.consecutiveFailures

def recordSuccess (w : Watchdog) : Watchdog :=
  { w with consecutiveFailures := 0, lastFailure := none, below := .inl rfl }

def recordFailure (w : Watchdog) (now : Instant) : Option (Bool × Watchdog) := do
  let failures ← checkedSucc (w.decayed now)
  if h : w.threshold ≤ failures then
    some (true, w.recordSuccess)
  else
    some (false, { w with
      consecutiveFailures := failures
      lastFailure := some now
      below := .inr (UInt32.not_le.mp h) })

theorem decayed_below (w : Watchdog) (now : Instant) :
    w.decayed now = 0 ∨ w.decayed now < w.threshold := by
  unfold decayed
  split
  · split
    · exact .inl rfl
    · exact w.below
  · exact w.below

theorem increment_exact (w : Watchdog) (now : Instant) :
    ∃ k, checkedSucc (w.decayed now) = some k ∧ k.toNat = (w.decayed now).toNat + 1 := by
  cases w.decayed_below now with
  | inl h => exact ⟨1, by rw [h]; decide, by rw [h]; decide⟩
  | inr h => exact checkedSucc_of_lt h

theorem recordFailure_isSome (w : Watchdog) (now : Instant) :
    ∃ tripped w', w.recordFailure now = some (tripped, w') := by
  obtain ⟨k, hk, _⟩ := w.increment_exact now
  unfold recordFailure
  rw [hk]
  simp only [Option.bind_eq_bind, Option.bind_some]
  split
  · exact ⟨_, _, rfl⟩
  · exact ⟨_, _, rfl⟩

theorem recordFailure_cases {w w' : Watchdog} {now : Instant} {tripped : Bool}
    (h : w.recordFailure now = some (tripped, w')) :
    tripped = true ∧ w.threshold.toNat ≤ (w.decayed now).toNat + 1 ∧ w' = w.recordSuccess ∨
      tripped = false ∧ (w.decayed now).toNat + 1 < w.threshold.toNat ∧
        w'.consecutiveFailures.toNat = (w.decayed now).toNat + 1 ∧ w'.lastFailure = some now ∧
        w'.threshold = w.threshold ∧ w'.window = w.window := by
  obtain ⟨k, hk, hn⟩ := w.increment_exact now
  simp only [recordFailure, hk, Option.bind_eq_bind, Option.bind_some] at h
  split at h
  next hle =>
    obtain ⟨rfl, rfl⟩ := Prod.mk.inj (Option.some.inj h)
    exact .inl ⟨rfl, hn ▸ UInt32.le_iff_toNat_le.mp hle, rfl⟩
  next hlt =>
    obtain ⟨rfl, rfl⟩ := Prod.mk.inj (Option.some.inj h)
    exact .inr ⟨rfl, hn ▸ UInt32.lt_iff_toNat_lt.mp (UInt32.not_le.mp hlt), hn, rfl, rfl, rfl⟩

theorem recordFailure_le {w w' : Watchdog} {now : Instant} {tripped : Bool}
    (h : w.recordFailure now = some (tripped, w')) :
    w'.consecutiveFailures.toNat ≤ w.consecutiveFailures.toNat + 1 := by
  have hd : (w.decayed now).toNat ≤ w.consecutiveFailures.toNat := by
    unfold decayed
    split
    · split
      · exact Nat.zero_le _
      · exact Nat.le_refl _
    · exact Nat.le_refl _
  obtain ⟨-, -, rfl⟩ | ⟨-, -, hn, -⟩ := recordFailure_cases h
  · exact Nat.zero_le _
  · rw [hn]
    exact Nat.succ_le_succ hd

end Watchdog

end SrtWhep
