import SrtWhep.Library.Bursts
import SrtWhep.Library.Runs
import SrtWhep.Watchdog

namespace SrtWhep.Watchdog

open Library.Runs Library.Bursts

inductive Record
  | failure (now : Instant)
  | success (now : Instant)
deriving DecidableEq, Repr

def Record.time : Record → Instant
  | failure now => now
  | success now => now

def record (w : Watchdog) : Record → Option (Watchdog × Bool)
  | .failure now => (w.recordFailure now).map fun r => (r.2, r.1)
  | .success _ => some (w.recordSuccess, false)

def Step (w : Watchdog) (l : Record × Bool) (w' : Watchdog) : Prop :=
  w.record l.1 = some (w', l.2)

def Ordered (ls : List (Record × Bool)) : Prop := (ls.map (·.1.time)).Pairwise (· ≤ ·)

def note (ts : List Instant) : Record × Bool → List Instant
  | (.failure now, false) => now :: ts
  | _ => []

def counted (ls : List (Record × Bool)) : List Instant := ls.foldl note []

@[simp] theorem counted_snoc (ls : List (Record × Bool)) (l : Record × Bool) :
    counted (ls ++ [l]) = note (counted ls) l := by
  simp [counted]

def load (window : Duration) : List Instant → Nat
  | [] => 0
  | t :: ts => (burst window t ts).length + 1

/-- What the two fields of the watchdog say of the failures they stand for. -/
structure Summary (w : Watchdog) (ts : List Instant) : Prop where
  last : w.lastFailure = ts.head?
  count : w.consecutiveFailures.toNat = load w.window ts

section Calls

variable {w w' : Watchdog} {ts : List Instant} {now : Instant}

theorem lt_durationSince (t s : Instant) (d : Duration) :
    d < t.durationSince s ↔ ¬ t ≤ s + d := by
  rw [Instant.durationSince, Nat.not_le, Nat.lt_sub_iff_add_lt, Nat.add_comm]

/-- The count a failure adds to is the length of the burst that it ends. -/
theorem Summary.decayed (h : Summary w ts) (now : Instant) :
    (w.decayed now).toNat = (burst w.window now ts).length := by
  obtain ⟨hl, hc⟩ := h
  unfold Watchdog.decayed
  cases ts with
  | nil =>
    rw [List.head?_nil] at hl
    rw [hl]
    exact hc
  | cons t ts =>
    rw [List.head?_cons] at hl
    rw [hl]
    simp only [lt_durationSince, burst]
    by_cases hg : now ≤ t + w.window
    · simpa [hg, load] using hc
    · simp [hg]

theorem Summary.recordFailure (h : Summary w ts) {tripped : Bool}
    (hr : w.recordFailure now = some (tripped, w')) :
    (tripped = true ↔ w.threshold.toNat ≤ (burst w.window now ts).length + 1) ∧
      Summary w' (note ts (.failure now, tripped)) ∧
      w'.threshold = w.threshold ∧ w'.window = w.window := by
  rw [← h.decayed now]
  obtain ⟨rfl, hle, rfl⟩ | ⟨rfl, hlt, hn, hl, ht, hw⟩ := recordFailure_cases hr
  · exact ⟨iff_of_true rfl hle, ⟨rfl, rfl⟩, rfl, rfl⟩
  · refine ⟨iff_of_false (by simp) (Nat.not_le.mpr hlt), ⟨hl, ?_⟩, ht, hw⟩
    rw [hn, h.decayed now, hw]
    rfl

theorem Summary.recordSuccess (now : Instant) :
    Summary w.recordSuccess (note ts (.success now, false)) := ⟨rfl, rfl⟩

end Calls

/-- After any history the watchdog sums up the failures since the last
success or trip. -/
theorem run_summary {n : UInt32} {window : Duration} {ls : List (Record × Bool)} {w : Watchdog}
    (h : Run Step (.new n window) ls w) :
    Summary w (counted ls) ∧ w.threshold = n ∧ w.window = window := by
  refine h.history (P := fun ls w => Summary w (counted ls) ∧ w.threshold = n ∧ w.window = window)
    ⟨⟨rfl, rfl⟩, rfl, rfl⟩ ?_
  rintro ls u v ⟨r, tripped⟩ ⟨hs, hn, hw⟩ hr
  rw [counted_snoc]
  cases r with
  | failure now =>
    obtain ⟨⟨b, v'⟩, hf, he⟩ := Option.map_eq_some_iff.mp hr
    obtain ⟨rfl, rfl⟩ := Prod.mk.inj he
    obtain ⟨-, hs', ht, hw'⟩ := hs.recordFailure hf
    exact ⟨hs', ht.trans hn, hw'.trans hw⟩
  | success now =>
    obtain ⟨rfl, rfl⟩ := Prod.mk.inj (Option.some.inj hr)
    exact ⟨.recordSuccess now, hn, hw⟩

end SrtWhep.Watchdog
