import Mathlib.Algebra.Order.Group.Nat
import SrtWhep.Watchdog.Histories

namespace SrtWhep.Watchdog

open Library.Runs Library.Bursts Duration

/-- The failures made within the window that ends at `now`, this one included. -/
def inWindow (window : Duration) (now : Instant) (ts : List Instant) : Nat :=
  ((now :: ts).filter fun t => now ≤ t + window ∧ t ≤ now).length

/-- The failure completes a chain of as many failures as the threshold, each
at most the window after the one before, but the first of them is older than
the window. -/
def Trickle (n : UInt32) (window : Duration) (now : Instant) (ts : List Instant) : Prop :=
  (burst window now ts).length + 1 = n.toNat ∧ ∃ t ∈ burst window now ts, t + window < now

section Windows

variable {n : UInt32} {window : Duration} {ls : List (Record × Bool)} {w w' : Watchdog}
  {now : Instant} {tripped : Bool}

theorem ordered_iff :
    Ordered ls ↔ ((ls.map Prod.fst).map Record.time).Pairwise (· ≤ ·) := by
  rw [Ordered, List.map_map]
  rfl

theorem counted_sublist (ls : List (Record × Bool)) :
    (counted ls).Sublist (ls.map (·.1.time)).reverse := by
  induction ls using List.reverseRecOn with
  | nil => exact List.Sublist.refl _
  | append_singleton ls l ih =>
    rw [counted_snoc, List.map_append, List.reverse_append]
    obtain ⟨_ | _, _ | _⟩ := l
    · exact ih.cons_cons _
    all_goals exact List.nil_sublist _

theorem counted_ordered (h : Ordered (ls ++ [(.failure now, tripped)])) :
    (now :: counted ls).Pairwise (· ≥ ·) := by
  have hs := List.pairwise_reverse.mpr h
  rw [List.map_append, List.reverse_append] at hs
  exact hs.sublist ((counted_sublist ls).cons_cons now)

theorem inWindow_eq (h : (now :: counted ls).Pairwise (· ≥ ·)) :
    inWindow window now (counted ls) = (recent window now (counted ls)).length + 1 := by
  have hnow : now ≤ now + window := Nat.le_add_right now window
  have hf : (counted ls).filter (fun t => now ≤ t + window ∧ t ≤ now) =
      recent window now (counted ls) := by
    refine List.filter_congr fun t ht => ?_
    have hle : t ≤ now := (List.pairwise_cons.mp h).1 t ht
    simp [hle]
  rw [inWindow, List.filter_cons, if_pos (by simp [hnow]), hf, List.length_cons]

/-- The count never exceeds the threshold, so a call that trips completes a
burst of exactly as many failures. -/
theorem burst_lt (hn : 0 < n) (h : Run Step (.new n window) ls w) :
    (burst window now (counted ls)).length < n.toNat := by
  obtain ⟨hs, ht, hw⟩ := run_summary h
  rw [← hw, ← hs.decayed now, ← ht]
  have hpos : 0 < n.toNat := UInt32.lt_iff_toNat_lt.mp hn
  cases w.decayed_below now with
  | inl hz => rwa [hz, ht]
  | inr hlt => exact UInt32.lt_iff_toNat_lt.mp hlt

/-- After any history a failure trips just when the threshold is reached
within the window that ends with it, unless it completes a trickle. -/
theorem trips_in_window_iff (hn : 0 < n) (h : Run Step (.new n window) ls w)
    (ho : Ordered (ls ++ [(.failure now, tripped)])) (hr : w.Step (.failure now, tripped) w') :
    (tripped = true ↔ n.toNat ≤ inWindow window now (counted ls)) ↔
      ¬ Trickle n window now (counted ls) := by
  obtain ⟨⟨b, v⟩, hf, he⟩ := Option.map_eq_some_iff.mp hr
  obtain ⟨rfl, rfl⟩ := Prod.mk.inj he
  obtain ⟨hs, ht, hw⟩ := run_summary h
  have htrip := (hs.recordFailure hf).1
  rw [ht, hw] at htrip
  have hsort := counted_ordered ho
  have hlt : (burst window now (counted ls)).length < n.toNat := burst_lt hn h
  have hle := recent_length_le (w := window) hsort
  have hall := burst_length_le_iff (w := window) hsort
  have hnot : (∃ t ∈ burst window now (counted ls), t + window < now) ↔
      ¬ ∀ t ∈ burst window now (counted ls), now ≤ t + window := by
    simp only [not_forall, not_le, exists_prop]
  rw [htrip, inWindow_eq hsort, Trickle, hnot, ← hall]
  omega

end Windows

theorem record_sound (w : Watchdog) (r : Record) (b : Bool) (w' : Watchdog)
    (h : w.record r = some (w', b)) : w.Step (r, b) w' := h

theorem trips_in_window_iff_burst : ∃ ls w w',
    Run Step (.new 3 (fromSecs 60)) ls w ∧ w.Step (.failure (fromSecs 20), true) w' ∧
      counted ls = [fromSecs 10, 0] ∧
      ((true = true ↔ (3 : UInt32).toNat ≤ inWindow (fromSecs 60) (fromSecs 20) (counted ls)) ↔
        ¬ Trickle 3 (fromSecs 60) (fromSecs 20) (counted ls)) := by
  obtain ⟨ls, w, h, hi, hv⟩ := replayed record Step record_sound (.new 3 (fromSecs 60))
    [.failure 0, .failure (fromSecs 10)] ([fromSecs 10, 0], some true)
    (fun r => (counted r.2, (r.1.record (.failure (fromSecs 20))).map Prod.snd)) (by decide)
  obtain ⟨hc, ht⟩ := Prod.mk.inj hv
  obtain ⟨⟨w', b⟩, hr, rfl⟩ := Option.map_eq_some_iff.mp ht
  have ho : Ordered (ls ++ [(.failure (fromSecs 20), true)]) := by
    rw [ordered_iff, List.map_append, hi]
    decide
  exact ⟨ls, w, w', h, hr, hc, trips_in_window_iff (by decide) h ho hr⟩

/-- One failure every 50 seconds trips a watchdog that waits for three within
60 seconds, where no three of them are that close. -/
theorem trickle_trips : ∃ ls w w',
    Run Step (.new 3 (fromSecs 60)) ls w ∧
      ls.map Prod.fst = [.failure 0, .failure (fromSecs 50)] ∧
      Ordered (ls ++ [(.failure (fromSecs 100), true)]) ∧
      w.Step (.failure (fromSecs 100), true) w' ∧
      ¬ (true = true ↔
        (3 : UInt32).toNat ≤ inWindow (fromSecs 60) (fromSecs 100) (counted ls)) := by
  obtain ⟨ls, w, h, hi, hv⟩ := replayed record Step record_sound (.new 3 (fromSecs 60))
    [.failure 0, .failure (fromSecs 50)] (2, some true)
    (fun r => (inWindow (fromSecs 60) (fromSecs 100) (counted r.2),
      (r.1.record (.failure (fromSecs 100))).map Prod.snd)) (by decide)
  obtain ⟨hc, ht⟩ := Prod.mk.inj hv
  obtain ⟨⟨w', b⟩, hr, rfl⟩ := Option.map_eq_some_iff.mp ht
  have ho : Ordered (ls ++ [(.failure (fromSecs 100), true)]) := by
    rw [ordered_iff, List.map_append, hi]
    decide
  refine ⟨ls, w, w', h, hi, ho, hr, ?_⟩
  have hc' : inWindow (fromSecs 60) (fromSecs 100) (counted ls) = 2 := hc
  rw [hc']
  decide

end SrtWhep.Watchdog
