import Mathlib.Data.List.Chain
import SrtWhep.Watchdog.Histories

namespace SrtWhep.Watchdog

open Library.Runs Library.Bursts Duration

def Close (window : Duration) (s t : Instant) : Prop := t ≤ s + window

instance (window : Duration) (s t : Instant) : Decidable (Close window s t) :=
  inferInstanceAs (Decidable (t ≤ s + window))

/-- Calls that a failure at `now` continues: failures that have not tripped, with no gap of
more than the window between them or before `now`. -/
structure Segment (window : Duration) (now : Instant) (seg : List (Record × Bool)) : Prop where
  failures : ∀ l ∈ seg, ∃ t, l = (.failure t, false)
  close : (seg.map (·.1.time) ++ [now]).IsChain (Close window)

structure Latest (window : Duration) (ls : List (Record × Bool)) (now : Instant)
    (seg : List (Record × Bool)) : Prop where
  ending : seg <:+ ls
  segment : Segment window now seg
  longest : ∀ seg', seg' <:+ ls → Segment window now seg' → seg'.length ≤ seg.length

section Segments

variable {window : Duration} {now t : Instant} {l : Record × Bool}
  {ls ls₁ ls₂ seg seg' : List (Record × Bool)}

theorem segment_nil : Segment window now [] := ⟨by simp, by simp⟩

theorem segment_snoc : Segment window now (seg ++ [l]) ↔
    ∃ t, l = (.failure t, false) ∧ Close window t now ∧ Segment window t seg := by
  constructor
  · rintro ⟨hf, hc⟩
    obtain ⟨t, rfl⟩ := hf l (by simp)
    have hc : (seg.map (·.1.time) ++ t :: now :: []).IsChain (Close window) := by
      simpa [Record.time] using hc
    obtain ⟨hc, hn, -⟩ := List.isChain_append_cons_cons.mp hc
    exact ⟨t, rfl, hn, fun l hl => hf l (by simp [hl]), hc⟩
  · rintro ⟨t, rfl, hn, hf, hc⟩
    constructor
    · intro l hl
      obtain hl | hl := List.mem_append.mp hl
      · exact hf l hl
      · exact ⟨t, List.mem_singleton.mp hl⟩
    · have h := List.isChain_append_cons_cons.mpr ⟨hc, hn, List.isChain_singleton now⟩
      simpa [Record.time] using h

theorem Latest.unique (h : Latest window ls now seg) (h' : Latest window ls now seg') :
    seg = seg' := by
  have hle := h.longest seg' h'.ending h'.segment
  have hge := h'.longest seg h.ending h.segment
  exact (List.suffix_of_suffix_length_le h.ending h'.ending hge).eq_of_length_le hle

theorem Latest.continued (h : Latest window ls t seg) (hc : Close window t now) :
    Latest window (ls ++ [(.failure t, false)]) now (seg ++ [(.failure t, false)]) where
  ending := List.suffix_concat_iff.mpr (.inr ⟨seg, rfl, h.ending⟩)
  segment := segment_snoc.mpr ⟨t, rfl, hc, h.segment⟩
  longest := by
    intro seg' he hs
    obtain rfl | ⟨seg', rfl, hsuf⟩ := List.suffix_concat_iff.mp he
    · simp
    · obtain ⟨t', ht, -, hs⟩ := segment_snoc.mp hs
      cases ht
      simpa using h.longest seg' hsuf hs

theorem latest_fresh (h : ∀ t, l = (.failure t, false) → ¬ Close window t now) :
    Latest window (ls ++ [l]) now [] where
  ending := List.nil_suffix
  segment := segment_nil
  longest := by
    intro seg' he hs
    obtain rfl | ⟨seg', rfl, -⟩ := List.suffix_concat_iff.mp he
    · rfl
    · obtain ⟨t, ht, hc, -⟩ := segment_snoc.mp hs
      exact absurd hc (h t ht)

theorem latest_length (ls : List (Record × Bool)) (now : Instant) :
    ∃ seg, Latest window ls now seg ∧
      seg.length = (burst window now (counted ls)).length := by
  induction ls using List.reverseRecOn generalizing now with
  | nil => exact ⟨[], ⟨List.nil_suffix, segment_nil, by simp⟩, rfl⟩
  | append_singleton ls l ih =>
    rw [counted_snoc]
    obtain ⟨r, tripped⟩ := l
    cases r with
    | success t => exact ⟨[], latest_fresh (by simp), rfl⟩
    | failure t =>
      cases tripped with
      | true => exact ⟨[], latest_fresh (by simp), rfl⟩
      | false =>
        by_cases hc : Close window t now
        · obtain ⟨seg, hs, hl⟩ := ih t
          have hb : burst window now (t :: counted ls) = t :: burst window t (counted ls) :=
            if_pos hc
          exact ⟨_, hs.continued hc, by simp [note, hb, hl]⟩
        · have hb : burst window now (t :: counted ls) = [] := if_neg hc
          refine ⟨[], latest_fresh fun t' ht => ?_, by simp [note, hb]⟩
          cases ht
          exact hc

/-- No segment reaches back to a failure that tripped, or past it. -/
theorem Latest.after_trip (h : Latest window (ls₁ ++ (.failure t, true) :: ls₂) now seg) :
    seg <:+ ls₂ := by
  obtain hs | hs := List.suffix_or_suffix_of_suffix h.ending (List.suffix_append ls₁ _)
  · obtain rfl | hs := List.suffix_cons_iff.mp hs
    · obtain ⟨t', ht⟩ := h.segment.failures _ (List.mem_cons_self ..)
      cases ht
    · exact hs
  · obtain ⟨t', ht⟩ := h.segment.failures (.failure t, true) (hs.subset (List.mem_cons_self ..))
    cases ht

end Segments

/-- Failures one after the other, none more than the window after the one before it, of
which the first continues nothing. -/
structure Burst (window : Duration) (ls ks : List (Record × Bool)) : Prop where
  failures : ∀ k ∈ ks, ∃ t b, k = (.failure t, b)
  close : (ks.map (·.1.time)).IsChain (Close window)
  fresh : ∀ k ∈ ks.head?, Latest window ls k.1.time []

def trips (ls : List (Record × Bool)) : Nat := ls.countP (·.2)

section Trips

variable {n : UInt32} {window : Duration} {w w' : Watchdog} {now : Instant}
  {ls ks : List (Record × Bool)}

theorem toNat_lt_max {k m : UInt32} (h : k = 0 ∨ k < m) : k.toNat < max m.toNat 1 := by
  obtain rfl | h := h
  · exact lt_max_of_lt_right Nat.one_pos
  · exact lt_max_of_lt_left (UInt32.lt_iff_toNat_lt.mp h)

/-- Close failures trip as often as the threshold goes into their number, with those that
the first adds to. -/
theorem chain_trips (h : Run Step w ks w') {c : Nat} (hc : c < max w.threshold.toNat 1)
    (hf : ∀ k ∈ ks, ∃ t b, k = (.failure t, b))
    (hk : (ks.map (·.1.time)).IsChain (Close w.window))
    (hd : ∀ k ∈ ks.head?, (w.decayed k.1.time).toNat = c) :
    trips ks = (c + ks.length) / max w.threshold.toNat 1 := by
  induction ks generalizing w c with
  | nil => exact (Nat.div_eq_of_lt hc).symm
  | cons k ks ih =>
    obtain ⟨u, hs, hr⟩ := run_cons.mp h
    obtain ⟨t, b, rfl⟩ := hf k (List.mem_cons_self ..)
    obtain ⟨⟨b', u'⟩, hrec, he⟩ := Option.map_eq_some_iff.mp hs
    obtain ⟨rfl, rfl⟩ := Prod.mk.inj he
    have hcount₀ : (w.decayed t).toNat = c := hd _ rfl
    have hf' : ∀ k ∈ ks, ∃ t b, k = (.failure t, b) := fun k hm => hf k (by simp [hm])
    have hk' : (ks.map (·.1.time)).IsChain (Close w.window) := by
      rw [List.map_cons] at hk
      exact hk.tail
    obtain ⟨rfl, hle, rfl⟩ | ⟨rfl, hlt, hn, hl, ht, hw⟩ := recordFailure_cases hrec
    · -- The trip clears the counter, so that the next failure is the first of its group.
      have hcount := ih (c := 0) hr (lt_max_of_lt_right Nat.one_pos) hf' hk' fun _ _ => rfl
      have hsum : c + (ks.length + 1) = ks.length + max w.threshold.toNat 1 := by omega
      rw [List.length_cons, hsum, Nat.add_div_right _ (by omega)]
      simpa [trips, Watchdog.recordSuccess] using hcount
    · have hlt' : c + 1 < max u'.threshold.toNat 1 := by
        rw [ht]
        omega
      have hnext : ∀ k ∈ ks.head?, (u'.decayed k.1.time).toNat = c + 1 := by
        intro k hm
        have hclose : k.1.time ≤ t + u'.window := by
          rw [hw]
          rw [List.map_cons, List.isChain_cons] at hk
          exact hk.1 k.1.time (by rw [List.head?_map, hm.out]; rfl)
        have hgap : ¬ u'.window < k.1.time.durationSince t := by
          rw [lt_durationSince]
          exact not_not.mpr hclose
        rw [Watchdog.decayed, hl]
        simp only [hgap, if_false]
        rw [hn, hcount₀]
      have hcount := ih hr hlt' hf' (hw ▸ hk') hnext
      rw [ht] at hcount
      rw [List.length_cons]
      simpa [trips, Nat.add_assoc, Nat.add_comm 1] using hcount

/-- What the counter means: a failure trips exactly when it completes a segment as long as
the threshold, no segment reaches past a trip, a burst trips as often as the threshold goes
into its length, and the counter rests below the threshold. -/
theorem counter_meaning (h : Run Step (.new n window) ls w) :
    (∀ now, ∃ tripped w' seg, w.recordFailure now = some (tripped, w') ∧
      Latest window ls now seg ∧ (tripped = true ↔ seg.length + 1 = max n.toNat 1)) ∧
    (∀ ls₁ t ls₂ now seg, ls = ls₁ ++ (.failure t, true) :: ls₂ →
      Latest window ls now seg → seg <:+ ls₂) ∧
    (∀ ks w', Run Step w ks w' → Burst window ls ks → trips ks = ks.length / max n.toNat 1) ∧
    w.consecutiveFailures.toNat < max n.toNat 1 := by
  obtain ⟨hs, hn, hw⟩ := run_summary h
  refine ⟨fun now => ?_, ?_, ?_, ?_⟩
  · obtain ⟨seg, hl, hlen⟩ := latest_length ls now
    obtain ⟨tripped, w', hr⟩ := w.recordFailure_isSome now
    refine ⟨tripped, w', seg, hr, hl, ?_⟩
    have hlt := toNat_lt_max (w.decayed_below now)
    rw [hs.decayed, hw, hn] at hlt
    rw [(hs.recordFailure hr).1, hw, hn, hlen]
    omega
  · rintro ls₁ t ls₂ now seg rfl hl
    exact hl.after_trip
  · intro ks w' hk hb
    have hfirst : ∀ k ∈ ks.head?, (w.decayed k.1.time).toNat = 0 := by
      intro k hm
      obtain ⟨seg, hl, hlen⟩ := latest_length ls k.1.time
      rw [hs.decayed, hw, ← hlen, hl.unique (hb.fresh k hm)]
      rfl
    have htrips := chain_trips hk (lt_max_of_lt_right Nat.one_pos) hb.failures (hw ▸ hb.close)
      hfirst
    rwa [hn, Nat.zero_add] at htrips
  · exact hn ▸ toNat_lt_max w.below

theorem counter_meaning_burst : ∃ ks w', Run Step (.new 2 (fromSecs 60)) ks w' ∧
    ks.map (·.2) = [false, true, false, true, false] ∧
    trips ks = ks.length / max (2 : UInt32).toNat 1 := by
  obtain ⟨ks, w', h, -, hk⟩ := replayed record Step (fun _ _ _ _ h => h) (.new 2 (fromSecs 60))
    ([0, 10, 20, 30, 40].map fun s => .failure (fromSecs s))
    ([0, 10, 20, 30, 40].zipWith (fun s b => (.failure (fromSecs s), b))
      [false, true, false, true, false]) Prod.snd (by decide)
  have hk : ks = _ := hk
  have hb : Burst (fromSecs 60) [] ks := by
    subst hk
    refine ⟨by simp, by decide, ?_⟩
    rintro k ⟨⟩
    exact ⟨List.nil_suffix, segment_nil, by simp⟩
  have hstart : Run Step (.new 2 (fromSecs 60)) [] (.new 2 (fromSecs 60)) := .nil _
  have hm := (counter_meaning hstart).2.2.1 ks w' h hb
  exact ⟨ks, w', h, by rw [hk]; rfl, hm⟩

end Trips

end SrtWhep.Watchdog
