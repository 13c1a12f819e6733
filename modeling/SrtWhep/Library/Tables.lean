import Mathlib.Data.Finmap

namespace SrtWhep.Library.Tables

/-- A hash map with values of one type. Its iteration order is not part of
the value: it is supplied wherever the map is walked. -/
abbrev Table (K V : Type) := Finmap fun _ : K => V

variable {K V R : Type} [DecidableEq K]

theorem lookup_insert (m : Table K V) (k a : K) (v : V) :
    (m.insert k v).lookup a = if a = k then some v else m.lookup a := by
  by_cases h : a = k
  · subst h; simp
  · simp [h]

theorem lookup_erase (m : Table K V) (k a : K) :
    (m.erase k).lookup a = if a = k then none else m.lookup a := by
  by_cases h : a = k
  · subst h; simp
  · simp [h]

theorem erase_absent {m : Table K V} {k : K} (h : m.lookup k = none) : m.erase k = m := by
  apply Finmap.ext_lookup
  intro a
  rw [lookup_erase]
  split
  · subst a; exact h.symm
  · rfl

theorem insert_erase {m : Table K V} {k : K} {v : V} (h : m.lookup k = some v) :
    (m.erase k).insert k v = m := by
  apply Finmap.ext_lookup
  intro a
  rw [lookup_insert, lookup_erase]
  split
  · subst a; exact h.symm
  · rfl

theorem entries_erase {m : Table K V} {k : K} {v : V} (h : m.lookup k = some v) :
    m.entries = ⟨k, v⟩ ::ₘ (m.erase k).entries := by
  have hi := Finmap.entries_insert_of_notMem (b := v) (Finmap.notMem_erase_self (a := k) (s := m))
  rwa [insert_erase h] at hi

def gather (held : V → Multiset R) (m : Table K V) : Multiset R :=
  m.entries.bind fun e => held e.2

omit [DecidableEq K] in
@[simp] theorem gather_empty (held : V → Multiset R) : gather held (∅ : Table K V) = 0 := rfl

theorem gather_insert (held : V → Multiset R) {m : Table K V} {k : K} (v : V)
    (h : m.lookup k = none) : gather held (m.insert k v) = held v + gather held m := by
  rw [gather, Finmap.entries_insert_of_notMem (Finmap.lookup_eq_none.mp h)]
  simp [gather]

theorem gather_erase (held : V → Multiset R) {m : Table K V} {k : K} {v : V}
    (h : m.lookup k = some v) : gather held m = held v + gather held (m.erase k) := by
  rw [gather, entries_erase h]
  simp [gather]

theorem gather_replace (held : V → Multiset R) (m : Table K V) (k : K) (v : V) :
    gather held ((m.erase k).insert k v) = held v + gather held (m.erase k) :=
  gather_insert held v (by simp)

theorem mem_gather (held : V → Multiset R) (m : Table K V) (r : R) :
    r ∈ gather held m ↔ ∃ k v, m.lookup k = some v ∧ r ∈ held v := by
  rw [gather, Multiset.mem_bind]
  constructor
  · rintro ⟨⟨k, v⟩, he, hr⟩
    exact ⟨k, v, Finmap.lookup_eq_some_iff.mpr he, hr⟩
  · rintro ⟨k, v, hk, hr⟩
    exact ⟨⟨k, v⟩, Finmap.lookup_eq_some_iff.mp hk, hr⟩

/-- The entries in a given iteration order; keys that are absent are skipped. -/
def walk (m : Table K V) (order : List K) : List (K × V) :=
  order.filterMap fun k => (m.lookup k).map (k, ·)

def Covers (order : List K) (m : Table K V) : Prop := order.Nodup ∧ ∀ k ∈ m, k ∈ order

omit [DecidableEq K] in
theorem Covers.mono {order : List K} {m n : Table K V} (h : Covers order m)
    (hs : ∀ k ∈ n, k ∈ m) : Covers order n := ⟨h.1, fun k hk => h.2 k (hs k hk)⟩

theorem Covers.erase {order : List K} {m : Table K V} (h : Covers order m) (k : K) :
    Covers order (m.erase k) := h.mono fun _ ha => (Finmap.mem_erase.mp ha).2

omit [DecidableEq K] in
theorem Covers.empty {order : List K} (h : order.Nodup) : Covers order (∅ : Table K V) :=
  ⟨h, fun _ hk => absurd hk Finmap.notMem_empty⟩

theorem Covers.insert {order : List K} {m : Table K V} {k : K} (h : Covers order m)
    (hk : k ∈ order) (v : V) : Covers order (m.insert k v) := by
  refine ⟨h.1, fun a ha => ?_⟩
  obtain rfl | ha := Finmap.mem_insert.mp ha
  · exact hk
  · exact h.2 a ha

instance (order : List K) (m : Table K V) : Decidable (Covers order m) :=
  decidable_of_iff (order.Nodup ∧ ∀ k ∈ m.keys, k ∈ order) (by simp [Covers, Finmap.mem_keys])

@[simp] theorem walk_empty (order : List K) : walk (∅ : Table K V) order = [] := by
  simp [walk]

theorem mem_walk {m : Table K V} {order : List K} (k : K) (v : V) :
    (k, v) ∈ walk m order ↔ k ∈ order ∧ m.lookup k = some v := by
  simp only [walk, List.mem_filterMap, Option.map_eq_some_iff, Prod.mk.injEq]
  constructor
  · rintro ⟨a, ha, b, hb, rfl, rfl⟩
    exact ⟨ha, hb⟩
  · rintro ⟨hk, hv⟩
    exact ⟨k, hk, v, hv, rfl, rfl⟩

theorem Covers.mem_walk {m : Table K V} {order : List K} (h : Covers order m) (k : K) (v : V) :
    (k, v) ∈ walk m order ↔ m.lookup k = some v := by
  rw [Tables.mem_walk]
  exact ⟨fun hv => hv.2, fun hv => ⟨h.2 k (Finmap.mem_of_lookup_eq_some hv), hv⟩⟩

theorem walk_erase (m : Table K V) (k : K) (order : List K) :
    walk (m.erase k) order = (walk m order).filter (·.1 ≠ k) := by
  induction order with
  | nil => rfl
  | cons a order ih =>
    simp only [walk] at ih ⊢
    rw [List.filterMap_cons, List.filterMap_cons, lookup_erase]
    by_cases he : a = k
    · subst he
      cases m.lookup a <;> simp [ih]
    · cases m.lookup a <;> simp [ih, he]

theorem walk_keys_nodup (m : Table K V) {order : List K} (h : order.Nodup) :
    ((walk m order).map Prod.fst).Nodup := by
  induction order with
  | nil => simp [walk]
  | cons k order ih =>
    have hk := (List.nodup_cons.mp h).1
    have ht := ih (List.nodup_cons.mp h).2
    cases hl : m.lookup k with
    | none => simpa [walk, hl] using ht
    | some v =>
      have hw : walk m (k :: order) = (k, v) :: walk m order := by simp [walk, hl]
      rw [hw, List.map_cons, List.nodup_cons]
      refine ⟨?_, ht⟩
      rintro hm
      obtain ⟨⟨a, b⟩, he, rfl⟩ := List.mem_map.mp hm
      exact hk (Tables.mem_walk a b |>.mp he).1

theorem Covers.walk_entries {m : Table K V} {order : List K} (h : Covers order m) :
    ((walk m order).map fun e => (⟨e.1, e.2⟩ : (_ : K) × V) : Multiset _) = m.entries := by
  have hn : (((walk m order).map fun e => (⟨e.1, e.2⟩ : (_ : K) × V)) : List _).Nodup := by
    apply List.Nodup.of_map Sigma.fst
    simpa [List.map_map, Function.comp_def] using walk_keys_nodup m h.1
  refine (Multiset.Nodup.ext (Multiset.coe_nodup.mpr hn) m.nodup_entries).mpr ?_
  rintro ⟨k, v⟩
  rw [← Finmap.lookup_eq_some_iff, ← h.mem_walk k v]
  simp

theorem Covers.gather_walk {m : Table K V} {order : List K} (held : V → Multiset R)
    (h : Covers order m) :
    (walk m order : Multiset (K × V)).bind (fun e => held e.2) = gather held m := by
  rw [gather, ← h.walk_entries, ← Multiset.map_coe, Multiset.bind_map]

end SrtWhep.Library.Tables
