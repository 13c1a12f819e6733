import Mathlib.Data.List.Induction

namespace SrtWhep.Library.Runs

variable {S T L M : Type}

/-- Finite runs of a labelled step relation. The labels are kept in the
order in which the steps were taken. -/
inductive Run (step : S → L → S → Prop) : S → List L → S → Prop
  | nil (s : S) : Run step s [] s
  | cons {s t u : S} {l : L} {ls : List L} : step s l t → Run step t ls u → Run step s (l :: ls) u

variable {step : S → L → S → Prop}

theorem Run.single {s t : S} {l : L} (h : step s l t) : Run step s [l] t := .cons h (.nil t)

theorem Run.append {s t u : S} {ls ms : List L} (h : Run step s ls t) (g : Run step t ms u) :
    Run step s (ls ++ ms) u := by
  induction h with
  | nil s => exact g
  | cons hs _ ih => exact .cons hs (ih g)

theorem Run.snoc {s t u : S} {l : L} {ls : List L} (h : Run step s ls t) (g : step t l u) :
    Run step s (ls ++ [l]) u := h.append (.single g)

@[simp] theorem run_nil {s t : S} : Run step s [] t ↔ s = t :=
  ⟨fun h => by cases h; rfl, fun h => h ▸ .nil s⟩

@[simp] theorem run_cons {s u : S} {l : L} {ls : List L} :
    Run step s (l :: ls) u ↔ ∃ t, step s l t ∧ Run step t ls u := by
  constructor
  · intro h
    cases h with
    | cons hs ht => exact ⟨_, hs, ht⟩
  · rintro ⟨t, hs, ht⟩
    exact .cons hs ht

theorem run_append {s u : S} {ls ms : List L} :
    Run step s (ls ++ ms) u ↔ ∃ t, Run step s ls t ∧ Run step t ms u := by
  constructor
  · intro h
    induction ls generalizing s with
    | nil => exact ⟨s, .nil s, h⟩
    | cons l ls ih =>
      obtain ⟨r, hr, ht⟩ := run_cons.mp h
      obtain ⟨t, hl, hm⟩ := ih ht
      exact ⟨t, .cons hr hl, hm⟩
  · rintro ⟨t, h, g⟩
    exact h.append g

/-- The induction every run-level result uses: a property of the history and
the state it led to holds at the end if each step extends it. -/
theorem Run.history {P : List L → S → Prop} {s t : S} {ls : List L} (h : Run step s ls t)
    (start : P [] s)
    (next : ∀ {ms : List L} {u v : S} {l : L}, P ms u → step u l v → P (ms ++ [l]) v) :
    P ls t := by
  suffices hs : ∀ ms, P ms s → P (ms ++ ls) t from hs [] start
  clear start
  induction h with
  | nil s => intro ms hm; simpa using hm
  | cons hs _ ih =>
    intro ms hm
    simpa [List.append_assoc] using ih _ (next hm hs)

theorem Run.invariant {P : S → Prop} {s t : S} {ls : List L} (h : Run step s ls t) (start : P s)
    (next : ∀ {u v : S} {l : L}, P u → step u l v → P v) : P t :=
  h.history (P := fun _ u => P u) start fun hp hs => next hp hs

theorem Run.step_of_mem {s t : S} {l : L} {ls : List L} (h : Run step s ls t) (hl : l ∈ ls) :
    ∃ u v, step u l v := by
  obtain ⟨ls₁, ls₂, rfl⟩ := List.append_of_mem hl
  obtain ⟨u, -, hu⟩ := run_append.mp h
  obtain ⟨v, hv, -⟩ := run_cons.mp hu
  exact ⟨u, v, hv⟩

def Always (step : S → L → S → Prop) (P : S → Prop) (s : S) (ls : List L) : Prop :=
  ∀ ls₁ ls₂ t, ls = ls₁ ++ ls₂ → Run step s ls₁ t → P t

def Each (step : S → L → S → Prop) (Q : S → L → Prop) (s : S) (ls : List L) : Prop :=
  ∀ ls₁ l ls₂ t, ls = ls₁ ++ l :: ls₂ → Run step s ls₁ t → Q t l

theorem Run.unique (det : ∀ s l t u, step s l t → step s l u → t = u) {s t u : S}
    {ls : List L} (h : Run step s ls t) (g : Run step s ls u) : t = u := by
  induction h with
  | nil s => exact run_nil.mp g
  | cons hs _ ih =>
    obtain ⟨v, hv, g⟩ := run_cons.mp g
    rw [det _ _ _ _ hs hv] at ih
    exact ih g

/-- The last step of a run is taken from the one state the others lead to. -/
theorem Run.each_snoc (det : ∀ s l t u, step s l t → step s l u → t = u) {Q : S → L → Prop}
    {s t : S} {l : L} {ls : List L} (h : Run step s ls t) :
    Each step Q s (ls ++ [l]) ↔ Each step Q s ls ∧ Q t l := by
  constructor
  · intro he
    exact ⟨fun ls₁ m ls₂ u hls hr => he ls₁ m (ls₂ ++ [l]) u (by simp [hls]) hr, he ls l [] t rfl h⟩
  · rintro ⟨he, hq⟩ ls₁ m ls₂ u hls hr
    obtain rfl | ⟨ls₂, k, rfl⟩ := ls₂.eq_nil_or_concat
    · obtain ⟨rfl, hm⟩ := List.append_inj' hls rfl
      cases hm
      rwa [hr.unique det h]
    · have hls' : ls ++ [l] = (ls₁ ++ m :: ls₂) ++ [k] := by simpa using hls
      obtain ⟨rfl, -⟩ := List.append_inj' hls' rfl
      exact he ls₁ m ls₂ u rfl hr

theorem Each.always {P : S → Prop} {Q : S → L → Prop} {s : S} {ls : List L}
    (h : Each step Q s ls) (start : P s)
    (keeps : ∀ {t u : S} {l : L}, P t → Q t l → step t l u → P u) : Always step P s ls := by
  suffices hs : ∀ ls₁ t, Run step s ls₁ t → (∃ ls₂, ls = ls₁ ++ ls₂) → P t from
    fun ls₁ ls₂ t he hr => hs ls₁ t hr ⟨ls₂, he⟩
  intro ls₁
  induction ls₁ using List.reverseRecOn with
  | nil =>
    intro t hr _
    rwa [← run_nil.mp hr]
  | append_singleton ls₁ l ih =>
    rintro t hr ⟨ls₂, he⟩
    obtain ⟨u, hu, ht⟩ := run_append.mp hr
    obtain ⟨v, hv, ht⟩ := run_cons.mp ht
    obtain rfl := run_nil.mp ht
    have he' : ls = ls₁ ++ l :: ls₂ := by simpa using he
    exact keeps (ih u hu ⟨_, he'⟩) (h ls₁ l ls₂ u he' hu) hv

/-- A property holds all along the runs of a deterministic system whose steps
meet a condition, and along no others if each step that does not meet it
breaks the property. -/
theorem Run.always_iff {P : S → Prop} {Q : S → L → Prop} {s v : S} {ls : List L}
    (h : Run step s ls v) (det : ∀ s l t u, step s l t → step s l u → t = u)
    (start : P s) (keeps : ∀ {t u : S} {l : L}, P t → Q t l → step t l u → P u)
    (breaks : ∀ {t u : S} {l : L}, step t l u → P u → Q t l) :
    Always step P s ls ↔ Each step Q s ls := by
  refine ⟨fun ha ls₁ l ls₂ t he hr => ?_, fun he => he.always start keeps⟩
  rw [he] at h
  obtain ⟨t', ht', hv⟩ := run_append.mp h
  obtain ⟨u, hu, -⟩ := run_cons.mp hv
  obtain rfl := ht'.unique det hr
  exact breaks hu (ha (ls₁ ++ [l]) ls₂ u (by simp [he]) (ht'.snoc hu))

/-- Everything in a trace came where it may, given what was before it. -/
def Throughout {N : Type} (P : List N → N → Prop) (t : List N) : Prop :=
  ∀ t₁ n t₂, t = t₁ ++ n :: t₂ → P t₁ n

theorem throughout_nil {N : Type} {P : List N → N → Prop} : Throughout P [] := by
  intro t₁ n t₂ h
  simp at h

theorem throughout_snoc {N : Type} {P : List N → N → Prop} {t : List N} {n : N} :
    Throughout P (t ++ [n]) ↔ Throughout P t ∧ P t n := by
  constructor
  · intro h
    exact ⟨fun t₁ m t₂ ht => h t₁ m (t₂ ++ [n]) (by simp [ht]), h t n [] rfl⟩
  · rintro ⟨h, hn⟩ t₁ m t₂ ht
    obtain rfl | ⟨t₂, k, rfl⟩ := t₂.eq_nil_or_concat
    · obtain ⟨rfl, hm⟩ := List.append_inj' ht rfl
      cases hm
      exact hn
    · have ht' : t ++ [n] = (t₁ ++ m :: t₂) ++ [k] := by simpa using ht
      obtain ⟨rfl, -⟩ := List.append_inj' ht' rfl
      exact h t₁ m t₂ rfl

theorem throughout_append {N : Type} {P : List N → N → Prop} {t ns : List N} (h : Throughout P t)
    (hn : ∀ t', ∀ n ∈ ns, P t' n) : Throughout P (t ++ ns) := by
  induction ns generalizing t with
  | nil => simpa using h
  | cons n ns ih =>
    rw [List.append_cons]
    exact ih (throughout_snoc.mpr ⟨h, hn t n (by simp)⟩) fun t' m hm => hn t' m (by simp [hm])

/-- The run a deterministic system makes on a list of inputs, with the output
of each step; `none` when some input cannot be taken. -/
def replay {I O : Type} (next : S → I → Option (S × O)) : List I → S → Option (S × List (I × O))
  | [], s => some (s, [])
  | i :: is, s => do
    let (t, o) ← next s i
    let (u, ls) ← replay next is t
    some (u, (i, o) :: ls)

theorem replay_run {I O : Type} {next : S → I → Option (S × O)} {step : S → I × O → S → Prop}
    (sound : ∀ s i o t, next s i = some (t, o) → step s (i, o) t)
    {is : List I} {s t : S} {ls : List (I × O)} (h : replay next is s = some (t, ls)) :
    Run step s ls t := by
  induction is generalizing s ls with
  | nil =>
    cases h
    exact .nil _
  | cons i is ih =>
    simp only [replay, Option.bind_eq_bind, Option.bind_eq_some_iff, Option.some.injEq,
      Prod.mk.injEq] at h
    obtain ⟨⟨r, o⟩, hn, ⟨u, ms⟩, hr, rfl, rfl⟩ := h
    exact .cons (sound _ _ _ _ hn) (ih hr)

theorem replay_inputs {I O : Type} {next : S → I → Option (S × O)} {is : List I} {s t : S}
    {ls : List (I × O)} (h : replay next is s = some (t, ls)) : ls.map Prod.fst = is := by
  induction is generalizing s ls with
  | nil =>
    cases h
    rfl
  | cons i is ih =>
    simp only [replay, Option.bind_eq_bind, Option.bind_eq_some_iff, Option.some.injEq,
      Prod.mk.injEq] at h
    obtain ⟨⟨r, o⟩, -, ⟨u, ms⟩, hr, rfl, rfl⟩ := h
    rw [List.map_cons, ih hr]

/-- A run on given inputs, by computing something of where it ends. -/
theorem replayed {I O V : Type} (next : S → I → Option (S × O)) (step : S → I × O → S → Prop)
    (sound : ∀ s i o t, next s i = some (t, o) → step s (i, o) t)
    (s : S) (is : List I) (v : V) (f : S × List (I × O) → V)
    (h : (replay next is s).map f = some v) :
    ∃ ls t, Run step s ls t ∧ ls.map Prod.fst = is ∧ f (t, ls) = v := by
  obtain ⟨⟨t, ls⟩, hr, hv⟩ := Option.map_eq_some_iff.mp h
  exact ⟨ls, t, replay_run sound hr, replay_inputs hr, hv⟩

theorem Each.cons {Q : S → L → Prop} {s : S} {l : L} {ls : List L} (h : Q s l)
    (next : ∀ t, step s l t → Each step Q t ls) : Each step Q s (l :: ls) := by
  intro ls₁ m ls₂ u he hr
  cases ls₁ with
  | nil =>
    obtain ⟨rfl, -⟩ := List.cons.inj he
    obtain rfl := run_nil.mp hr
    exact h
  | cons k ls₁ =>
    obtain ⟨rfl, htl⟩ := List.cons.inj he
    obtain ⟨t, ht, hr⟩ := run_cons.mp hr
    exact next t ht ls₁ m ls₂ u htl hr

def checks {I O : Type} (next : S → I → Option (S × O)) (q : S → I → Bool) : List I → S → Bool
  | [], _ => true
  | i :: is, s => q s i && (next s i).all fun r => checks next q is r.1

theorem each_of_checks {I O : Type} {next : S → I → Option (S × O)} {step : S → I × O → S → Prop}
    {q : S → I → Bool} {Q : S → I × O → Prop}
    (complete : ∀ s i o t, step s (i, o) t → next s i = some (t, o))
    (hq : ∀ s i o, q s i = true → Q s (i, o)) {ls : List (I × O)} {s : S}
    (h : checks next q (ls.map Prod.fst) s = true) : Each step Q s ls := by
  induction ls generalizing s with
  | nil => exact fun ls₁ l ls₂ t he => by simp at he
  | cons l ls ih =>
    obtain ⟨hql, hc⟩ : q s l.1 = true ∧ (next s l.1).all _ = true := by
      simpa only [List.map_cons, checks, Bool.and_eq_true] using h
    refine .cons (hq s l.1 l.2 hql) fun t ht => ih ?_
    rw [complete s l.1 l.2 t ht] at hc
    exact hc

end SrtWhep.Library.Runs
