import SrtWhep.Library.Runs
import SrtWhep.Supervisor

namespace SrtWhep.PipelineSlot

open Library.Runs

inductive Attempt
  | building
  | playing (pipeline : Nat)
  | returning (ok : Bool)
deriving DecidableEq, Repr

namespace Attempt

def held : Attempt → List Nat
  | playing pipeline => [pipeline]
  | _ => []

/-- Whether `init` can return like this: an error comes from before its pipeline
was set to Playing, or from the lock. -/
def returns : Attempt → Bool → Bool
  | building, ok => !ok
  | returning ok, ok' => ok == ok'
  | playing _, _ => false

end Attempt

/-- The supervisor over the pipeline slot of the shared state. A pipeline that
was set to Playing and not to Null is held by `init`, is in the slot, or is
lost: nobody who would set it to Null has a handle to it. -/
structure State where
  supervisor : Supervisor
  attempt : Attempt
  slot : Option Nat
  lost : List Nat
  made : Nat
deriving DecidableEq, Repr

/-- A step of the supervisor, where `cleanedUp` tells whether `clean_up` got the
lock, or of `init`: it sets its pipeline to Playing, and then locks the state to
store it. -/
inductive Input
  | wake (w : Wake)
  | play
  | store (locked : Bool)
deriving DecidableEq, Repr

namespace State

def start : State := ⟨.spawn, .building, none, [], 0⟩

def phase (s : State) : Phase := s.supervisor.phase

def live (s : State) : List Nat := s.lost ++ s.slot.toList ++ s.attempt.held

/-- What a step of the supervisor does to the slot; `none` where the call it
waits for does not return like this. -/
def wake (s : State) : Wake → Option State
  | .initialized ok =>
    if s.attempt.returns ok then some { s with attempt := .building } else none
  | .cleanedUp true => some { s with slot := none }
  | _ => some s

def next (s : State) : Input → Option State
  | .wake w => do
    let (supervisor, _) ← s.supervisor.step w
    let s ← s.wake w
    some { s with supervisor }
  | .play =>
    if s.phase = .initializing ∧ s.attempt = .building then
      some { s with attempt := .playing s.made, made := s.made + 1 }
    else none
  | .store locked =>
    match s.attempt with
    | .playing n =>
      -- Storing drops the handle that was in the slot.
      if locked then
        some { s with attempt := .returning true, slot := some n, lost := s.lost ++ s.slot.toList }
      else some { s with attempt := .returning false, lost := s.lost ++ [n] }
    | _ => none

def Step (s : State) (i : Input) (t : State) : Prop := s.next i = some t

inductive Takes (s : State) : Input → State → Prop
  | play : s.phase = .initializing → s.attempt = .building →
      Takes s .play { s with attempt := .playing s.made, made := s.made + 1 }
  | stored {n} : s.attempt = .playing n → Takes s (.store true)
      { s with attempt := .returning true, slot := some n, lost := s.lost ++ s.slot.toList }
  | unstored {n} : s.attempt = .playing n →
      Takes s (.store false) { s with attempt := .returning false, lost := s.lost ++ [n] }
  | returned {ok supervisor calls} :
      s.supervisor.step (.initialized ok) = some (supervisor, calls) → s.attempt.held = [] →
      Takes s (.wake (.initialized ok)) { s with attempt := .building, supervisor }
  | cleaned {supervisor calls} : s.supervisor.step (.cleanedUp true) = some (supervisor, calls) →
      Takes s (.wake (.cleanedUp true)) { s with slot := none, supervisor }
  | other {w supervisor calls} : s.supervisor.step w = some (supervisor, calls) →
      w ≠ .cleanedUp true → (∀ ok, w ≠ .initialized ok) → Takes s (.wake w) { s with supervisor }

theorem Step.takes {s t : State} {i : Input} (h : s.Step i t) : s.Takes i t := by
  cases i with
  | wake w =>
    simp only [Step, next, Option.bind_eq_bind, Option.bind_eq_some_iff, Option.some.injEq] at h
    obtain ⟨⟨v, calls⟩, hv, u, hu, rfl⟩ := h
    cases w with
    | initialized ok =>
      simp only [wake, Option.ite_none_right_eq_some, Option.some.injEq] at hu
      obtain ⟨hr, rfl⟩ := hu
      refine .returned hv ?_
      cases ha : s.attempt with
      | playing n => simp [ha, Attempt.returns] at hr
      | _ => rfl
    | cleanedUp ok =>
      cases ok with
      | true =>
        cases hu
        exact .cleaned hv
      | false =>
        cases hu
        exact .other hv (by simp) (by simp)
    | _ =>
      cases hu
      exact .other hv (by simp) (by simp)
  | play =>
    simp only [Step, next, Option.ite_none_right_eq_some, Option.some.injEq] at h
    obtain ⟨⟨hp, ha⟩, rfl⟩ := h
    exact .play hp ha
  | store locked =>
    simp only [Step, next] at h
    split at h
    next n ha =>
      cases locked with
      | true =>
        cases h
        exact .stored ha
      | false =>
        cases h
        exact .unstored ha
    next => cases h

/-- At most one pipeline is live, and none once the supervisor has stopped. -/
def AtMostOne (s : State) : Prop := s.live.length ≤ 1 ∧ (s.phase = .stopped → s.live = [])

end State

def Cleaned (t : List Input) : Prop :=
  ∀ t₁ t₂, t = t₁ ++ .store true :: t₂ → .wake (.cleanedUp true) ∈ t₂

/-- The locks were there when they were needed: every `init` that had set its
pipeline to Playing got the lock to store it, and every pipeline stored was
followed by a `clean_up` that got the lock. -/
def Held (t : List Input) : Prop := .store false ∉ t ∧ Cleaned t

theorem cleaned_nil : Cleaned [] := by
  intro t₁ t₂ h
  simp at h

theorem cleaned_snoc {t : List Input} {i : Input} :
    Cleaned (t ++ [i]) ↔ i = .wake (.cleanedUp true) ∨ Cleaned t ∧ i ≠ .store true := by
  constructor
  · intro h
    by_cases hi : i = .wake (.cleanedUp true)
    · exact .inl hi
    · refine .inr ⟨fun t₁ t₂ ht => ?_, fun hs => ?_⟩
      · have hm := h t₁ (t₂ ++ [i]) (by simp [ht])
        simpa [Ne.symm hi] using hm
      · simpa using h t [] (by rw [hs])
  · rintro (rfl | ⟨h, hi⟩) t₁ t₂ ht
    · obtain rfl | ⟨t₂, k, rfl⟩ := t₂.eq_nil_or_concat
      · have := (List.append_inj' ht rfl).2
        simp at this
      · have ht' : t ++ [.wake (.cleanedUp true)] = (t₁ ++ .store true :: t₂) ++ [k] := by
          simpa using ht
        have hk := (List.append_inj' ht' rfl).2
        simp [(List.singleton_inj.mp hk).symm]
    · obtain rfl | ⟨t₂, k, rfl⟩ := t₂.eq_nil_or_concat
      · exact absurd (List.singleton_inj.mp (List.append_inj' ht rfl).2) hi
      · have ht' : t ++ [i] = (t₁ ++ .store true :: t₂) ++ [k] := by simpa using ht
        have hm := h t₁ t₂ (List.append_inj' ht' rfl).1
        simp [hm]

section Phases

variable {v v' : Supervisor} {w : Wake} {calls : List Call} {ok : Bool}

theorem step_initializing (h : v.step w = some (v', calls)) (hp : v.phase = .initializing) :
    ∃ ok, w = .initialized ok := by
  obtain ⟨phase, failures⟩ := v
  obtain rfl : phase = .initializing := hp
  cases w with
  | initialized ok => exact ⟨ok, rfl⟩
  | _ => cases h

theorem step_initialized (h : v.step (.initialized ok) = some (v', calls)) :
    v'.phase ≠ .stopped := by
  obtain ⟨phase, failures⟩ := v
  cases phase with
  | initializing => cases ok <;> cases h <;> simp
  | _ => cases h

theorem step_cleanedUp (h : v.step (.cleanedUp ok) = some (v', calls)) :
    v'.phase ≠ .stopped := by
  obtain ⟨phase, failures⟩ := v
  cases phase with
  | cleaning outcome =>
    cases h
    simp
  | _ => cases h

end Phases

namespace State

variable {s t : State} {i : Input} {ls : List Input}

theorem run_building (h : Run Step start ls s) :
    s.phase ≠ .initializing → s.attempt = .building := by
  refine h.invariant (P := fun s => s.phase ≠ .initializing → s.attempt = .building)
    (fun _ => rfl) ?_
  intro u v i hu hv hp
  cases hv.takes with
  | play hi _ => exact absurd hi hp
  | stored ha =>
    rw [hu hp] at ha
    cases ha
  | unstored ha =>
    rw [hu hp] at ha
    cases ha
  | returned => rfl
  | cleaned hs =>
    refine hu fun hi => ?_
    obtain ⟨ok, he⟩ := step_initializing hs hi
    cases he
  | other hs _ hn =>
    refine hu fun hi => ?_
    obtain ⟨ok, he⟩ := step_initializing hs hi
    exact hn ok he

/-- The slot is empty exactly when the last pipeline stored was cleaned up, and
an `init` that did not get the lock has lost its pipeline. -/
theorem run_slot (h : Run Step start ls s) :
    (s.slot = none ↔ Cleaned ls) ∧ (s.lost = [] → .store false ∉ ls) := by
  refine h.history (P := fun ls s => (s.slot = none ↔ Cleaned ls) ∧
    (s.lost = [] → .store false ∉ ls)) ⟨by simp [start, cleaned_nil], by simp⟩ ?_
  intro ls u v i ⟨hs, hl⟩ hv
  rw [cleaned_snoc]
  cases hv.takes with
  | play => exact ⟨by simpa using hs, by simpa using hl⟩
  | stored ha => exact ⟨by simp, fun he => by simpa using hl (List.append_eq_nil_iff.mp he).1⟩
  | unstored ha => exact ⟨by simpa using hs, by simp⟩
  | returned => exact ⟨by simpa using hs, by simpa using hl⟩
  | cleaned => exact ⟨by simp, by simpa using hl⟩
  | other _ hn => exact ⟨by simpa [hn] using hs, by simpa using hl⟩

/-- A step that sets a pipeline to Playing or ends the loop. -/
def Critical (i : Input) (t : State) : Prop := i = .play ∨ t.phase = .stopped

def HeldWhenCritical (ls : List Input) : Prop :=
  ∀ ls₁ i ls₂ s t, ls = ls₁ ++ i :: ls₂ → Run Step start ls₁ s → s.Step i t → Critical i t →
    Held ls₁

theorem step_stopped (hb : s.phase ≠ .initializing → s.attempt = .building) (h : s.Step i t)
    (hp : t.phase = .stopped) : s.phase ≠ .initializing ∧ t.live = s.live := by
  have hinit : ∀ {n}, s.attempt = .playing n → s.phase = .initializing := by
    intro n ha
    by_contra hne
    rw [hb hne] at ha
    cases ha
  cases h.takes with
  | play hi _ => cases hi.symm.trans hp
  | stored ha => cases (hinit ha).symm.trans hp
  | unstored ha => cases (hinit ha).symm.trans hp
  | returned hs => exact absurd hp (step_initialized hs)
  | cleaned hs => exact absurd hp (step_cleanedUp hs)
  | other hs _ hn =>
    refine ⟨fun hi => ?_, rfl⟩
    obtain ⟨ok, he⟩ := step_initializing hs hi
    exact hn ok he

theorem critical_live (hb : s.phase ≠ .initializing → s.attempt = .building) (h : s.Step i t)
    (hc : Critical i t) (ht : t.AtMostOne) : s.lost = [] ∧ s.slot = none := by
  have hsplit : s.live = [] → s.lost = [] ∧ s.slot = none := by
    intro hl
    simp only [live, List.append_eq_nil_iff, Option.toList_eq_nil_iff] at hl
    exact hl.1
  obtain rfl | hp := hc
  · cases h.takes with
    | play hi ha =>
      have hle : (s.lost ++ s.slot.toList ++ [s.made]).length ≤ 1 := ht.1
      simp only [List.length_append, List.length_singleton] at hle
      refine ⟨List.length_eq_zero_iff.mp (by omega), ?_⟩
      exact Option.toList_eq_nil_iff.mp (List.length_eq_zero_iff.mp (by omega))
  · exact hsplit ((step_stopped hb h hp).2 ▸ ht.2 hp)

inductive Kept (ls : List Input) (s : State) : Prop
  | free : .store false ∉ ls → s.lost = [] → s.slot = none → Kept ls s
  | full : .store false ∉ ls → s.lost = [] → s.attempt.held = [] → Kept ls s
  | missed {n} : .store false ∈ ls → s.lost = [n] → s.slot = none → s.attempt.held = [] → Kept ls s

theorem Kept.length_le (h : Kept ls s) : s.live.length ≤ 1 := by
  cases h with
  | free _ hl hs =>
    rw [live, hl, hs]
    cases s.attempt <;> simp [Attempt.held]
  | full _ hl hh =>
    rw [live, hl, hh]
    cases s.slot <;> simp
  | missed _ hl hs hh => simp [live, hl, hs, hh]

theorem Kept.held (h : Kept ls s) (hh : Held ls) (hs : s.slot = none ↔ Cleaned ls) :
    .store false ∉ ls ∧ s.lost = [] ∧ s.slot = none := by
  refine ⟨hh.1, ?_, hs.mpr hh.2⟩
  cases h with
  | free _ hl _ => exact hl
  | full _ hl _ => exact hl
  | missed hm => exact absurd hm hh.1

theorem Kept.step (h : Kept ls s) (hs : s.slot = none ↔ Cleaned ls)
    (hc : Critical i t → Held ls) (hst : s.Step i t) : Kept (ls ++ [i]) t := by
  cases hst.takes with
  | play =>
    obtain ⟨hn, hl, hsl⟩ := h.held (hc (.inl rfl)) hs
    exact .free (by simpa using hn) hl hsl
  | stored ha =>
    cases h with
    | free hn hl hsl => exact .full (by simpa using hn) (by simp [hl, hsl]) rfl
    | full _ _ hh => simp [ha, Attempt.held] at hh
    | missed _ _ _ hh => simp [ha, Attempt.held] at hh
  | @unstored n ha =>
    cases h with
    | free hn hl hsl => exact @Kept.missed _ _ n (by simp) (by simp [hl]) hsl rfl
    | full _ _ hh => simp [ha, Attempt.held] at hh
    | missed _ _ _ hh => simp [ha, Attempt.held] at hh
  | returned =>
    cases h with
    | free hn hl hsl => exact .free (by simpa using hn) hl hsl
    | full hn hl _ => exact .full (by simpa using hn) hl rfl
    | missed hm hl hsl _ => exact .missed (by simpa using hm) hl hsl rfl
  | cleaned =>
    cases h with
    | free hn hl _ => exact .free (by simpa using hn) hl rfl
    | full hn hl _ => exact .free (by simpa using hn) hl rfl
    | missed hm hl _ hh => exact .missed (by simpa using hm) hl rfl hh
  | other =>
    cases h with
    | free hn hl hsl => exact .free (by simpa using hn) hl hsl
    | full hn hl hh => exact .full (by simpa using hn) hl hh
    | missed hm hl hsl hh => exact .missed (by simpa using hm) hl hsl hh

theorem run_kept (h : Run Step start ls s) (hc : HeldWhenCritical ls) :
    Kept ls s ∧ s.AtMostOne := by
  refine (h.history (P := fun ls s => Run Step start ls s ∧
    (HeldWhenCritical ls → Kept ls s ∧ s.AtMostOne)) ⟨.nil _, fun _ => ?_⟩ ?_).2 hc
  · exact ⟨.free (by simp) rfl rfl, Nat.zero_le _, fun _ => rfl⟩
  · rintro ls u v i ⟨hr, hp⟩ hv
    refine ⟨hr.snoc hv, fun hc => ?_⟩
    have hlast : Critical i v → Held ls := fun hcr => hc ls i [] u v rfl hr hv hcr
    have hbefore : HeldWhenCritical ls :=
      fun ls₁ j ls₂ s t he => hc ls₁ j (ls₂ ++ [i]) s t (by simp [he])
    have hk := (hp hbefore).1
    have hk' := hk.step (run_slot hr).1 hlast hv
    refine ⟨hk', hk'.length_le, fun hst => ?_⟩
    obtain ⟨hne, hlive⟩ := step_stopped (run_building hr) hv hst
    obtain ⟨-, hl, hsl⟩ := hk.held (hlast (.inr hst)) (run_slot hr).1
    rw [hlive, live, hl, hsl, run_building hr hne]
    rfl

/-- At most one pipeline is live all along a run, and none at its end, exactly
when every `init` that had set its pipeline to Playing got the lock to store it
and a `clean_up` got the lock after it, before the next pipeline is set to
Playing and before the loop ends. -/
theorem one_live_pipeline_iff {ls : List Input} {s : State} (h : Run Step start ls s) :
    Always Step AtMostOne start ls ↔ HeldWhenCritical ls := by
  constructor
  · rintro ha ls₁ i ls₂ u v rfl hu hv hc
    have hv' := ha (ls₁ ++ [i]) ls₂ v (by simp) (hu.snoc hv)
    obtain ⟨hl, hs⟩ := critical_live (run_building hu) hv hc hv'
    exact ⟨(run_slot hu).2 hl, (run_slot hu).1.mp hs⟩
  · rintro hc ls₁ ls₂ t rfl ht
    exact (run_kept ht fun l₁ i l₂ s t he => hc l₁ i (l₂ ++ ls₂) s t (by simp [he])).2

/-- A run whose pipeline is stored and cleaned up, and which is then shut down. -/
theorem one_live_pipeline_iff_shutdown : ∃ ls s, Run Step start ls s ∧ s.phase = .stopped ∧
    s.made = 1 ∧ (Always Step AtMostOne start ls ↔ HeldWhenCritical ls) := by
  have h : Run Step start [.wake (.checked false), .wake (.received false), .play, .store true,
      .wake (.initialized true), .wake (.ran true), .wake (.cleanedUp true),
      .wake (.answered none), .wake .shutdownSeen] ⟨⟨.stopped, 0⟩, .building, none, [], 1⟩ :=
    .cons rfl (.cons rfl (.cons rfl (.cons rfl (.cons rfl (.cons rfl (.cons rfl
      (.cons rfl (.single rfl))))))))
  exact ⟨_, _, h, rfl, rfl, one_live_pipeline_iff h⟩

/-- An `init` that misses the lock loses its playing pipeline, and the next one
sets another to Playing. -/
theorem two_live_pipelines : ¬ ∀ ls s, Run Step start ls s → s.AtMostOne := by
  intro h
  have hr : Run Step start [.wake (.checked false), .wake (.received false), .play, .store false,
      .wake (.initialized false), .wake (.cleanedUp true), .wake (.answered (some true)),
      .wake .slept, .wake (.checked false), .wake (.received false), .play]
      ⟨⟨.initializing, 1⟩, .playing 1, none, [0], 2⟩ :=
    .cons rfl (.cons rfl (.cons rfl (.cons rfl (.cons rfl (.cons rfl (.cons rfl
      (.cons rfl (.cons rfl (.cons rfl (.single rfl))))))))))
  exact absurd (h _ _ hr).1 (by decide)

end State

end SrtWhep.PipelineSlot
