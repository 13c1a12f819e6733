import Mathlib.Data.List.DropRight
import SrtWhep.SessionDescription

namespace SrtWhep

def SessionDescription.display (d : SessionDescription) : String := d.text

def SdpOffer.display (o : SdpOffer) : String := o.sdp.display

def SdpAnswer.display (a : SdpAnswer) : String := a.sdp.display

namespace Directions

def lines (s : String) : List (List Char) :=
  (s.toList.splitOn '\n').map fun line =>
    if line.getLast? = some '\r' then line.dropLast else line

def trim (line : List Char) : List Char := (line.dropWhile isWhitespace).rdropWhile isWhitespace

def HasVersion (s : String) : Prop := (lines s).head? = some "v=0".toList

def HasLine (s field : String) : Prop := ∃ line ∈ lines s, trim line = field.toList

instance (s : String) : Decidable (HasVersion s) := inferInstanceAs (Decidable (_ = _))

instance (s field : String) : Decidable (HasLine s field) :=
  inferInstanceAs (Decidable (∃ line ∈ lines s, _))

example : HasVersion "v=0\r\na=sendonly\r\n" ∧ HasLine "v=0\n  a=sendonly\n" "a=sendonly" := by
  decide

section Lines

variable {A : Type} {x : A} {l : List A} {ls : List (List A)} {s field : String}

theorem infix_intercalate (h : l ∈ ls) : l <:+: [x].intercalate ls := by
  induction ls with
  | nil => cases h
  | cons l₁ ls ih =>
    cases ls with
    | nil =>
      obtain rfl := List.mem_singleton.mp h
      simp
    | cons l₂ ls =>
      rw [List.intercalate_cons_cons, List.append_assoc]
      obtain rfl | h := List.mem_cons.mp h
      · exact (List.prefix_append _ _).isInfix
      · exact ((ih h).trans (List.suffix_append _ _).isInfix).trans
          (List.suffix_append _ _).isInfix

theorem prefix_intercalate (h : ls.head? = some l) : l <+: [x].intercalate ls := by
  cases ls with
  | nil => cases h
  | cons l₁ ls =>
    obtain rfl := Option.some.inj h
    cases ls with
    | nil => simp
    | cons l₂ ls =>
      rw [List.intercalate_cons_cons, List.append_assoc]
      exact List.prefix_append _ _

theorem stripped_starts (line : List Char) :
    (if line.getLast? = some '\r' then line.dropLast else line) <+: line := by
  split
  · exact List.dropLast_prefix line
  · exact List.prefix_rfl

theorem HasVersion.startsWith (h : HasVersion s) : SessionDescription.startsWithV0 s = true := by
  rw [HasVersion, lines, List.head?_map, Option.map_eq_some_iff] at h
  obtain ⟨line, hl, he⟩ := h
  have hp : "v=0".toList <+: ['\n'].intercalate (s.toList.splitOn '\n') :=
    he ▸ (stripped_starts line).trans (prefix_intercalate hl)
  rw [List.intercalate_splitOn] at hp
  exact decide_eq_true hp

theorem HasLine.contains (h : HasLine s field) : contains s field = true := by
  obtain ⟨line, hl, ht⟩ := h
  obtain ⟨raw, hr, rfl⟩ := List.mem_map.mp hl
  have hi : field.toList <:+: ['\n'].intercalate (s.toList.splitOn '\n') := by
    rw [← ht]
    exact (((List.rdropWhile_prefix _ _).isInfix.trans (List.dropWhile_suffix _).isInfix).trans
      (stripped_starts raw).isInfix).trans (infix_intercalate hr)
  rw [List.intercalate_splitOn] at hi
  exact decide_eq_true hi

end Lines

/-- The lines say that the text is an offer. -/
def SaysOffer (s : String) : Prop := HasVersion s ∧ HasLine s "a=sendonly"

def SaysAnswer (s : String) : Prop :=
  HasVersion s ∧ HasLine s "a=recvonly" ∧ ¬ HasLine s "a=sendonly"

/-- The version and the directions are in the text as lines only. -/
structure Plain (s : String) : Prop where
  version : startsWith s "v=0" = true → HasVersion s
  directions : ∀ field ∈ ["a=sendonly", "a=recvonly"],
    contains s field = true → HasLine s field

section Parsing

variable {s : String}

theorem not_blank (h : startsWith s "v=0" = true) :
    SessionDescription.isEmptyOrWhitespace s = false := by
  obtain ⟨rest, hr⟩ := of_decide_eq_true h
  rw [SessionDescription.isEmptyOrWhitespace, ← hr]
  rfl

theorem valid_iff : SessionDescription.invalid s = false ↔ startsWith s "v=0" = true ∧
    (contains s "a=sendonly" = true ∨ contains s "a=recvonly" = true) := by
  simp only [SessionDescription.invalid, SessionDescription.startsWithV0,
    SessionDescription.sendonlyOrRecvonly, Bool.or_eq_false_iff, Bool.not_eq_false',
    Bool.or_eq_true]
  constructor
  · rintro ⟨⟨-, hv⟩, hd⟩
    exact ⟨hv, hd⟩
  · rintro ⟨hv, hd⟩
    exact ⟨⟨not_blank hv, hv⟩, hd⟩

theorem parses_offer : (∃ o, SdpOffer.parse s = .ok o) ↔
    startsWith s "v=0" = true ∧ contains s "a=sendonly" = true := by
  constructor
  · rintro ⟨o, ho⟩
    obtain rfl := SdpOffer.parse_eq_ok.mp ho
    exact ⟨(valid_iff.mp o.sdp.valid).1, o.sendonly⟩
  · rintro ⟨hv, hs⟩
    exact ⟨⟨⟨s, valid_iff.mpr ⟨hv, .inl hs⟩⟩, hs⟩, SdpOffer.parse_eq_ok.mpr rfl⟩

theorem parses_answer : (∃ a, SdpAnswer.parse s = .ok a) ↔ startsWith s "v=0" = true ∧
    contains s "a=recvonly" = true ∧ contains s "a=sendonly" = false := by
  constructor
  · rintro ⟨a, ha⟩
    obtain rfl := SdpAnswer.parse_eq_ok.mp ha
    have hn : contains a.sdp.text "a=sendonly" = false := a.recvonly
    obtain ⟨hv, hs | hr⟩ := valid_iff.mp a.sdp.valid
    · cases hs.symm.trans hn
    · exact ⟨hv, hr, hn⟩
  · rintro ⟨hv, hr, hn⟩
    exact ⟨⟨⟨s, valid_iff.mpr ⟨hv, .inr hr⟩⟩, hn⟩, SdpAnswer.parse_eq_ok.mpr rfl⟩

end Parsing

/-- A text is an offer, or an answer, by how it starts and what it contains: what its
lines say when the version and the directions are there as lines only. -/
theorem directions (s : String) :
    ((∃ o, SdpOffer.parse s = .ok o) ↔
      startsWith s "v=0" = true ∧ contains s "a=sendonly" = true) ∧
    ((∃ a, SdpAnswer.parse s = .ok a) ↔ startsWith s "v=0" = true ∧
      contains s "a=recvonly" = true ∧ contains s "a=sendonly" = false) ∧
    ¬ ((∃ o, SdpOffer.parse s = .ok o) ∧ ∃ a, SdpAnswer.parse s = .ok a) ∧
    (∀ o, SdpOffer.parse s = .ok o → o.display = s) ∧
    (∀ a, SdpAnswer.parse s = .ok a → a.display = s) ∧
    (SaysOffer s → ∃ o, SdpOffer.parse s = .ok o) ∧
    (SaysAnswer s → contains s "a=sendonly" = false → ∃ a, SdpAnswer.parse s = .ok a) ∧
    (Plain s → ((∃ o, SdpOffer.parse s = .ok o) ↔ SaysOffer s) ∧
      ((∃ a, SdpAnswer.parse s = .ok a) ↔ SaysAnswer s)) := by
  have hoffer : SaysOffer s → ∃ o, SdpOffer.parse s = .ok o := fun ⟨hv, hs⟩ =>
    parses_offer.mpr ⟨hv.startsWith, hs.contains⟩
  have hanswer : SaysAnswer s → contains s "a=sendonly" = false →
      ∃ a, SdpAnswer.parse s = .ok a := fun ⟨hv, hr, _⟩ hn =>
    parses_answer.mpr ⟨hv.startsWith, hr.contains, hn⟩
  refine ⟨parses_offer, parses_answer, ?_, fun o h => SdpOffer.parse_eq_ok.mp h,
    fun a h => SdpAnswer.parse_eq_ok.mp h, hoffer, hanswer, fun hp => ⟨⟨?_, hoffer⟩, ?_, ?_⟩⟩
  · rintro ⟨ho, ha⟩
    cases (parses_offer.mp ho).2.symm.trans (parses_answer.mp ha).2.2
  · intro h
    obtain ⟨hv, hs⟩ := parses_offer.mp h
    exact ⟨hp.version hv, hp.directions _ (by simp) hs⟩
  · intro h
    obtain ⟨hv, hr, hn⟩ := parses_answer.mp h
    exact ⟨hp.version hv, hp.directions _ (by simp) hr,
      fun hl => absurd (hl.contains.symm.trans hn) (by simp)⟩
  · rintro ⟨hv, hr, hn⟩
    have hs : contains s "a=sendonly" = false :=
      Bool.eq_false_iff.mpr fun hc => hn (hp.directions _ (by simp) hc)
    exact hanswer ⟨hv, hr, hn⟩ hs

/-- A session name makes an offer of a text without any direction and keeps an answer
from being one, and a version that goes on is taken for the version. -/
theorem session_name_decides :
    ¬ ((∃ o, SdpOffer.parse "v=0\r\ns=a=sendonly\r\n" = .ok o) ↔
      SaysOffer "v=0\r\ns=a=sendonly\r\n") ∧
    ¬ ((∃ a, SdpAnswer.parse "v=0\r\ns=a=sendonly\r\na=recvonly\r\n" = .ok a) ↔
      SaysAnswer "v=0\r\ns=a=sendonly\r\na=recvonly\r\n") ∧
    ¬ ((∃ o, SdpOffer.parse "v=01\r\na=sendonly\r\n" = .ok o) ↔
      SaysOffer "v=01\r\na=sendonly\r\n") := by
  rw [parses_offer, parses_offer, parses_answer]
  unfold SaysOffer SaysAnswer
  decide

end Directions

end SrtWhep
