import SrtWhep.SessionDescription
import SrtWhep.Stream.Naming

namespace SrtWhep.Stream

/-- An element as it is asked of its factory; without a name it gets one of its
own from the factory and a running number. -/
structure Spec where
  factory : String
  name : Option String
deriving DecidableEq, Repr

def Spec.nameWith (spec : Spec) (number : Nat) : String :=
  spec.name.getD (spec.factory ++ toString number)

def initElements : List Spec :=
  [⟨"srtsrc", some srtSource⟩, ⟨"tee", some "input_tee"⟩, ⟨"queue", some "whep-queue"⟩,
    ⟨"queue", some "srt-queue"⟩, ⟨"typefind", some "typefind"⟩, ⟨"tsdemux", some demux⟩,
    ⟨"queue", some videoQueue⟩, ⟨"queue", some audioQueue⟩, ⟨"srtsink", none⟩]

/-- The video arms of the codec table differ only in the parser. -/
def videoParser (mediaType : String) : Option String :=
  if startsWith mediaType "video/x-h264" then some "h264parse"
  else if startsWith mediaType "video/x-h265" then some "h265parse"
  else none

/-- What `build_egress_chain` adds for a media type, in the order it is linked
behind the ingest queue; nothing for an unknown one. -/
def egressElements (mediaType : String) : Option (List Spec) :=
  match videoParser mediaType with
  | some parser => some [⟨parser, none⟩, ⟨"tee", some outputTeeVideo⟩, ⟨"fakesink", none⟩]
  | none =>
    if startsWith mediaType "audio" then
      some [⟨"aacparse", none⟩, ⟨"avdec_aac", none⟩, ⟨"audioconvert", none⟩,
        ⟨"audioresample", none⟩, ⟨"opusenc", none⟩, ⟨"tee", some outputTeeAudio⟩,
        ⟨"fakesink", none⟩]
    else none

def branchElements (id : String) : List Spec :=
  [⟨"whipclientsink", some (whipSinkName id)⟩, ⟨"queue", some (videoQueueName id)⟩,
    ⟨"avdec_h264", some (videoDecoderName id)⟩, ⟨"queue", some (audioQueueName id)⟩]

def Apart (factory : String) : Prop :=
  ∀ stem ∈ stems, ¬ (stem ++ "-").toList <+: factory.toList ∧
    ¬ factory.toList <+: (stem ++ "-").toList

instance (factory : String) : Decidable (Apart factory) :=
  inferInstanceAs (Decidable (∀ stem ∈ stems, _))

theorem Apart.name {factory : String} (h : Apart factory) (text : String) :
    branchIdFromName (factory ++ text) = none := by
  cases hn : branchIdFromName (factory ++ text) with
  | none => rfl
  | some id =>
    obtain ⟨stem, hs, he⟩ := branchIdFromName_eq_some.mp hn
    obtain ⟨h₁, h₂⟩ := h stem hs
    obtain hp | hp := starts_of_append_eq he
    · exact absurd hp h₂
    · exact absurd hp h₁

def Spec.IsCore (spec : Spec) : Prop :=
  match spec.name with
  | some name => branchIdFromName name = none
  | none => Apart spec.factory

instance : (spec : Spec) → Decidable spec.IsCore
  | ⟨_, some name⟩ => inferInstanceAs (Decidable (branchIdFromName name = none))
  | ⟨factory, none⟩ => inferInstanceAs (Decidable (Apart factory))

theorem Spec.IsCore.nameWith {spec : Spec} (h : spec.IsCore) (number : Nat) :
    branchIdFromName (spec.nameWith number) = none := by
  obtain ⟨factory, name⟩ := spec
  cases name with
  | some name => exact h
  | none => exact Apart.name h _

theorem initElements_core : ∀ spec ∈ initElements, spec.IsCore := by decide

theorem egressElements_core {mediaType : String} {specs : List Spec}
    (h : egressElements mediaType = some specs) : ∀ spec ∈ specs, spec.IsCore := by
  unfold egressElements videoParser at h
  split at h
  next parser hp =>
    obtain rfl := Option.some.inj h
    split at hp
    · obtain rfl := Option.some.inj hp
      decide
    · split at hp
      · obtain rfl := Option.some.inj hp
        decide
      · cases hp
  next =>
    split at h
    · obtain rfl := Option.some.inj h
      decide
    · cases h

theorem branchElements_name {id : String} {spec : Spec} (h : spec ∈ branchElements id)
    (number : Nat) : branchIdFromName (spec.nameWith number) = some id := by
  simp only [branchElements, List.mem_cons, List.not_mem_nil, or_false] at h
  rw [branchIdFromName_eq_some]
  obtain rfl | rfl | rfl | rfl := h
  · exact ⟨whipSinkStem, by decide, rfl⟩
  · exact ⟨videoQueue, by decide, rfl⟩
  · exact ⟨videoDecoderStem, by decide, rfl⟩
  · exact ⟨audioQueue, by decide, rfl⟩

end SrtWhep.Stream
