import SrtWhep.Messages

namespace SrtWhep.Stream

def demux : String := "demux"
def videoQueue : String := "video-queue"
def audioQueue : String := "audio-queue"
def outputTeeVideo : String := "output_tee_video"
def outputTeeAudio : String := "output_tee_audio"
def srtSource : String := "srt_source"

def whipSinkStem : String := "whip-sink"
def videoDecoderStem : String := "avdec-h264"

def videoQueueName (id : String) : String := videoQueue ++ "-" ++ id
def audioQueueName (id : String) : String := audioQueue ++ "-" ++ id
def whipSinkName (id : String) : String := whipSinkStem ++ "-" ++ id
def videoDecoderName (id : String) : String := videoDecoderStem ++ "-" ++ id

def stripPrefix (s start : String) : Option String :=
  if start.toList <+: s.toList then some (.ofList (s.toList.drop start.toList.length)) else none

/-- The stems of the elements a branch has, in the order they are tried. -/
def stems : List String := [whipSinkStem, videoQueue, audioQueue, videoDecoderStem]

def branchIdFromName (name : String) : Option String :=
  stems.findSome? fun stem => (stripPrefix name stem).bind (stripPrefix · "-")

theorem stripPrefix_eq_some {s start rest : String} :
    stripPrefix s start = some rest ↔ s = start ++ rest := by
  unfold stripPrefix
  constructor
  · intro h
    split at h
    next hp =>
      obtain ⟨t, ht⟩ := hp
      obtain rfl := Option.some.inj h
      refine String.toList_injective ?_
      simp [← ht]
    next => cases h
  · rintro rfl
    simp

theorem starts_append (s t : String) : s.toList <+: (s ++ t).toList := by
  rw [String.toList_append]
  exact List.prefix_append _ _

theorem starts_of_append_eq {s t s' t' : String} (h : s ++ t = s' ++ t') :
    s.toList <+: s'.toList ∨ s'.toList <+: s.toList := by
  have hs' : s'.toList <+: (s ++ t).toList := h ▸ starts_append s' t'
  exact List.prefix_or_prefix_of_prefix (starts_append s t) hs'

theorem stems_apart : ∀ stem ∈ stems, ∀ stem' ∈ stems,
    (stem ++ "-").toList <+: (stem' ++ "-").toList → stem = stem' := by
  decide

theorem branchName_inj {stem stem' id id' : String} (hs : stem ∈ stems) (hs' : stem' ∈ stems)
    (h : stem ++ "-" ++ id = stem' ++ "-" ++ id') : stem = stem' ∧ id = id' := by
  have he : stem = stem' := by
    obtain hp | hp := starts_of_append_eq h
    · exact stems_apart stem hs stem' hs' hp
    · exact (stems_apart stem' hs' stem hs hp).symm
  subst he
  exact ⟨rfl, (String.append_right_inj _).mp h⟩

theorem branchIdFromName_eq_some {name id : String} :
    branchIdFromName name = some id ↔ ∃ stem ∈ stems, name = stem ++ "-" ++ id := by
  have hstrip : ∀ stem id, (stripPrefix name stem).bind (stripPrefix · "-") = some id ↔
      name = stem ++ "-" ++ id := by
    intro stem id
    simp only [Option.bind_eq_some_iff, stripPrefix_eq_some]
    constructor
    · rintro ⟨rest, rfl, rfl⟩
      exact String.append_assoc.symm
    · rintro rfl
      exact ⟨"-" ++ id, String.append_assoc, rfl⟩
  constructor
  · intro h
    obtain ⟨stem, hm, he⟩ := List.exists_of_findSome?_eq_some h
    exact ⟨stem, hm, (hstrip stem id).mp he⟩
  · rintro ⟨stem, hm, hn⟩
    cases hf : branchIdFromName name with
    | none =>
      have hnone := List.findSome?_eq_none_iff.mp hf stem hm
      rw [(hstrip stem id).mpr hn] at hnone
      cases hnone
    | some id' =>
      obtain ⟨stem', hm', he⟩ := List.exists_of_findSome?_eq_some hf
      have hn' := (hstrip stem' id').mp he
      rw [(branchName_inj hm' hm (hn'.symm.trans hn)).2]

def branchNames : List (String → String) :=
  [whipSinkName, videoQueueName, audioQueueName, videoDecoderName]

theorem mem_branchNames {f : String → String} :
    f ∈ branchNames ↔ ∃ stem ∈ stems, f = fun id => stem ++ "-" ++ id := by
  have hmap : branchNames = stems.map fun stem id => stem ++ "-" ++ id := rfl
  rw [hmap, List.mem_map]
  exact ⟨fun ⟨stem, hs, hf⟩ => ⟨stem, hs, hf.symm⟩, fun ⟨stem, hs, hf⟩ => ⟨stem, hs, hf.symm⟩⟩

theorem branchNames_inj {f f' : String → String} {id id' : String} (hf : f ∈ branchNames)
    (hf' : f' ∈ branchNames) (h : f id = f' id') : f = f' ∧ id = id' := by
  obtain ⟨stem, hs, rfl⟩ := mem_branchNames.mp hf
  obtain ⟨stem', hs', rfl⟩ := mem_branchNames.mp hf'
  obtain ⟨rfl, rfl⟩ := branchName_inj hs hs' h
  exact ⟨rfl, rfl⟩

theorem branchIdFromName_iff {name id : String} :
    branchIdFromName name = some id ↔ ∃ f ∈ branchNames, name = f id := by
  rw [branchIdFromName_eq_some]
  constructor
  · rintro ⟨stem, hs, rfl⟩
    exact ⟨_, mem_branchNames.mpr ⟨stem, hs, rfl⟩, rfl⟩
  · rintro ⟨f, hf, rfl⟩
    obtain ⟨stem, hs, rfl⟩ := mem_branchNames.mp hf
    exact ⟨stem, hs, rfl⟩

end SrtWhep.Stream
