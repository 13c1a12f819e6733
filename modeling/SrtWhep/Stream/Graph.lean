import Mathlib.Data.List.Nodup
import SrtWhep.Stream.Elements

namespace SrtWhep.Stream

structure Element where
  factory : String
  name : String
deriving DecidableEq, Repr

/-- A request pad of a tee, with the queue it was requested to be linked to. -/
structure TeePad where
  tee : String
  queue : String
  linked : Bool
deriving DecidableEq, Repr

namespace TeePad

def without (p : TeePad) (name : String) : TeePad :=
  if p.queue = name then { p with linked := false } else p

@[simp] theorem without_queue (p : TeePad) (name : String) : (p.without name).queue = p.queue := by
  unfold without
  split <;> rfl

@[simp] theorem without_tee (p : TeePad) (name : String) : (p.without name).tee = p.tee := by
  unfold without
  split <;> rfl

theorem without_of_ne {p : TeePad} {name : String} (h : p.queue ≠ name) : p.without name = p :=
  if_neg h

end TeePad

/-- The pipeline as a graph: its elements, whose names are unique, the links
between their other pads, the request pads of its tees, and the names of the
pads of its demux. -/
@[ext] structure Graph where
  elements : List Element
  links : List (String × String)
  teePads : List TeePad
  demuxPads : List String
  unique : (elements.map Element.name).Nodup
deriving DecidableEq, Repr

inductive Media
  | video
  | audio
deriving DecidableEq, Repr

def Media.kind : Media → String
  | video => "video"
  | audio => "audio"

namespace Graph

def empty : Graph := ⟨[], [], [], [], List.nodup_nil⟩

def names (g : Graph) : List String := g.elements.map Element.name

def byName (g : Graph) (name : String) : Option Element := g.elements.find? (·.name = name)

def exposes (g : Graph) (m : Media) : Bool := g.demuxPads.any (startsWith · m.kind)

def add (g : Graph) (e : Element) : Option Graph :=
  if h : e.name ∈ g.names then none
  else some { g with
    elements := g.elements ++ [e]
    unique := by
      rw [List.map_append, List.map_singleton, List.nodup_append]
      exact ⟨g.unique, by simp, by simpa [names] using h⟩ }

def fed (g : Graph) (name : String) : Bool :=
  g.links.any (·.2 = name) || g.teePads.any fun p => p.linked && p.queue = name

/-- A tee is asked for a new pad and the whip sink has as many as it takes; any
other pad links once. -/
def link (g : Graph) (source sink : String) : Option Graph :=
  match g.byName source, g.byName sink with
  | some s, some t =>
    if t.factory ≠ "whipclientsink" ∧ g.fed sink then none
    else if s.factory = "tee" then
      some { g with teePads := g.teePads ++ [⟨source, sink, true⟩] }
    else if g.links.any (·.1 = source) then none
    else some { g with links := g.links ++ [(source, sink)] }
  | _, _ => none

def teePad (g : Graph) (queue : String) : Option TeePad :=
  g.teePads.find? fun p => p.linked && p.queue = queue

def removePad (g : Graph) (p : TeePad) : Graph := { g with teePads := g.teePads.erase p }

/-- Removing an element unlinks it; a tee keeps the pad it had for it. -/
def remove (g : Graph) (name : String) : Graph where
  elements := g.elements.filter (·.name ≠ name)
  links := g.links.filter fun l => l.1 ≠ name ∧ l.2 ≠ name
  teePads := g.teePads.map (·.without name)
  demuxPads := g.demuxPads
  unique := g.unique.sublist (List.filter_sublist.map _)

def inputReady (g : Graph) : Except PipelineError Bool :=
  match g.byName demux with
  | none => .error (.fatal s!"Failed to find element: {demux}")
  | some _ =>
    let hasVideo := g.exposes .video
    let hasAudio := g.exposes .audio
    if !hasVideo && !hasAudio then .ok false
    else
      let videoReady := !hasVideo || (g.byName outputTeeVideo).isSome
      let audioReady := !hasAudio || (g.byName outputTeeAudio).isSome
      .ok (videoReady && audioReady)

end Graph

def Owns (id name : String) : Prop := branchIdFromName name = some id

instance (id name : String) : Decidable (Owns id name) := inferInstanceAs (Decidable (_ = _))

namespace Graph

def own (id : String) (g : Graph) : Graph where
  elements := g.elements.filter (Owns id ·.name)
  links := g.links.filter fun l => Owns id l.1 ∨ Owns id l.2
  teePads := g.teePads.filter (Owns id ·.queue)
  demuxPads := []
  unique := g.unique.sublist (List.filter_sublist.map _)

def rest (id : String) (g : Graph) : Graph where
  elements := g.elements.filter (¬ Owns id ·.name)
  links := g.links.filter fun l => ¬ (Owns id l.1 ∨ Owns id l.2)
  teePads := g.teePads.filter (¬ Owns id ·.queue)
  demuxPads := g.demuxPads
  unique := g.unique.sublist (List.filter_sublist.map _)

section Parts

variable {id : String} {g g' : Graph} {e : Element} {p : TeePad} {name source sink : String}

theorem mem_names : name ∈ g.names ↔ ∃ e ∈ g.elements, e.name = name := List.mem_map

theorem byName_isSome : (g.byName name).isSome ↔ name ∈ g.names := by
  simp [byName, names, List.find?_isSome]

theorem byName_eq_none : g.byName name = none ↔ name ∉ g.names := by
  rw [← byName_isSome, Bool.not_eq_true, Option.isSome_eq_false_iff, Option.isNone_iff_eq_none]

theorem byName_eq_some (h : g.byName name = some e) : e ∈ g.elements ∧ e.name = name :=
  ⟨List.mem_of_find?_eq_some h, by simpa using List.find?_some h⟩

theorem mem_own_elements : e ∈ (g.own id).elements ↔ e ∈ g.elements ∧ Owns id e.name := by
  simp [own]

theorem mem_own_names : name ∈ (g.own id).names ↔ name ∈ g.names ∧ Owns id name := by
  simp only [mem_names, mem_own_elements]
  constructor
  · rintro ⟨e, ⟨he, ho⟩, rfl⟩
    exact ⟨⟨e, he, rfl⟩, ho⟩
  · rintro ⟨⟨e, he, rfl⟩, ho⟩
    exact ⟨e, ⟨he, ho⟩, rfl⟩

theorem mem_own_teePads : p ∈ (g.own id).teePads ↔ p ∈ g.teePads ∧ Owns id p.queue := by
  simp [own]

@[simp] theorem removePad_names : (g.removePad p).names = g.names := rfl

theorem mem_remove_names {n : String} : n ∈ (g.remove name).names ↔ n ∈ g.names ∧ n ≠ name := by
  simp only [mem_names, remove, List.mem_filter, decide_eq_true_eq]
  constructor
  · rintro ⟨e, ⟨he, hne⟩, rfl⟩
    exact ⟨⟨e, he, rfl⟩, hne⟩
  · rintro ⟨⟨e, he, rfl⟩, hne⟩
    exact ⟨e, ⟨he, hne⟩, rfl⟩

theorem remove_queues :
    (g.remove name).teePads.map TeePad.queue = g.teePads.map TeePad.queue := by
  simp [remove, Function.comp_def]

theorem add_eq (h : g.add e = some g') : e.name ∉ g.names ∧ g'.elements = g.elements ++ [e] ∧
    g'.links = g.links ∧ g'.teePads = g.teePads ∧ g'.demuxPads = g.demuxPads := by
  unfold add at h
  split at h
  next => cases h
  next hn =>
    cases h
    exact ⟨hn, rfl, rfl, rfl, rfl⟩

/-- A link is a new pad of a tee, of a queue that had none, or a link between
two other elements. -/
theorem link_cases (h : g.link source sink = some g') : source ∈ g.names ∧ sink ∈ g.names ∧
    g'.elements = g.elements ∧ g'.demuxPads = g.demuxPads ∧
    ((∃ s ∈ g.elements, s.name = source ∧ s.factory = "tee") ∧
        ((∃ t ∈ g.elements, t.name = sink ∧ t.factory = "whipclientsink") ∨ g.fed sink = false) ∧
        g'.links = g.links ∧ g'.teePads = g.teePads ++ [⟨source, sink, true⟩] ∨
      g'.links = g.links ++ [(source, sink)] ∧ g'.teePads = g.teePads) := by
  unfold link at h
  split at h
  next s t hs ht =>
    obtain ⟨hs', rfl⟩ := byName_eq_some hs
    obtain ⟨ht', rfl⟩ := byName_eq_some ht
    have hnames : s.name ∈ g.names ∧ t.name ∈ g.names :=
      ⟨mem_names.mpr ⟨s, hs', rfl⟩, mem_names.mpr ⟨t, ht', rfl⟩⟩
    split at h
    · cases h
    next hfed =>
      split at h
      next htee =>
        cases h
        refine ⟨hnames.1, hnames.2, rfl, rfl, .inl ⟨⟨s, hs', rfl, htee⟩, ?_, rfl, rfl⟩⟩
        obtain hw | hf := Classical.not_and_iff_not_or_not.mp hfed
        · exact .inl ⟨t, ht', rfl, not_not.mp hw⟩
        · exact .inr (by simpa using hf)
      next =>
        split at h
        · cases h
        · cases h
          exact ⟨hnames.1, hnames.2, rfl, rfl, .inr ⟨rfl, rfl⟩⟩
  next => cases h

theorem teePad_eq_some (h : g.teePad name = some p) : p ∈ g.teePads ∧ p.queue = name := by
  have hp := List.find?_some h
  simp only [Bool.and_eq_true, decide_eq_true_eq] at hp
  exact ⟨List.mem_of_find?_eq_some h, hp.2⟩

theorem teePad_eq_none (h : g.teePad name = none) :
    ∀ p ∈ g.teePads, p.linked = true → p.queue ≠ name := by
  intro p hp hl hq
  have := List.find?_eq_none.mp h p hp
  simp [hl, hq] at this

end Parts

/-- The names of branch elements decode to the ids they were made of, and nothing else
decodes; two of them are equal only for one role of one viewer, so that a lookup by such a
name finds no other. -/
theorem branch_names_exact (name id : String) :
    (branchIdFromName name = some id ↔ ∃ f ∈ branchNames, name = f id) ∧
    (∀ f ∈ branchNames, ∀ f' ∈ branchNames, ∀ id', f id = f' id' → f = f' ∧ id = id') ∧
    (∀ f ∈ branchNames, branchIdFromName (f id) = some id) ∧
    ∀ (g : Graph) (e : Element), ∀ f ∈ branchNames, g.byName (f id) = some e →
      ∀ f' ∈ branchNames, ∀ id', e.name = f' id' → f' = f ∧ id' = id := by
  refine ⟨branchIdFromName_iff, fun f hf f' hf' id' h => branchNames_inj hf hf' h,
    fun f hf => branchIdFromName_iff.mpr ⟨f, hf, rfl⟩, fun g e f hf hb f' hf' id' he => ?_⟩
  obtain ⟨-, hn⟩ := byName_eq_some hb
  exact branchNames_inj hf' hf (he.symm.trans hn)

section Frames

variable {id : String} {g g' : Graph} {e : Element} {p : TeePad} {name source sink : String}

theorem add_own (h : g.add e = some g') (ho : Owns id e.name) :
    (g'.own id).elements = (g.own id).elements ++ [e] ∧ (g'.own id).links = (g.own id).links ∧
      (g'.own id).teePads = (g.own id).teePads ∧ g'.rest id = g.rest id := by
  obtain ⟨-, he, hl, hp, hd⟩ := add_eq h
  refine ⟨by simp [own, he, ho], by simp [own, hl], by simp [own, hp], ?_⟩
  ext1 <;> simp [rest, he, hl, hp, hd, ho]

theorem link_rest (h : g.link source sink = some g') (ho : Owns id sink) :
    g'.rest id = g.rest id := by
  obtain ⟨-, -, he, hd, ⟨-, -, hl, hp⟩ | ⟨hl, hp⟩⟩ := link_cases h
  · ext1 <;> simp [rest, he, hl, hp, hd, ho]
  · ext1 <;> simp [rest, he, hl, hp, hd, ho]

theorem removePad_own (ho : Owns id p.queue) :
    (g.removePad p).own id = (g.own id).removePad p ∧ (g.removePad p).rest id = g.rest id := by
  constructor
  · ext1
    · rfl
    · rfl
    · exact List.erase_filter.symm
    · rfl
  · ext1
    · rfl
    · rfl
    · change (g.teePads.erase p).filter _ = g.teePads.filter _
      rw [← List.erase_filter, List.erase_of_not_mem (by simp [ho])]
    · rfl

theorem remove_own (ho : Owns id name) :
    (g.remove name).own id = (g.own id).remove name ∧ (g.remove name).rest id = g.rest id := by
  have hcomm : ∀ {A : Type} (p q : A → Bool) (l : List A),
      (l.filter p).filter q = (l.filter q).filter p := by
    intro A p q l
    rw [List.filter_filter, List.filter_filter]
    exact List.filter_congr fun a _ => Bool.and_comm ..
  constructor
  · ext1
    · exact hcomm ..
    · exact hcomm ..
    · simp only [own, remove, List.filter_map, Function.comp_def, TeePad.without_queue]
    · rfl
  · ext1
    · simp only [rest, remove, List.filter_filter]
      refine List.filter_congr fun e _ => ?_
      by_cases he : e.name = name <;> simp [he, ho]
    · simp only [rest, remove, List.filter_filter]
      refine List.filter_congr fun l _ => ?_
      by_cases h₁ : l.1 = name <;> by_cases h₂ : l.2 = name <;> simp [h₁, h₂, ho]
    · simp only [rest, remove, List.filter_map, Function.comp_def, TeePad.without_queue]
      refine (List.map_congr_left fun p hp => ?_).trans (List.map_id _)
      exact TeePad.without_of_ne fun he => by simp [he, ho] at hp
    · rfl

end Frames

end Graph

end SrtWhep.Stream
