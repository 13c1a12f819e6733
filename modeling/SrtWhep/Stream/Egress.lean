import Mathlib.Data.List.ReduceOption
import Mathlib.Data.List.TakeWhile
import SrtWhep.Stream.Graph

namespace SrtWhep.Stream

namespace Media

def ingestQueue : Media → String
  | video => videoQueue
  | audio => audioQueue

def outputTee : Media → String
  | video => outputTeeVideo
  | audio => outputTeeAudio

theorem ingestQueue_inj {m m' : Media} (h : m.ingestQueue = m'.ingestQueue) : m = m' := by
  cases m <;> cases m' <;> first | rfl | exact absurd h (by decide)

theorem outputTee_inj {m m' : Media} (h : m.outputTee = m'.outputTee) : m = m' := by
  cases m <;> cases m' <;> first | rfl | exact absurd h (by decide)

end Media

inductive EgressError
  | unknownMediaType (mediaType : String)
  | add (name : String)
  | link (source sink : String)
deriving DecidableEq, Repr

namespace Graph

/-- `gst::Bin::add_many`: one element after the other, up to the first it cannot add. -/
def addMany (g : Graph) : List Element → Graph × Except EgressError Unit
  | [] => (g, .ok ())
  | e :: es =>
    match g.add e with
    | some g' => g'.addMany es
    | none => (g, .error (.add e.name))

/-- `gst::Element::link_many`: one pair after the other, up to the first that does
not link. -/
def linkMany (g : Graph) : List String → Graph × Except EgressError Unit
  | source :: sink :: names =>
    match g.link source sink with
    | some g' => g'.linkMany (sink :: names)
    | none => (g, .error (.link source sink))
  | _ => (g, .ok ())

end Graph

/-- The pipeline with the running number that GStreamer has for each factory. -/
structure Bin where
  graph : Graph
  numbers : String → Nat

namespace Bin

def make (p : Bin) (specs : List Spec) : List Element :=
  specs.map fun spec => ⟨spec.factory, spec.nameWith (p.numbers spec.factory)⟩

def bump (p : Bin) (specs : List Spec) (factory : String) : Nat :=
  p.numbers factory + specs.countP fun spec => spec.factory = factory ∧ spec.name = none

def chainMedia (mediaType : String) : Option Media :=
  match videoParser mediaType with
  | some _ => some .video
  | none => if startsWith mediaType "audio" then some .audio else none

def buildEgressChain (p : Bin) (mediaType : String) : Bin × Except EgressError Unit :=
  match chainMedia mediaType, egressElements mediaType with
  | some m, some specs =>
    let numbers := p.bump specs
    match p.graph.addMany (p.make specs) with
    | (graph, .error e) => (⟨graph, numbers⟩, .error e)
    | (graph, .ok ()) =>
      let (graph, linked) :=
        graph.linkMany (m.ingestQueue :: (p.make specs).map Element.name)
      (⟨graph, numbers⟩, linked)
  | _, _ => (p, .error (.unknownMediaType mediaType))

/-- The walk over the source pads of the demux when there are no more to come, each
with the media type of its caps; it stops at the first that gets no chain. -/
def noMorePads (p : Bin) : List (Option String) → Bin × Bool
  | [] => (p, true)
  | none :: _ => (p, false)
  | some mediaType :: pads =>
    match p.buildEgressChain mediaType with
    | (p', .ok ()) => p'.noMorePads pads
    | (p', .error _) => (p', false)

end Bin

def padMedia (pad : Option String) : Option Media := pad.bind Bin.chainMedia

def autoFactories : List String :=
  ["h264parse", "h265parse", "fakesink", "aacparse", "avdec_aac", "audioconvert",
    "audioresample", "opusenc"]

/-- A pipeline between its ingest and its egress: its queues are there, some of them
with a chain, and GStreamer's next names are unused. -/
structure Ingesting (p : Bin) (built : List Media) : Prop where
  queues : ∀ m : Media, ⟨"queue", m.ingestQueue⟩ ∈ p.graph.elements
  tees : ∀ m : Media, m.outputTee ∈ p.graph.names ↔ m ∈ built
  ends : ∀ m : Media, m ∉ built → ∀ l ∈ p.graph.links, l.1 ≠ m.ingestQueue
  unused : ∀ factory ∈ autoFactories, ∀ number, p.numbers factory ≤ number →
    factory ++ toString number ∉ p.graph.names
  links : ∀ l ∈ p.graph.links, l.1 ∈ p.graph.names ∧ l.2 ∈ p.graph.names
  teePads : ∀ q ∈ p.graph.teePads, q.queue ∈ p.graph.names

section Names

variable {factory factory' : String} {number number' : Nat}

theorem toString_inj (h : toString number = toString number') : number = number' := by
  rw [Nat.toString_eq_repr, Nat.toString_eq_repr] at h
  have hd : Nat.toDigits 10 number = Nat.toDigits 10 number' := by
    rw [← Nat.toList_repr, ← Nat.toList_repr, h]
  rw [← Nat.ofDigitChars_ten_toDigits (n := number), hd, Nat.ofDigitChars_ten_toDigits]

/-- No factory's name starts another's, or the name of an output tee. -/
theorem autoFactories_apart : ∀ factory ∈ autoFactories,
    (∀ factory' ∈ autoFactories, factory.toList <+: factory'.toList → factory = factory') ∧
      ∀ m : Media, ¬ factory.toList <+: m.outputTee.toList := by
  have hm : ∀ factory ∈ autoFactories, ¬ factory.toList <+: outputTeeVideo.toList ∧
      ¬ factory.toList <+: outputTeeAudio.toList := by decide
  have hf : ∀ factory ∈ autoFactories, ∀ factory' ∈ autoFactories,
      factory.toList <+: factory'.toList → factory = factory' := by decide
  intro factory h
  refine ⟨hf factory h, fun m => ?_⟩
  cases m with
  | video => exact (hm factory h).1
  | audio => exact (hm factory h).2

theorem autoName_inj (hf : factory ∈ autoFactories) (hf' : factory' ∈ autoFactories)
    (h : factory ++ toString number = factory' ++ toString number') :
    factory = factory' ∧ number = number' := by
  have he : factory = factory' := by
    obtain hp | hp := starts_of_append_eq h
    · exact (autoFactories_apart _ hf).1 _ hf' hp
    · exact ((autoFactories_apart _ hf').1 _ hf hp).symm
  subst he
  exact ⟨rfl, toString_inj ((String.append_right_inj _).mp h)⟩

theorem autoName_ne_tee (hf : factory ∈ autoFactories) (m : Media) :
    factory ++ toString number ≠ m.outputTee := by
  intro h
  exact (autoFactories_apart factory hf).2 m (h ▸ starts_append _ _)

end Names

namespace Graph

variable {g g' : Graph} {e : Element} {source sink : String}

theorem add_new (h : e.name ∉ g.names) : ∃ g', g.add e = some g' := by
  unfold add
  rw [dif_neg h]
  exact ⟨_, rfl⟩

theorem addMany_new {es : List Element} (hn : (es.map Element.name).Nodup)
    (h : ∀ e ∈ es, e.name ∉ g.names) : ∃ g', g.addMany es = (g', .ok ()) ∧
      g'.elements = g.elements ++ es ∧ g'.links = g.links ∧ g'.teePads = g.teePads := by
  induction es generalizing g with
  | nil => exact ⟨g, rfl, by simp, rfl, rfl⟩
  | cons e es ih =>
    obtain ⟨g₁, ha⟩ := add_new (h e (by simp))
    obtain ⟨-, he, hl, hp, -⟩ := add_eq ha
    obtain ⟨hne, hn⟩ := List.nodup_cons.mp hn
    have hnames : g₁.names = g.names ++ [e.name] := by simp [names, he]
    have h₁ : ∀ e' ∈ es, e'.name ∉ g₁.names := by
      intro e' hm
      have heq : e'.name ≠ e.name := fun heq => hne (heq ▸ List.mem_map_of_mem hm)
      simpa [hnames] using ⟨h e' (by simp [hm]), heq⟩
    obtain ⟨g', ha', he', hl', hp'⟩ := ih hn h₁
    exact ⟨g', by rw [addMany, ha]; exact ha', by simp [he', he], hl'.trans hl, hp'.trans hp⟩

theorem link_free (hs : source ∈ g.names) (ht : sink ∈ g.names) (hf : g.fed sink = false)
    (ho : ∀ l ∈ g.links, l.1 ≠ source) : ∃ g', g.link source sink = some g' := by
  obtain ⟨s, hs⟩ := Option.isSome_iff_exists.mp (byName_isSome.mpr hs)
  obtain ⟨t, ht⟩ := Option.isSome_iff_exists.mp (byName_isSome.mpr ht)
  have ho : g.links.any (·.1 = source) = false := by simpa using ho
  unfold link
  rw [hs, ht]
  simp only [hf, ho, Bool.false_eq_true, and_false, if_false]
  split
  · exact ⟨_, rfl⟩
  · exact ⟨_, rfl⟩

theorem link_tee (h : g.link source sink = some g') (ht : ⟨"tee", source⟩ ∈ g.elements) :
    g'.links = g.links := by
  unfold link at h
  split at h
  next s t hs _ =>
    obtain ⟨hm, hn⟩ := byName_eq_some hs
    have he : s = ⟨"tee", source⟩ := List.inj_on_of_nodup_map g.unique hm ht hn
    have hf : s.factory = "tee" := by rw [he]
    rw [if_pos hf] at h
    split at h
    · cases h
    · cases h
      rfl
  next => cases h

theorem link_mem (h : g.link source sink = some g') :
    (∀ l ∈ g'.links, l ∈ g.links ∨ l = (source, sink) ∧ ⟨"tee", source⟩ ∉ g.elements) ∧
      ∀ p ∈ g'.teePads, p ∈ g.teePads ∨ p.queue = sink := by
  obtain ⟨-, -, -, -, ⟨-, -, hl, hp⟩ | ⟨hl, hp⟩⟩ := link_cases h
  · refine ⟨fun l hm => .inl (hl ▸ hm), fun p hm => ?_⟩
    rw [hp] at hm
    obtain hm | hm := List.mem_append.mp hm
    · exact .inl hm
    · exact .inr (by rw [List.mem_singleton.mp hm])
  · refine ⟨fun l hm => ?_, fun p hm => .inl (hp ▸ hm)⟩
    by_cases ht : ⟨"tee", source⟩ ∈ g.elements
    · exact .inl (link_tee h ht ▸ hm)
    · simpa [hl, ht] using hm

def Unlinked (g : Graph) (name : String) : Prop :=
  (∀ l ∈ g.links, l.1 ≠ name ∧ l.2 ≠ name) ∧ ∀ p ∈ g.teePads, p.queue ≠ name

theorem Unlinked.fed (h : g.Unlinked sink) : g.fed sink = false := by
  simp only [Graph.fed, Bool.or_eq_false_iff, List.any_eq_false]
  exact ⟨fun l hm => by simpa using (h.1 l hm).2, fun p hm => by simp [h.2 p hm]⟩

theorem Unlinked.link {name : String} (h : g.Unlinked name) (hl : g.link source sink = some g')
    (hs : source ≠ name) (ht : sink ≠ name) : g'.Unlinked name := by
  obtain ⟨hlinks, hpads⟩ := link_mem hl
  constructor
  · intro l hm
    obtain hm | ⟨rfl, -⟩ := hlinks l hm
    · exact h.1 l hm
    · exact ⟨hs, ht⟩
  · intro p hm
    obtain hm | hq := hpads p hm
    · exact h.2 p hm
    · exact hq ▸ ht

/-- Elements that are linked to nothing yet can be linked into a chain. -/
theorem linkMany_free {names : List String} (hs : source ∈ g.names)
    (ho : ∀ l ∈ g.links, l.1 ≠ source) (hn : (source :: names).Nodup)
    (hfree : ∀ name ∈ names, name ∈ g.names ∧ g.Unlinked name) :
    ∃ g', g.linkMany (source :: names) = (g', .ok ()) ∧ g'.elements = g.elements ∧
      (∀ l ∈ g'.links, l ∈ g.links ∨
        l.1 ∈ source :: names ∧ l.2 ∈ names ∧ ⟨"tee", l.1⟩ ∉ g.elements) ∧
      ∀ p ∈ g'.teePads, p ∈ g.teePads ∨ p.queue ∈ names := by
  induction names generalizing g source with
  | nil => exact ⟨g, rfl, rfl, fun l hl => .inl hl, fun p hp => .inl hp⟩
  | cons sink names ih =>
    obtain ⟨hin, hsink⟩ := hfree sink (by simp)
    obtain ⟨g₁, hg₁⟩ := link_free hs hin hsink.fed ho
    obtain ⟨hlinks, hpads⟩ := link_mem hg₁
    have he : g₁.elements = g.elements := (link_cases hg₁).2.2.1
    have hnames : g₁.names = g.names := by simp [Graph.names, he]
    obtain ⟨hsn, hn⟩ := List.nodup_cons.mp hn
    have ho₁ : ∀ l ∈ g₁.links, l.1 ≠ sink := by
      intro l hm
      obtain hm | ⟨rfl, -⟩ := hlinks l hm
      · exact (hsink.1 l hm).1
      · intro (h : source = sink)
        exact hsn (by simp [h])
    have hfree₁ : ∀ name ∈ names, name ∈ g₁.names ∧ g₁.Unlinked name := by
      intro name hm
      obtain ⟨hin, hu⟩ := hfree name (by simp [hm])
      have h₁ : source ≠ name := fun h => hsn (by simp [h, hm])
      have h₂ : sink ≠ name := fun h => (List.nodup_cons.mp hn).1 (h ▸ hm)
      exact ⟨hnames ▸ hin, hu.link hg₁ h₁ h₂⟩
    obtain ⟨g', hg', he', hl', hp'⟩ := ih (hnames ▸ hin) ho₁ hn hfree₁
    refine ⟨g', by rw [linkMany, hg₁]; exact hg', he'.trans he, fun l hm => ?_, fun p hm => ?_⟩
    · obtain hm | ⟨h₁, h₂, ht⟩ := hl' l hm
      · obtain hm | ⟨rfl, ht⟩ := hlinks l hm
        · exact .inl hm
        · exact .inr ⟨by simp, by simp, ht⟩
      · exact .inr ⟨List.mem_cons_of_mem _ h₁, List.mem_cons_of_mem _ h₂, he ▸ ht⟩
    · obtain hm | hm := hp' p hm
      · obtain hm | hq := hpads p hm
        · exact .inl hm
        · exact .inr (by simp [hq])
      · exact .inr (List.mem_cons_of_mem _ hm)

end Graph

structure ChainSpecs (m : Media) (specs : List Spec) : Prop where
  factories : (specs.map Spec.factory).Nodup
  tee : ⟨"tee", some m.outputTee⟩ ∈ specs
  others : ∀ spec ∈ specs, spec = ⟨"tee", some m.outputTee⟩ ∨
    spec.name = none ∧ spec.factory ∈ autoFactories

section Chains

variable {m : Media} {mediaType : String} {specs : List Spec} {p : Bin} {built : List Media}

theorem videoSpecs (parser : String) (h : parser = "h264parse" ∨ parser = "h265parse") :
    ChainSpecs .video [⟨parser, none⟩, ⟨"tee", some outputTeeVideo⟩, ⟨"fakesink", none⟩] := by
  obtain rfl | rfl := h
  · exact ⟨by decide, by decide, by decide⟩
  · exact ⟨by decide, by decide, by decide⟩

theorem audioSpecs : ChainSpecs .audio [⟨"aacparse", none⟩, ⟨"avdec_aac", none⟩,
    ⟨"audioconvert", none⟩, ⟨"audioresample", none⟩, ⟨"opusenc", none⟩,
    ⟨"tee", some outputTeeAudio⟩, ⟨"fakesink", none⟩] :=
  ⟨by decide, by decide, by decide⟩

theorem videoParser_cases {parser : String} (h : videoParser mediaType = some parser) :
    parser = "h264parse" ∨ parser = "h265parse" := by
  unfold videoParser at h
  split at h
  · exact .inl (Option.some.inj h).symm
  · split at h
    · exact .inr (Option.some.inj h).symm
    · cases h

/-- The codec table has elements for what it has a queue for. -/
theorem egressElements_chain (h : Bin.chainMedia mediaType = some m) :
    ∃ specs, egressElements mediaType = some specs ∧ ChainSpecs m specs := by
  unfold Bin.chainMedia at h
  unfold egressElements
  cases hp : videoParser mediaType with
  | some parser =>
    simp only [hp, Option.some.injEq] at h
    subst h
    exact ⟨_, rfl, videoSpecs parser (videoParser_cases hp)⟩
  | none =>
    simp only [hp] at h
    split at h
    next ha =>
      obtain rfl := Option.some.inj h
      exact ⟨_, by simp [ha], audioSpecs⟩
    next => cases h

theorem ChainSpecs.name_inj (hc : ChainSpecs m specs) (numbers : String → Nat) :
    ∀ spec ∈ specs, ∀ spec' ∈ specs, spec.nameWith (numbers spec.factory) =
      spec'.nameWith (numbers spec'.factory) → spec = spec' := by
  intro spec hs spec' hs' h
  obtain rfl | ⟨hn, hf⟩ := hc.others spec hs <;> obtain rfl | ⟨hn', hf'⟩ := hc.others spec' hs'
  · rfl
  · rw [Spec.nameWith, Spec.nameWith, hn'] at h
    exact absurd h.symm (autoName_ne_tee hf' m)
  · rw [Spec.nameWith, Spec.nameWith, hn] at h
    exact absurd h (autoName_ne_tee hf m)
  · rw [Spec.nameWith, Spec.nameWith, hn, hn'] at h
    exact List.inj_on_of_nodup_map hc.factories hs hs' (autoName_inj hf hf' h).1

theorem Bin.make_names :
    (p.make specs).map Element.name = specs.map fun s => s.nameWith (p.numbers s.factory) := by
  simp [Bin.make, Function.comp_def]

theorem ChainSpecs.names_nodup (hc : ChainSpecs m specs) :
    ((p.make specs).map Element.name).Nodup := by
  rw [Bin.make_names]
  exact hc.factories.of_map.map_on (hc.name_inj p.numbers)

theorem Ingesting.fresh (hi : Ingesting p built) (hc : ChainSpecs m specs) (hm : m ∉ built) :
    ∀ name ∈ (p.make specs).map Element.name, name ∉ p.graph.names := by
  intro name h
  rw [Bin.make_names, List.mem_map] at h
  obtain ⟨spec, hs, rfl⟩ := h
  obtain rfl | ⟨hn, hf⟩ := hc.others spec hs
  · exact fun hin => hm ((hi.tees m).mp hin)
  · rw [Spec.nameWith, hn]
    exact hi.unused _ hf _ le_rfl

theorem ChainSpecs.tee_mem (hc : ChainSpecs m specs) (m' : Media) :
    m'.outputTee ∈ (p.make specs).map Element.name ↔ m' = m := by
  rw [Bin.make_names, List.mem_map]
  constructor
  · rintro ⟨spec, hs, h⟩
    obtain rfl | ⟨hn, hf⟩ := hc.others spec hs
    · exact (Media.outputTee_inj h).symm
    · rw [Spec.nameWith, hn] at h
      exact absurd h (autoName_ne_tee hf m')
  · rintro rfl
    exact ⟨_, hc.tee, rfl⟩

/-- A number that was not given out before the chain is, unless it is past it, the
next of its factory. -/
theorem ChainSpecs.unused (hc : ChainSpecs m specs) {factory : String} {number : Nat}
    (hf : factory ∈ autoFactories) (h : p.bump specs factory ≤ number) :
    factory ++ toString number ∉ (p.make specs).map Element.name := by
  rw [Bin.make_names, List.mem_map]
  rintro ⟨spec, hs, he⟩
  obtain rfl | ⟨hn, hf'⟩ := hc.others spec hs
  · exact autoName_ne_tee hf m he.symm
  · rw [Spec.nameWith, hn] at he
    obtain ⟨rfl, rfl⟩ := autoName_inj hf' hf he
    have hpos : 0 < specs.countP fun spec' =>
        decide (spec'.factory = spec.factory ∧ spec'.name = none) :=
      List.countP_pos_iff.mpr ⟨spec, hs, by simp [hn]⟩
    unfold Bin.bump at h
    omega

/-- A supported pad of a kind that has no chain yet gets one. -/
theorem Ingesting.chain (hi : Ingesting p built) (ht : Bin.chainMedia mediaType = some m)
    (hm : m ∉ built) : ∃ p', p.buildEgressChain mediaType = (p', .ok ()) ∧
      Ingesting p' (m :: built) := by
  obtain ⟨specs, hspecs, hc⟩ := egressElements_chain ht
  have hfresh := hi.fresh hc hm
  have hnames : ∀ name ∈ p.graph.names, name ∉ (p.make specs).map Element.name :=
    fun name h hin => hfresh name hin h
  have hqueue : ∀ m : Media, m.ingestQueue ∈ p.graph.names :=
    fun m => Graph.mem_names.mpr ⟨_, hi.queues m, rfl⟩
  obtain ⟨g₁, hadd, he, hl, hq⟩ := Graph.addMany_new hc.names_nodup
    (fun e h => hfresh e.name (List.mem_map_of_mem h))
  have hn₁ : g₁.names = p.graph.names ++ (p.make specs).map Element.name := by
    simp [Graph.names, he]
  have hfree : ∀ name ∈ (p.make specs).map Element.name,
      name ∈ g₁.names ∧ g₁.Unlinked name := by
    intro name h
    have hne : ∀ name' ∈ p.graph.names, name' ≠ name := fun _ h' heq => hnames _ h' (heq ▸ h)
    refine ⟨by rw [hn₁]; exact List.mem_append_right _ h, ?_, ?_⟩
    · intro l hml
      obtain ⟨h₁, h₂⟩ := hi.links l (hl ▸ hml)
      exact ⟨hne _ h₁, hne _ h₂⟩
    · exact fun q hmq => hne _ (hi.teePads q (hq ▸ hmq))
  obtain ⟨g₂, hlink, he₂, hl₂, hq₂⟩ := Graph.linkMany_free
    (by simp [hn₁, hqueue m] : m.ingestQueue ∈ g₁.names) (hl ▸ hi.ends m hm)
    (List.nodup_cons.mpr ⟨hnames _ (hqueue m), hc.names_nodup⟩) hfree
  have hn₂ : g₂.names = p.graph.names ++ (p.make specs).map Element.name := by
    rw [← hn₁, Graph.names, Graph.names, he₂]
  refine ⟨⟨g₂, p.bump specs⟩, ?_, ?_⟩
  · unfold Bin.buildEgressChain
    simp only [ht, hspecs, hadd, hlink]
  · constructor
    case queues =>
      intro m'
      rw [he₂, he]
      exact List.mem_append_left _ (hi.queues m')
    case tees =>
      intro m'
      rw [hn₂, List.mem_append, hi.tees m', hc.tee_mem, List.mem_cons, or_comm]
    case ends =>
      intro m' hm' l h
      obtain ⟨hne, hm'⟩ := not_or.mp (List.mem_cons.not.mp hm')
      obtain h | ⟨h, -⟩ := hl₂ l h
      · exact hi.ends m' hm' l (hl ▸ h)
      · intro heq
        obtain h | h := List.mem_cons.mp h
        · exact hne (Media.ingestQueue_inj (heq.symm.trans h))
        · exact hnames _ (hqueue m') (heq ▸ h)
    case unused =>
      intro factory hf number hnum
      rw [hn₂, List.mem_append, not_or]
      exact ⟨hi.unused factory hf number (le_trans (Nat.le_add_right ..) hnum),
        hc.unused hf hnum⟩
    case links =>
      intro l h
      rw [hn₂]
      obtain h | ⟨h₁, h₂, -⟩ := hl₂ l h
      · obtain ⟨h₁, h₂⟩ := hi.links l (hl ▸ h)
        exact ⟨List.mem_append_left _ h₁, List.mem_append_left _ h₂⟩
      · refine ⟨?_, List.mem_append_right _ h₂⟩
        obtain h₁ | h₁ := List.mem_cons.mp h₁
        · rw [h₁]
          exact List.mem_append_left _ (hqueue m)
        · exact List.mem_append_right _ h₁
    case teePads =>
      intro q h
      rw [hn₂]
      obtain h | h := hq₂ q h
      · exact List.mem_append_left _ (hi.teePads q (hq ▸ h))
      · exact List.mem_append_right _ h

end Chains

section Init

def Graph.linkChains (g : Graph) : List (List String) → Graph × Except EgressError Unit
  | [] => (g, .ok ())
  | names :: chains =>
    match g.linkMany names with
    | (g', .ok ()) => g'.linkChains chains
    | (g', .error e) => (g', .error e)

/-- What `init` links, given the name that the SRT sink got. -/
def initChains (srtSink : String) : List (List String) :=
  [[srtSource, "input_tee"], ["input_tee", "whep-queue", "typefind", demux],
    ["input_tee", "srt-queue", srtSink]]

def Bin.init (numbers : String → Nat) : Bin × Except EgressError Unit :=
  let p : Bin := ⟨Graph.empty, numbers⟩
  let numbers' := p.bump initElements
  match Graph.empty.addMany (p.make initElements) with
  | (graph, .error e) => (⟨graph, numbers'⟩, .error e)
  | (graph, .ok ()) =>
    let (graph, linked) := graph.linkChains (initChains ("srtsink" ++ toString (numbers "srtsink")))
    (⟨graph, numbers'⟩, linked)

theorem Bin.init_eq {numbers : String → Nat} {g : Graph}
    (h : Graph.empty.addMany (Bin.make ⟨Graph.empty, numbers⟩ initElements) = (g, .ok ())) :
    Bin.init numbers =
      let (graph, linked) :=
        g.linkChains (initChains ("srtsink" ++ toString (numbers "srtsink")))
      (⟨graph, Bin.bump ⟨Graph.empty, numbers⟩ initElements⟩, linked) := by
  unfold Bin.init
  dsimp only
  rw [h]

def givenNames : List String := initElements.filterMap Spec.name

theorem init_names (p : Bin) : (p.make initElements).map Element.name =
    givenNames ++ ["srtsink" ++ toString (p.numbers "srtsink")] := rfl

theorem factories_not_given : ∀ factory ∈ "srtsink" :: autoFactories, ∀ name ∈ givenNames,
    ¬ factory.toList <+: name.toList := by
  decide

theorem not_given {factory : String} (hf : factory ∈ "srtsink" :: autoFactories) (number : Nat) :
    factory ++ toString number ∉ givenNames := by
  intro h
  exact factories_not_given factory hf _ h (starts_append _ _)

theorem srtSink_not_auto {factory : String} (hf : factory ∈ autoFactories) (number k : Nat) :
    factory ++ toString number ≠ "srtsink" ++ toString k := by
  have happ : ∀ factory ∈ autoFactories, ¬ factory.toList <+: "srtsink".toList ∧
      ¬ "srtsink".toList <+: factory.toList := by decide
  intro h
  obtain ⟨h₁, h₂⟩ := happ factory hf
  obtain h | h := starts_of_append_eq h
  · exact h₁ h
  · exact h₂ h

structure LinkedWithin (used : List String) (g : Graph) : Prop where
  links : ∀ l ∈ g.links, l.1 ∈ used ∧ l.2 ∈ used ∧ ⟨"tee", l.1⟩ ∉ g.elements
  teePads : ∀ q ∈ g.teePads, q.queue ∈ used

theorem LinkedWithin.chain {used names : List String} {g : Graph} {source : String}
    (h : LinkedWithin used g) (hs : source ∈ g.names)
    (ho : source ∈ used → ⟨"tee", source⟩ ∈ g.elements) (hn : (source :: names).Nodup)
    (hin : ∀ name ∈ names, name ∈ g.names ∧ name ∉ used) : ∃ g',
      g.linkMany (source :: names) = (g', .ok ()) ∧ g'.elements = g.elements ∧
      LinkedWithin (used ++ source :: names) g' := by
  have hfrom : ∀ l ∈ g.links, l.1 ≠ source := by
    intro l hl heq
    obtain ⟨hu, -, ht⟩ := h.links l hl
    exact ht (heq ▸ ho (heq ▸ hu))
  have hfree : ∀ name ∈ names, name ∈ g.names ∧ g.Unlinked name := by
    intro name hm
    obtain ⟨hg, hu⟩ := hin name hm
    refine ⟨hg, fun l hl => ?_, fun q hq heq => hu (heq ▸ h.teePads q hq)⟩
    obtain ⟨h₁, h₂, -⟩ := h.links l hl
    exact ⟨fun heq => hu (heq ▸ h₁), fun heq => hu (heq ▸ h₂)⟩
  obtain ⟨g', hlink, he, hl, hq⟩ := Graph.linkMany_free hs hfrom hn hfree
  refine ⟨g', hlink, he, fun l hm => ?_, fun q hm => ?_⟩
  · rw [he]
    obtain hm | ⟨h₁, h₂, ht⟩ := hl l hm
    · obtain ⟨h₁, h₂, ht⟩ := h.links l hm
      exact ⟨List.mem_append_left _ h₁, List.mem_append_left _ h₂, ht⟩
    · exact ⟨List.mem_append_right _ h₁,
        List.mem_append_right _ (List.mem_cons_of_mem _ h₂), ht⟩
  · obtain hm | hm := hq q hm
    · exact List.mem_append_left _ (h.teePads q hm)
    · exact List.mem_append_right _ (List.mem_cons_of_mem _ hm)

def chainedNames (srtSink : String) : List String :=
  [srtSource, "input_tee"] ++ ["input_tee", "whep-queue", "typefind", demux] ++
    ["input_tee", "srt-queue", srtSink]

theorem init_links {g : Graph} {srtSink : String} (hn : g.names = givenNames ++ [srtSink])
    (htee : ⟨"tee", "input_tee"⟩ ∈ g.elements) (hsink : srtSink ∉ givenNames)
    (hw : LinkedWithin [] g) : ∃ g', g.linkChains (initChains srtSink) = (g', .ok ()) ∧
      g'.elements = g.elements ∧ LinkedWithin (chainedNames srtSink) g' := by
  have hgiven : ∀ {g' : Graph}, g'.elements = g.elements → ∀ name ∈ givenNames,
      name ∈ g'.names := by
    intro g' he name h
    have hn' : g'.names = givenNames ++ [srtSink] := by rw [← hn, Graph.names, he, Graph.names]
    simp [hn', h]
  have hin₁ : ∀ name ∈ ["input_tee"], name ∈ givenNames := by decide
  obtain ⟨g₁, hg₁, he₁, hw₁⟩ := hw.chain (hgiven rfl srtSource (by decide)) (by simp) (by decide)
    (fun name h => ⟨hgiven rfl name (hin₁ name h), List.not_mem_nil⟩)
  have hin₂ : ∀ name ∈ ["whep-queue", "typefind", demux],
      name ∈ givenNames ∧ name ∉ [srtSource, "input_tee"] := by decide
  obtain ⟨g₂, hg₂, he₂, hw₂⟩ := hw₁.chain (hgiven he₁ "input_tee" (by decide))
    (fun _ => he₁ ▸ htee) (by decide)
    (fun name h => ⟨hgiven he₁ name (hin₂ name h).1, (hin₂ name h).2⟩)
  have he₂ : g₂.elements = g.elements := he₂.trans he₁
  have hfirst : ∀ name ∈ [srtSource, "input_tee", "input_tee", "whep-queue", "typefind", demux],
      name ∈ givenNames := by decide
  have hin₃ : ∀ name ∈ ["srt-queue", srtSink], name ∈ g₂.names ∧
      name ∉ [srtSource, "input_tee", "input_tee", "whep-queue", "typefind", demux] := by
    intro name h
    obtain rfl | rfl : name = "srt-queue" ∨ name = srtSink := by simpa using h
    · exact ⟨hgiven he₂ "srt-queue" (by decide), by decide⟩
    · have hn₂ : g₂.names = givenNames ++ [name] := by rw [← hn, Graph.names, he₂, Graph.names]
      exact ⟨by simp [hn₂], fun h => hsink (hfirst _ h)⟩
  have hnodup : ["input_tee", "srt-queue", srtSink].Nodup := by
    have h₁ : "input_tee" ≠ srtSink := fun h => hsink (h ▸ by decide)
    have h₂ : "srt-queue" ≠ srtSink := fun h => hsink (h ▸ by decide)
    simp [h₁, h₂]
  obtain ⟨g₃, hg₃, he₃, hw₃⟩ := hw₂.chain (hgiven he₂ "input_tee" (by decide))
    (fun _ => he₂ ▸ htee) hnodup hin₃
  exact ⟨g₃, by simp only [initChains, Graph.linkChains, hg₁, hg₂, hg₃], he₃.trans he₂, hw₃⟩

theorem chainedNames_given {srtSink name : String} (h : name ∈ chainedNames srtSink) :
    name = srtSink ∨ name ∈ givenNames ∧ ∀ m : Media, name ≠ m.ingestQueue := by
  have hgiven : ∀ name ∈ [srtSource, "input_tee", "whep-queue", "typefind", demux, "srt-queue"],
      name ∈ givenNames ∧ name ≠ videoQueue ∧ name ≠ audioQueue := by decide
  by_cases hs : name = srtSink
  · exact .inl hs
  · have hm : name ∈ [srtSource, "input_tee", "whep-queue", "typefind", demux, "srt-queue"] := by
      simp only [chainedNames, List.mem_append, List.mem_cons, List.not_mem_nil, or_false] at h ⊢
      tauto
    obtain ⟨hg, hv, ha⟩ := hgiven name hm
    exact .inr ⟨hg, fun m => by cases m <;> assumption⟩

theorem init_ingesting (numbers : String → Nat) :
    ∃ p, Bin.init numbers = (p, .ok ()) ∧ Ingesting p [] := by
  let p₀ : Bin := ⟨Graph.empty, numbers⟩
  let srtSink := "srtsink" ++ toString (numbers "srtsink")
  have hsink : srtSink ∉ givenNames := not_given (by simp) _
  have hnew : (p₀.make initElements).map Element.name = givenNames ++ [srtSink] := init_names p₀
  have hnodup : ((p₀.make initElements).map Element.name).Nodup := by
    rw [hnew, List.nodup_append_comm]
    exact List.nodup_cons.mpr ⟨hsink, by decide⟩
  obtain ⟨g₀, hadd, he₀, hl₀, hq₀⟩ := @Graph.addMany_new Graph.empty _ hnodup
    (fun _ _ => List.not_mem_nil)
  have he₀ : g₀.elements = p₀.make initElements := he₀
  have hn₀ : g₀.names = givenNames ++ [srtSink] := by rw [← hnew, Graph.names, he₀]
  have htee : ⟨"tee", "input_tee"⟩ ∈ g₀.elements := by
    rw [he₀]
    exact List.mem_cons_of_mem _ (List.mem_cons_self ..)
  have hw₀ : LinkedWithin [] g₀ := ⟨by simp [hl₀, Graph.empty], by simp [hq₀, Graph.empty]⟩
  obtain ⟨g, hlink, he, hw⟩ := init_links hn₀ htee hsink hw₀
  have hn : g.names = givenNames ++ [srtSink] := by rw [← hn₀, Graph.names, he, Graph.names]
  have hused : ∀ name ∈ chainedNames srtSink,
      name ∈ g.names ∧ ∀ m : Media, name ≠ m.ingestQueue := by
    intro name h
    obtain rfl | ⟨hg, hq⟩ := chainedNames_given h
    · refine ⟨by simp [hn], fun m h => hsink (h ▸ ?_)⟩
      cases m <;> decide
    · exact ⟨by simp [hn, hg], hq⟩
  refine ⟨⟨g, p₀.bump initElements⟩, ?_, ?_⟩
  · rw [Bin.init_eq hadd, hlink]
  · constructor
    case queues =>
      intro m
      have hspec : ⟨"queue", some m.ingestQueue⟩ ∈ initElements := by cases m <;> decide
      rw [he, he₀]
      exact List.mem_map.mpr ⟨_, hspec, rfl⟩
    case tees =>
      intro m
      have hm : m.outputTee ∉ givenNames ∧ ¬ "srtsink".toList <+: m.outputTee.toList := by
        cases m <;> decide
      have hs : m.outputTee ≠ srtSink := fun h => hm.2 (h ▸ starts_append _ _)
      rw [hn]
      simp [hm.1, hs]
    case ends => exact fun m _ l h => (hused l.1 (hw.links l h).1).2 m
    case unused =>
      intro factory hf number _
      rw [hn, List.mem_append, List.mem_singleton, not_or]
      exact ⟨not_given (List.mem_cons_of_mem _ hf) number, srtSink_not_auto hf number _⟩
    case links => exact fun l h => ⟨(hused _ (hw.links l h).1).1, (hused _ (hw.links l h).2.1).1⟩
    case teePads => exact fun q h => (hused _ (hw.teePads q h)).1

end Init

section Walks

variable {p : Bin} {built : List Media} {pads : List (Option String)} {m : Media}

theorem Bin.unsupported {mediaType : String} (h : padMedia (some mediaType) = none) :
    p.buildEgressChain mediaType = (p, .error (.unknownMediaType mediaType)) := by
  have h : Bin.chainMedia mediaType = none := h
  unfold Bin.buildEgressChain
  rw [h]

/-- The walk builds the chains of the pads before the first that gets none. -/
theorem Ingesting.noMorePads (hi : Ingesting p built) (hk : (pads.filterMap padMedia).Nodup)
    (hb : ∀ m ∈ pads.filterMap padMedia, m ∉ built) : ∃ built',
      Ingesting (p.noMorePads pads).1 built' ∧
      ∀ m, m ∈ built' ↔ m ∈ built ∨ some m ∈ (pads.map padMedia).takeWhile Option.isSome := by
  induction pads generalizing p built with
  | nil => exact ⟨built, hi, by simp⟩
  | cons pad pads ih =>
    cases pad with
    | none => exact ⟨built, hi, by simp [padMedia]⟩
    | some mediaType =>
      cases hm : padMedia (some mediaType) with
      | none =>
        refine ⟨built, ?_, by simp [hm]⟩
        rw [Bin.noMorePads, Bin.unsupported hm]
        exact hi
      | some m =>
        rw [List.filterMap_cons_some hm] at hk hb
        obtain ⟨hmk, hk⟩ := List.nodup_cons.mp hk
        obtain ⟨p₁, hp₁, hi₁⟩ := hi.chain hm (hb m (by simp))
        have hb₁ : ∀ m' ∈ pads.filterMap padMedia, m' ∉ m :: built := by
          intro m' hm'
          have hne : m' ≠ m := fun h => hmk (h ▸ hm')
          simpa [hne] using hb m' (by simp [hm'])
        obtain ⟨built', hi', hmem⟩ := ih hi₁ hk hb₁
        refine ⟨built', ?_, fun m' => ?_⟩
        · rw [Bin.noMorePads, hp₁]
          exact hi'
        · rw [hmem m']
          simp [hm, or_assoc, or_left_comm, eq_comm]

def Bin.Chained (p : Bin) (m : Media) : Prop := (p.graph.byName m.outputTee).isSome

instance (p : Bin) (m : Media) : Decidable (p.Chained m) :=
  inferInstanceAs (Decidable ((p.graph.byName m.outputTee).isSome = true))

theorem Ingesting.chained (hi : Ingesting p []) (hk : (pads.filterMap padMedia).Nodup) :
    (p.noMorePads pads).1.Chained m ↔ some m ∈ (pads.map padMedia).takeWhile Option.isSome := by
  obtain ⟨built, hi', hb⟩ := hi.noMorePads hk (by simp)
  rw [Bin.Chained, Graph.byName_isSome, hi'.tees, hb]
  simp

theorem Ingesting.chained_perm (hi : Ingesting p []) (hk : (pads.filterMap padMedia).Nodup)
    {order : List (Option String)} (ho : order.Perm pads) : (p.noMorePads order).1.Chained m ↔
      some m ∈ (order.map padMedia).takeWhile Option.isSome :=
  hi.chained ((ho.filterMap padMedia).nodup_iff.mpr hk)

end Walks

theorem takeWhile_isSome_iff {A : Type*} {l : List (Option A)} (hn : l.reduceOption.Nodup) :
    (∀ a, some a ∈ l.takeWhile Option.isSome ↔ some a ∈ l) ↔
      l.Pairwise fun x y => x = none → y = none := by
  induction l with
  | nil => simp
  | cons x l ih =>
    cases x with
    | none =>
      rw [List.pairwise_cons]
      constructor
      · intro h
        have hl : ∀ y ∈ l, y = none := by
          intro y hy
          refine Option.eq_none_iff_forall_ne_some.mpr fun a ha => ?_
          simpa using (h a).mpr (by simp [← ha, hy])
        exact ⟨fun y hy _ => hl y hy,
          List.pairwise_of_forall_mem_list fun _ _ y hy _ => hl y hy⟩
      · rintro ⟨h, -⟩ a
        simpa using fun ha => Option.some_ne_none a (h _ ha rfl)
    | some b =>
      rw [List.reduceOption_cons_of_some, List.nodup_cons, List.reduceOption_mem_iff] at hn
      obtain ⟨hb, hn⟩ := hn
      -- The first value is not among the others.
      have hne : ∀ a, some a ∈ l → a ≠ b := fun a ha he => hb (he ▸ ha)
      have hstep : (∀ a, some a ∈ (some b :: l).takeWhile Option.isSome ↔ some a ∈ some b :: l) ↔
          ∀ a, some a ∈ l.takeWhile Option.isSome ↔ some a ∈ l := by
        refine forall_congr' fun a => ?_
        by_cases he : a = b
        · subst he
          have htw : some a ∉ l.takeWhile Option.isSome :=
            fun h => hb (List.takeWhile_subset _ h)
          simp [hb, htw]
        · simp [he]
      rw [hstep, ih hn, List.pairwise_cons]
      simp

/-- No supported pad comes after one that gets no chain. -/
def SupportedFirst (pads : List (Option String)) : Prop :=
  (pads.map padMedia).Pairwise fun earlier later => earlier = none → later = none

/-- Every supported pad has its chain after the walk just when none of them comes after
a pad that gets no chain; in whatever order only when all of them are supported, or
none is. -/
theorem chains_of_pads {p : Bin} {pads : List (Option String)} (hi : Ingesting p [])
    (hk : (pads.filterMap padMedia).Nodup) :
    ((∀ m, (p.noMorePads pads).1.Chained m ↔ ∃ pad ∈ pads, padMedia pad = some m) ↔
      SupportedFirst pads) ∧
    ((∀ order, order.Perm pads →
        ∀ m, (p.noMorePads order).1.Chained m ↔ (p.noMorePads pads).1.Chained m) ↔
      (∀ pad ∈ pads, (padMedia pad).isSome) ∨ ∀ pad ∈ pads, padMedia pad = none) := by
  constructor
  · have hk' : (pads.map padMedia).reduceOption.Nodup := by
      rwa [List.reduceOption, List.filterMap_map]
    rw [SupportedFirst, ← takeWhile_isSome_iff hk']
    refine forall_congr' fun m => ?_
    rw [hi.chained hk, List.mem_map]
  · constructor
    · intro h
      by_contra hmix
      push Not at hmix
      obtain ⟨⟨u, hu, hun⟩, s, hs, hsm⟩ := hmix
      obtain ⟨m, hm⟩ := Option.ne_none_iff_exists'.mp hsm
      have hun : padMedia u = none := by simpa using hun
      have hlate := h _ (List.perm_cons_erase hu).symm m
      have hearly := h _ (List.perm_cons_erase hs).symm m
      rw [hi.chained_perm hk (List.perm_cons_erase hu).symm] at hlate
      rw [hi.chained_perm hk (List.perm_cons_erase hs).symm] at hearly
      rw [List.map_cons, hun] at hlate
      rw [List.map_cons, hm] at hearly
      simpa using hlate.trans hearly.symm
    · intro h order ho m
      rw [hi.chained_perm hk ho, hi.chained hk]
      obtain h | h := h
      · have hall : ∀ pads' : List (Option String), (∀ pad ∈ pads', (padMedia pad).isSome) →
            (pads'.map padMedia).takeWhile Option.isSome = pads'.map padMedia := by
          intro pads' h
          exact List.takeWhile_eq_self_iff.mpr (by simpa using h)
        rw [hall order fun pad hp => h pad (ho.subset hp), hall pads h]
        exact (ho.map padMedia).mem_iff
      · have hnone : ∀ pads' : List (Option String), (∀ pad ∈ pads', padMedia pad = none) →
            some m ∉ (pads'.map padMedia).takeWhile Option.isSome := by
          intro pads' h hin
          obtain ⟨pad, hp, he⟩ := List.mem_map.mp (List.takeWhile_subset _ hin)
          exact Option.some_ne_none m (he.symm.trans (h pad hp))
        exact iff_of_false (hnone order fun pad hp => h pad (ho.subset hp)) (hnone pads h)

theorem chains_of_pads_subtitles_last :
    ((Bin.init fun _ => 0).1.noMorePads
        [some "video/x-h265", some "audio/mpeg", some "subpicture/x-dvb"]).1.Chained .video ∧
      ((Bin.init fun _ => 0).1.noMorePads
        [some "video/x-h265", some "audio/mpeg", some "subpicture/x-dvb"]).1.Chained .audio := by
  obtain ⟨p, hp, hi⟩ := init_ingesting fun _ => 0
  rw [hp]
  have hk : ([some "video/x-h265", some "audio/mpeg", some "subpicture/x-dvb"].filterMap
      padMedia).Nodup := by decide
  have h := (chains_of_pads hi hk).1.mpr (by unfold SupportedFirst; decide)
  exact ⟨(h .video).mpr (by decide), (h .audio).mpr (by decide)⟩

/-- A subtitle stream that comes before the video leaves it without its chain. -/
theorem subtitles_before_video :
    ¬ ((Bin.init fun _ => 0).1.noMorePads
        [some "subpicture/x-dvb", some "video/x-h264"]).1.Chained .video ∧
      ((Bin.init fun _ => 0).1.noMorePads
        [some "video/x-h264", some "subpicture/x-dvb"]).1.Chained .video := by
  decide

end SrtWhep.Stream
