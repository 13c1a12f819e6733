import Mathlib.Logic.Relation
import SrtWhep.Stream.Egress
import SrtWhep.Stream.Leftovers

namespace SrtWhep.Stream

namespace Graph

def Flows (g : Graph) (source sink : String) : Prop :=
  (source, sink) ∈ g.links ∨ ∃ p ∈ g.teePads, p.linked = true ∧ p.tee = source ∧ p.queue = sink

/-- A link is within the core of the pipeline or within one viewer's branch; from the
one to the other there are only the pads of the tees. -/
def Split (g : Graph) : Prop := ∀ l ∈ g.links, branchIdFromName l.1 = branchIdFromName l.2

def core (g : Graph) : Graph where
  elements := g.elements.filter (branchIdFromName ·.name = none)
  links := g.links.filter fun l => branchIdFromName l.1 = none ∧ branchIdFromName l.2 = none
  teePads := g.teePads.filter (branchIdFromName ·.queue = none)
  demuxPads := g.demuxPads
  unique := g.unique.sublist (List.filter_sublist.map _)

structure Beside (g g' : Graph) : Prop where
  own : ∀ id, g'.own id = g.own id
  split : g.Split → g'.Split

section Parts

variable {g g' : Graph} {e : Element} {l : String × String} {p : TeePad} {name : String}

theorem mem_core_elements :
    e ∈ g.core.elements ↔ e ∈ g.elements ∧ branchIdFromName e.name = none := by
  simp [core]

theorem mem_core_links : l ∈ g.core.links ↔
    l ∈ g.links ∧ branchIdFromName l.1 = none ∧ branchIdFromName l.2 = none := by
  simp [core]

theorem mem_core_teePads :
    p ∈ g.core.teePads ↔ p ∈ g.teePads ∧ branchIdFromName p.queue = none := by
  simp [core]

theorem mem_core_names : name ∈ g.core.names ↔ name ∈ g.names ∧ branchIdFromName name = none := by
  simp only [mem_names, mem_core_elements]
  constructor
  · rintro ⟨e, ⟨he, hn⟩, rfl⟩
    exact ⟨⟨e, he, rfl⟩, hn⟩
  · rintro ⟨⟨e, he, rfl⟩, hn⟩
    exact ⟨e, ⟨he, hn⟩, rfl⟩

theorem Beside.refl (g : Graph) : g.Beside g := ⟨fun _ => rfl, id⟩

theorem Beside.trans {g'' : Graph} (h : g.Beside g') (h' : g'.Beside g'') : g.Beside g'' :=
  ⟨fun id => (h'.own id).trans (h.own id), fun hs => h'.split (h.split hs)⟩

theorem core_flows {source sink : String} (h : g.core.Flows source sink) :
    g.Flows source sink := by
  obtain h | ⟨p, hp, hc⟩ := h
  · exact .inl (mem_core_links.mp h).1
  · exact .inr ⟨p, (mem_core_teePads.mp hp).1, hc⟩

end Parts

section Frames

variable {id id' : ConnectionId} {g g' : Graph} {name : String}

theorem not_owned (h : branchIdFromName name = none) : ¬ Owns id name := by
  intro ho
  cases h.symm.trans ho

theorem owned_apart (ho : Owns id' name) (hne : id' ≠ id) : ¬ Owns id name := by
  intro h
  exact hne (Option.some.inj (ho.symm.trans h))

theorem Split.owned {l : String × String} (h : g.Split) (hl : l ∈ g.links) :
    Owns id l.1 ↔ Owns id l.2 := by
  rw [Owns, Owns, h l hl]

theorem own_of_rest (h : g'.rest id = g.rest id) (hs : g.Split) (hs' : g'.Split)
    (hne : id' ≠ id) : g'.own id' = g.own id' := by
  have hown : ∀ g : Graph, g.Split → (g.rest id).own id' = g.own id' := by
    intro g hs
    ext1
    · simp only [own, rest, List.filter_filter]
      refine List.filter_congr fun e _ => ?_
      by_cases ho : Owns id' e.name
      · simp [ho, owned_apart ho hne]
      · simp [ho]
    · simp only [own, rest, List.filter_filter]
      refine List.filter_congr fun l hl => ?_
      by_cases ho : Owns id' l.1
      · have ho₂ := (hs.owned hl).mp ho
        simp [ho, ho₂, owned_apart ho hne, owned_apart ho₂ hne]
      · have ho₂ := mt (hs.owned hl).mpr ho
        simp [ho, ho₂]
    · simp only [own, rest, List.filter_filter]
      refine List.filter_congr fun p _ => ?_
      by_cases ho : Owns id' p.queue
      · simp [ho, owned_apart ho hne]
      · simp [ho]
    · rfl
  rw [← hown g' hs', h, hown g hs]

theorem core_of_rest (h : g'.rest id = g.rest id) : g'.core = g.core := by
  have hcore : ∀ g : Graph, (g.rest id).core = g.core := by
    intro g
    ext1
    · simp only [core, rest, List.filter_filter]
      refine List.filter_congr fun e _ => ?_
      by_cases hn : branchIdFromName e.name = none
      · simp [hn, not_owned hn]
      · simp [hn]
    · simp only [core, rest, List.filter_filter]
      refine List.filter_congr fun l _ => ?_
      by_cases hn : branchIdFromName l.1 = none ∧ branchIdFromName l.2 = none
      · simp [hn, not_owned hn.1, not_owned hn.2]
      · simp [hn]
    · simp only [core, rest, List.filter_filter]
      refine List.filter_congr fun p _ => ?_
      by_cases hn : branchIdFromName p.queue = none
      · simp [hn, not_owned hn]
      · simp [hn]
    · rfl
  rw [← hcore g', h, hcore g]

end Frames

section Core

variable {g g' : Graph} {e : Element} {source sink name : String}

theorem core_byName (h : branchIdFromName name = none) : g.core.byName name = g.byName name := by
  simp only [byName, core, List.find?_filter]
  congr 1
  funext e
  by_cases he : e.name = name
  · simp [he, h]
  · simp [he]

theorem core_fed (hs : g.Split) (h : branchIdFromName name = none) :
    g.core.fed name = g.fed name := by
  rw [Bool.eq_iff_iff]
  simp only [fed, Bool.or_eq_true, List.any_eq_true, mem_core_links, mem_core_teePads,
    Bool.and_eq_true, decide_eq_true_eq]
  refine or_congr (exists_congr fun l => ?_) (exists_congr fun p => ?_)
  · constructor
    · rintro ⟨⟨hl, -⟩, rfl⟩
      exact ⟨hl, rfl⟩
    · rintro ⟨hl, rfl⟩
      exact ⟨⟨hl, (hs l hl).trans h, h⟩, rfl⟩
  · constructor
    · rintro ⟨⟨hp, -⟩, hlink, rfl⟩
      exact ⟨hp, hlink, rfl⟩
    · rintro ⟨hp, hlink, rfl⟩
      exact ⟨⟨hp, h⟩, hlink, rfl⟩

theorem core_used (hs : g.Split) (h : branchIdFromName name = none) :
    g.core.links.any (·.1 = name) = g.links.any (·.1 = name) := by
  rw [Bool.eq_iff_iff]
  simp only [List.any_eq_true, mem_core_links, decide_eq_true_eq]
  refine exists_congr fun l => ?_
  constructor
  · rintro ⟨⟨hl, -⟩, rfl⟩
    exact ⟨hl, rfl⟩
  · rintro ⟨hl, rfl⟩
    exact ⟨⟨hl, h, (hs l hl).symm.trans h⟩, rfl⟩

theorem core_add (h : branchIdFromName e.name = none) : g.core.add e = (g.add e).map core := by
  have hin : e.name ∈ g.core.names ↔ e.name ∈ g.names := by
    rw [mem_core_names, and_iff_left h]
  by_cases hn : e.name ∈ g.names
  · rw [add, dif_pos (hin.mpr hn), add, dif_pos hn]
    rfl
  · rw [add, dif_neg (mt hin.mp hn), add, dif_neg hn, Option.map_some]
    congr 1
    ext1 <;> simp [core, h]

theorem add_beside (ha : g.add e = some g') (h : branchIdFromName e.name = none) :
    g.Beside g' := by
  obtain ⟨-, he, hl, hp, -⟩ := add_eq ha
  refine ⟨fun id => ?_, fun hs => ?_⟩
  · have hno : ¬ Owns id e.name := not_owned h
    ext1 <;> simp [own, he, hl, hp, hno]
  · rw [Split, hl]
    exact hs

theorem core_link (hs : g.Split) (h₁ : branchIdFromName source = none)
    (h₂ : branchIdFromName sink = none) :
    g.core.link source sink = (g.link source sink).map core := by
  unfold link
  rw [core_byName h₁, core_byName h₂, core_fed hs h₂, core_used hs h₁]
  cases g.byName source with
  | none => rfl
  | some s =>
    cases g.byName sink with
    | none => rfl
    | some t =>
      dsimp only
      split
      · rfl
      · split
        · rw [Option.map_some]
          congr 1
          ext1 <;> simp [core, h₂]
        · split
          · rfl
          · rw [Option.map_some]
            congr 1
            ext1 <;> simp [core, h₁, h₂]

theorem link_beside (hl : g.link source sink = some g') (h₁ : branchIdFromName source = none)
    (h₂ : branchIdFromName sink = none) : g.Beside g' := by
  obtain ⟨-, -, he, hd, ⟨-, -, hl, hp⟩ | ⟨hl, hp⟩⟩ := link_cases hl
  · refine ⟨fun id => ?_, fun hs => ?_⟩
    · have hno : ¬ Owns id sink := not_owned h₂
      ext1 <;> simp [own, he, hl, hp, hno]
    · rw [Split, hl]
      exact hs
  · refine ⟨fun id => ?_, fun hs => ?_⟩
    · have hno₁ : ¬ Owns id source := not_owned h₁
      have hno₂ : ¬ Owns id sink := not_owned h₂
      ext1 <;> simp [own, he, hl, hp, hno₁, hno₂]
    · rw [Split, hl]
      intro l hm
      obtain hm | hm := List.mem_append.mp hm
      · exact hs l hm
      · obtain rfl := List.mem_singleton.mp hm
        exact h₁.trans h₂.symm

theorem core_addMany {es : List Element} (h : ∀ e ∈ es, branchIdFromName e.name = none) :
    g.core.addMany es = ((g.addMany es).1.core, (g.addMany es).2) ∧
      g.Beside (g.addMany es).1 := by
  induction es generalizing g with
  | nil => exact ⟨rfl, .refl g⟩
  | cons e es ih =>
    have he := h e (List.mem_cons_self ..)
    simp only [addMany, core_add he]
    cases ha : g.add e with
    | none => exact ⟨rfl, .refl g⟩
    | some g₁ =>
      obtain ⟨hc, hb⟩ := @ih g₁ fun e' hm => h e' (List.mem_cons_of_mem _ hm)
      exact ⟨hc, (add_beside ha he).trans hb⟩

theorem core_linkMany {names : List String} (hs : g.Split)
    (h : ∀ name ∈ names, branchIdFromName name = none) :
    g.core.linkMany names = ((g.linkMany names).1.core, (g.linkMany names).2) ∧
      g.Beside (g.linkMany names).1 := by
  induction names generalizing g with
  | nil => exact ⟨rfl, .refl g⟩
  | cons source names ih =>
    cases names with
    | nil => exact ⟨rfl, .refl g⟩
    | cons sink names =>
      have h₁ := h source (by simp)
      have h₂ := h sink (by simp)
      simp only [linkMany, core_link hs h₁ h₂]
      cases hl : g.link source sink with
      | none => exact ⟨rfl, .refl g⟩
      | some g₁ =>
        have hb₁ := link_beside hl h₁ h₂
        obtain ⟨hc, hb⟩ := ih (hb₁.split hs) fun name hm => h name (List.mem_cons_of_mem _ hm)
        exact ⟨hc, hb₁.trans hb⟩

end Core

end Graph

namespace Bin

def core (p : Bin) : Bin := ⟨p.graph.core, p.numbers⟩

variable {p : Bin} {mediaType : String}

theorem make_core {specs : List Spec} (h : ∀ spec ∈ specs, spec.IsCore) :
    ∀ e ∈ p.make specs, branchIdFromName e.name = none := by
  intro e he
  obtain ⟨spec, hs, rfl⟩ := List.mem_map.mp he
  exact (h spec hs).nameWith _

theorem ingestQueue_core (m : Media) : branchIdFromName m.ingestQueue = none := by
  cases m <;> decide

theorem outputTee_core (m : Media) : branchIdFromName m.outputTee = none := by
  cases m <;> decide

theorem core_buildEgressChain (hs : p.graph.Split) :
    p.core.buildEgressChain mediaType =
        ((p.buildEgressChain mediaType).1.core, (p.buildEgressChain mediaType).2) ∧
      p.graph.Beside (p.buildEgressChain mediaType).1.graph := by
  unfold buildEgressChain
  cases hm : chainMedia mediaType with
  | none => exact ⟨rfl, .refl _⟩
  | some m =>
    cases he : egressElements mediaType with
    | none => exact ⟨rfl, .refl _⟩
    | some specs =>
      have hcore := @make_core p _ (egressElements_core he)
      obtain ⟨hadd, hb⟩ := @Graph.core_addMany p.graph _ hcore
      change p.core.graph.addMany (p.core.make specs) = _ at hadd
      dsimp only
      rw [hadd]
      cases ha : p.graph.addMany (p.make specs) with
      | mk g r =>
        rw [ha] at hb
        cases r with
        | error e => exact ⟨rfl, hb⟩
        | ok u =>
          have hnames : ∀ name ∈ m.ingestQueue :: (p.make specs).map Element.name,
              branchIdFromName name = none := by
            intro name hn
            obtain rfl | hn := List.mem_cons.mp hn
            · exact ingestQueue_core m
            · obtain ⟨e, he, rfl⟩ := List.mem_map.mp hn
              exact hcore e he
          obtain ⟨hlink, hb'⟩ := Graph.core_linkMany (hb.split hs) hnames
          change g.core.linkMany (m.ingestQueue :: (p.core.make specs).map Element.name) = _
            at hlink
          dsimp only
          rw [hlink]
          exact ⟨rfl, hb.trans hb'⟩

theorem core_noMorePads {pads : List (Option String)} (hs : p.graph.Split) :
    p.core.noMorePads pads = ((p.noMorePads pads).1.core, (p.noMorePads pads).2) ∧
      p.graph.Beside (p.noMorePads pads).1.graph := by
  induction pads generalizing p with
  | nil => exact ⟨rfl, .refl _⟩
  | cons pad pads ih =>
    cases pad with
    | none => exact ⟨rfl, .refl _⟩
    | some mediaType =>
      obtain ⟨hc, hb⟩ := @core_buildEgressChain _ mediaType hs
      simp only [noMorePads]
      rw [hc]
      cases hr : p.buildEgressChain mediaType with
      | mk p' r =>
        rw [hr] at hb
        cases r with
        | error e => exact ⟨rfl, hb⟩
        | ok u =>
          obtain ⟨hc', hb'⟩ := ih (hb.split hs)
          exact ⟨hc', hb.trans hb'⟩

end Bin

end SrtWhep.Stream
