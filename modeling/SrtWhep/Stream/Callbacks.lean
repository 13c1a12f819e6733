import SrtWhep.Stream.Parts

namespace SrtWhep.Stream

open Relation

namespace Bin

def padKind (mediaType : String) : Option Media :=
  if startsWith mediaType "audio/" then some .audio
  else if startsWith mediaType "video/" then some .video
  else none

/-- A new pad is linked to the ingest queue of its kind. That an earlier one has taken
the queue is only logged, as are caps of no use. -/
def padAdded (p : Bin) (name : String) (mediaType : Option String) : Bin :=
  let g := { p.graph with demuxPads := p.graph.demuxPads ++ [name] }
  match mediaType.bind padKind with
  | some m =>
    if (g.byName m.ingestQueue).isSome ∧ g.fed m.ingestQueue = false then
      ⟨{ g with links := g.links ++ [(demux, m.ingestQueue)] }, p.numbers⟩
    else ⟨g, p.numbers⟩
  | none => ⟨g, p.numbers⟩

end Bin

/-- What the demux calls back with: a new pad and the media type of its caps, or those
of all its pads when there are no more to come. -/
inductive Callback
  | padAdded (name : String) (mediaType : Option String)
  | noMorePads (pads : List (Option String))
deriving DecidableEq, Repr

def Bin.callback (p : Bin) : Callback → Bin
  | .padAdded name mediaType => p.padAdded name mediaType
  | .noMorePads pads => (p.noMorePads pads).1

namespace Graph

structure Grows (g g' : Graph) : Prop where
  elements : ∀ e ∈ g.elements, e ∈ g'.elements
  flows : ∀ {source sink}, g.Flows source sink → g'.Flows source sink
  demuxPads : ∀ name ∈ g.demuxPads, name ∈ g'.demuxPads

section Growth

variable {g g' g'' : Graph} {e : Element} {source sink : String}

theorem Grows.refl (g : Graph) : g.Grows g := ⟨fun _ h => h, id, fun _ h => h⟩

theorem Grows.trans (h : g.Grows g') (h' : g'.Grows g'') : g.Grows g'' :=
  ⟨fun e he => h'.elements e (h.elements e he), fun hf => h'.flows (h.flows hf),
    fun name hn => h'.demuxPads name (h.demuxPads name hn)⟩

theorem Grows.names {name : String} (h : g.Grows g') (hn : name ∈ g.names) : name ∈ g'.names := by
  obtain ⟨e, he, rfl⟩ := mem_names.mp hn
  exact mem_names.mpr ⟨e, h.elements e he, rfl⟩

theorem Grows.exposes {m : Media} (h : g.Grows g') (hx : g.exposes m) : g'.exposes m := by
  obtain ⟨name, hn, hs⟩ := List.any_eq_true.mp hx
  exact List.any_eq_true.mpr ⟨name, h.demuxPads name hn, hs⟩

theorem Grows.reaches (h : g.Grows g') (hr : ReflTransGen g.Flows source sink) :
    ReflTransGen g'.Flows source sink :=
  ReflTransGen.mono (fun _ _ => h.flows) _ _ hr

theorem Grows.of_subset (he : ∀ e ∈ g.elements, e ∈ g'.elements)
    (hl : ∀ l ∈ g.links, l ∈ g'.links) (hp : ∀ p ∈ g.teePads, p ∈ g'.teePads)
    (hd : ∀ name ∈ g.demuxPads, name ∈ g'.demuxPads) : g.Grows g' := by
  refine ⟨he, fun hf => hf.imp (hl _) ?_, hd⟩
  rintro ⟨p, hm, hc⟩
  exact ⟨p, hp p hm, hc⟩

theorem add_grows (h : g.add e = some g') : g.Grows g' := by
  obtain ⟨-, he, hl, hp, hd⟩ := add_eq h
  refine .of_subset (fun e hm => ?_) (fun l hm => hl ▸ hm) (fun p hm => hp ▸ hm)
    fun name hm => hd ▸ hm
  rw [he]
  exact List.mem_append_left _ hm

theorem link_grows (h : g.link source sink = some g') : g.Grows g' ∧ g'.Flows source sink := by
  obtain ⟨-, -, he, hd, ⟨-, -, hl, hp⟩ | ⟨hl, hp⟩⟩ := link_cases h
  · constructor
    · refine .of_subset (fun e hm => he ▸ hm) (fun l hm => hl ▸ hm) (fun p hm => ?_)
        fun name hm => hd ▸ hm
      rw [hp]
      exact List.mem_append_left _ hm
    · exact .inr ⟨_, hp ▸ List.mem_append_right _ (List.mem_singleton_self _), rfl, rfl, rfl⟩
  · constructor
    · refine .of_subset (fun e hm => he ▸ hm) (fun l hm => ?_) (fun p hm => hp ▸ hm)
        fun name hm => hd ▸ hm
      rw [hl]
      exact List.mem_append_left _ hm
    · exact .inl (hl ▸ List.mem_append_right _ (List.mem_singleton_self _))

theorem addMany_grows {es : List Element} : g.Grows (g.addMany es).1 := by
  induction es generalizing g with
  | nil => exact .refl g
  | cons e es ih =>
    simp only [addMany]
    cases ha : g.add e with
    | none => exact .refl g
    | some g₁ => exact (add_grows ha).trans ih

theorem linkMany_grows {names : List String} : g.Grows (g.linkMany names).1 := by
  induction names generalizing g with
  | nil => exact .refl g
  | cons source names ih =>
    cases names with
    | nil => exact .refl g
    | cons sink names =>
      simp only [linkMany]
      cases hl : g.link source sink with
      | none => exact .refl g
      | some g₁ => exact (link_grows hl).1.trans ih

theorem linkMany_flows {names : List String} (h : g.linkMany names = (g', .ok ())) :
    names.IsChain g'.Flows := by
  induction names generalizing g with
  | nil => exact .nil
  | cons source names ih =>
    cases names with
    | nil => exact .singleton _
    | cons sink names =>
      simp only [linkMany] at h
      cases hl : g.link source sink with
      | none =>
        rw [hl] at h
        cases h
      | some g₁ =>
        have hg := @linkMany_grows g₁ (sink :: names)
        rw [hl] at h
        change g₁.linkMany (sink :: names) = _ at h
        rw [h] at hg
        exact List.isChain_cons_cons.mpr ⟨hg.flows (link_grows hl).2, ih h⟩

theorem chain_reaches {names : List String} (h : (source :: names).IsChain g.Flows)
    (hm : sink ∈ names) : ReflTransGen g.Flows source sink := by
  have hr := h.imp (S := ReflTransGen g.Flows) fun _ _ => .single
  exact List.rel_of_pairwise_cons hr.pairwise hm

theorem addMany_taken {es : List Element} : ∃ taken, taken <+: es ∧
    (∀ e ∈ taken, e.name ∉ g.names) ∧ (g.addMany es).1.elements = g.elements ++ taken ∧
    (g.addMany es).1.links = g.links ∧ (g.addMany es).1.teePads = g.teePads ∧
    ((g.addMany es).2 = .ok () → taken = es) := by
  induction es generalizing g with
  | nil => exact ⟨[], List.prefix_rfl, by simp, by simp [addMany], rfl, rfl, fun _ => rfl⟩
  | cons e es ih =>
    simp only [addMany]
    cases ha : g.add e with
    | none => exact ⟨[], List.nil_prefix, by simp, by simp, rfl, rfl, fun h => by cases h⟩
    | some g₁ =>
      obtain ⟨hn, he, hl, hp, -⟩ := add_eq ha
      obtain ⟨taken, hpre, hnew, he', hl', hp', hok⟩ := @ih g₁
      refine ⟨e :: taken, List.cons_prefix_cons.mpr ⟨rfl, hpre⟩, fun e' hm => ?_, ?_,
        hl'.trans hl, hp'.trans hp, fun h => by rw [hok h]⟩
      · obtain rfl | hm := List.mem_cons.mp hm
        · exact hn
        · exact mt (add_grows ha).names (hnew e' hm)
      · rw [he', he]
        simp

end Growth

end Graph

/-- The core of a running pipeline: the source reaches the demux, and each ingest queue
that has its chain reaches its output tee. -/
structure Streaming (p : Bin) (built : List Media) : Prop where
  ingesting : Ingesting p built
  demuxed : demux ∈ p.graph.names
  tees : ∀ m ∈ built, ⟨"tee", m.outputTee⟩ ∈ p.graph.elements
  source : ReflTransGen p.graph.Flows srtSource demux
  chains : ∀ m ∈ built, ReflTransGen p.graph.Flows m.ingestQueue m.outputTee

section Streams

variable {p p' : Bin} {built : List Media} {m : Media} {mediaType : String} {specs : List Spec}

theorem Streaming.grows (h : Streaming p built) (hg : p.graph.Grows p'.graph)
    (hi : Ingesting p' built) : Streaming p' built :=
  ⟨hi, hg.names h.demuxed, fun m hm => hg.elements _ (h.tees m hm), hg.reaches h.source,
    fun m hm => hg.reaches (h.chains m hm)⟩

theorem Bin.buildEgressChain_grows : p.graph.Grows (p.buildEgressChain mediaType).1.graph := by
  unfold Bin.buildEgressChain
  split
  next m specs _ _ =>
    have hadd := @Graph.addMany_grows p.graph (p.make specs)
    dsimp only
    split
    next g e ha =>
      rw [ha] at hadd
      exact hadd
    next g ha =>
      rw [ha] at hadd
      exact hadd.trans Graph.linkMany_grows
  next => exact .refl _

theorem Bin.buildEgressChain_tee (ht : Bin.chainMedia mediaType = some m)
    (h : p.buildEgressChain mediaType = (p', .ok ())) :
    ⟨"tee", m.outputTee⟩ ∈ p'.graph.elements ∧
      ReflTransGen p'.graph.Flows m.ingestQueue m.outputTee := by
  obtain ⟨specs, hspecs, hc⟩ := egressElements_chain ht
  unfold Bin.buildEgressChain at h
  simp only [ht, hspecs] at h
  obtain ⟨taken, -, -, he, -, -, hok⟩ := @Graph.addMany_taken p.graph (p.make specs)
  cases ha : p.graph.addMany (p.make specs) with
  | mk g r =>
    rw [ha] at h he hok
    cases r with
    | error e => cases h
    | ok u =>
      obtain rfl := hok rfl
      have htee : ⟨"tee", m.outputTee⟩ ∈ p.make specs := List.mem_map.mpr ⟨_, hc.tee, rfl⟩
      cases hl : g.linkMany (m.ingestQueue :: (p.make specs).map Element.name) with
      | mk g' r =>
        simp only [hl, Prod.mk.injEq] at h
        obtain ⟨rfl, rfl⟩ := h
        have hg := @Graph.linkMany_grows g (m.ingestQueue :: (p.make specs).map Element.name)
        rw [hl] at hg
        have htee' : ⟨"tee", m.outputTee⟩ ∈ g.elements := by
          rw [he]
          exact List.mem_append_right _ htee
        exact ⟨hg.elements _ htee', Graph.chain_reaches (Graph.linkMany_flows hl)
          (List.mem_map.mpr ⟨_, htee, rfl⟩)⟩

/-- A second chain of a kind comes to nothing but elements that are not linked. -/
theorem Ingesting.again (h : Ingesting p built) (ht : Bin.chainMedia mediaType = some m)
    (hm : m ∈ built) : ∃ p' e, p.buildEgressChain mediaType = (p', .error e) ∧
      Ingesting p' built := by
  obtain ⟨specs, hspecs, hc⟩ := egressElements_chain ht
  obtain ⟨taken, hpre, hnew, he, hl, hp, hok⟩ := @Graph.addMany_taken p.graph (p.make specs)
  have htee : ⟨"tee", m.outputTee⟩ ∈ p.make specs := List.mem_map.mpr ⟨_, hc.tee, rfl⟩
  cases ha : p.graph.addMany (p.make specs) with
  | mk g r =>
    rw [ha] at he hl hp hok
    dsimp only at he hl hp
    cases r with
    | ok u =>
      obtain rfl := hok rfl
      exact absurd ((h.tees m).mpr hm) (hnew _ htee)
    | error e =>
      have hn : g.names = p.graph.names ++ taken.map Element.name := by
        simp [Graph.names, he]
      have htaken : ∀ name ∈ taken.map Element.name, name ∈ (p.make specs).map Element.name :=
        fun name hm => (hpre.map Element.name).subset hm
      refine ⟨⟨g, p.bump specs⟩, e, ?_, ?_⟩
      · unfold Bin.buildEgressChain
        simp only [ht, hspecs, ha]
      · constructor
        case queues =>
          intro m'
          rw [he]
          exact List.mem_append_left _ (h.queues m')
        case tees =>
          intro m'
          rw [hn, List.mem_append, h.tees m']
          refine or_iff_left_of_imp fun hin => ?_
          rwa [(hc.tee_mem m').mp (htaken _ hin)]
        case ends => exact fun m' hm' l hin => h.ends m' hm' l (hl ▸ hin)
        case unused =>
          intro factory hf number hnum
          rw [hn, List.mem_append, not_or]
          exact ⟨h.unused factory hf number (le_trans (Nat.le_add_right ..) hnum),
            mt (htaken _) (hc.unused hf hnum)⟩
        case links =>
          intro l hin
          rw [hn]
          exact (h.links l (hl ▸ hin)).imp (List.mem_append_left _) (List.mem_append_left _)
        case teePads =>
          intro q hin
          rw [hn]
          exact List.mem_append_left _ (h.teePads q (hp ▸ hin))

theorem Streaming.noMorePads {pads : List (Option String)} (h : Streaming p built) :
    ∃ built', built ⊆ built' ∧ Streaming (p.noMorePads pads).1 built' := by
  induction pads generalizing p built with
  | nil => exact ⟨built, List.Subset.refl _, h⟩
  | cons pad pads ih =>
    cases pad with
    | none => exact ⟨built, List.Subset.refl _, h⟩
    | some mediaType =>
      have hgrows := @Bin.buildEgressChain_grows p mediaType
      simp only [Bin.noMorePads]
      cases hm : padMedia (some mediaType) with
      | none =>
        rw [Bin.unsupported hm]
        exact ⟨built, List.Subset.refl _, h⟩
      | some m =>
        by_cases hb : m ∈ built
        · obtain ⟨p', e, hp', hi⟩ := h.ingesting.again hm hb
          rw [hp'] at hgrows ⊢
          exact ⟨built, List.Subset.refl _, h.grows hgrows hi⟩
        · obtain ⟨p', hp', hi⟩ := h.ingesting.chain hm hb
          obtain ⟨htee, hreach⟩ := Bin.buildEgressChain_tee hm hp'
          rw [hp'] at hgrows ⊢
          have hs : Streaming p' (m :: built) := by
            refine ⟨hi, hgrows.names h.demuxed, ?_, hgrows.reaches h.source, ?_⟩
            · exact List.forall_mem_cons.mpr
                ⟨htee, fun m' hm' => hgrows.elements _ (h.tees m' hm')⟩
            · exact List.forall_mem_cons.mpr
                ⟨hreach, fun m' hm' => hgrows.reaches (h.chains m' hm')⟩
          obtain ⟨built', hsub, hs'⟩ := ih hs
          exact ⟨built', fun m' hm' => hsub (List.mem_cons_of_mem _ hm'), hs'⟩

theorem Bin.padAdded_cases (p : Bin) (name : String) (pad : Option String) :
    ∃ links, (p.padAdded name pad).graph.elements = p.graph.elements ∧
      (p.padAdded name pad).graph.links = p.graph.links ++ links ∧
      (p.padAdded name pad).graph.teePads = p.graph.teePads ∧
      (p.padAdded name pad).graph.demuxPads = p.graph.demuxPads ++ [name] ∧
      (p.padAdded name pad).numbers = p.numbers ∧
      ∀ l ∈ links, ∃ m : Media, m.ingestQueue ∈ p.graph.names ∧ l = (demux, m.ingestQueue) := by
  unfold Bin.padAdded
  dsimp only
  split
  next m _ =>
    split
    next hc =>
      refine ⟨[(demux, m.ingestQueue)], rfl, rfl, rfl, rfl, rfl, fun l hl => ?_⟩
      exact ⟨m, Graph.byName_isSome.mp hc.1, List.mem_singleton.mp hl⟩
    next => exact ⟨[], rfl, by simp, rfl, rfl, rfl, by simp⟩
  next => exact ⟨[], rfl, by simp, rfl, rfl, rfl, by simp⟩

theorem Bin.padAdded_grows {name : String} {pad : Option String} :
    p.graph.Grows (p.padAdded name pad).graph := by
  obtain ⟨links, he, hl, hp, hd, -, -⟩ := p.padAdded_cases name pad
  refine .of_subset (fun e hm => he ▸ hm) (fun l hm => ?_) (fun q hm => hp ▸ hm) fun n hm => ?_
  · rw [hl]
    exact List.mem_append_left _ hm
  · rw [hd]
    exact List.mem_append_left _ hm

theorem Streaming.padAdded {name : String} {pad : Option String} (h : Streaming p built) :
    Streaming (p.padAdded name pad) built := by
  obtain ⟨links, he, hl, hp, -, hn, hlinks⟩ := p.padAdded_cases name pad
  have hnames : (p.padAdded name pad).graph.names = p.graph.names := by simp [Graph.names, he]
  obtain ⟨queues, tees, ends, unused, hin, hpads⟩ := h.ingesting
  refine h.grows Bin.padAdded_grows ?_
  constructor
  case queues => exact he ▸ queues
  case tees => exact hnames ▸ tees
  case ends =>
    intro m hm l hin
    rw [hl] at hin
    obtain hin | hin := List.mem_append.mp hin
    · exact ends m hm l hin
    · obtain ⟨m', -, rfl⟩ := hlinks l hin
      change demux ≠ m.ingestQueue
      cases m <;> decide
  case unused =>
    rw [hn, hnames]
    exact unused
  case links =>
    intro l hm
    rw [hnames]
    rw [hl] at hm
    obtain hm | hm := List.mem_append.mp hm
    · exact hin l hm
    · obtain ⟨m', hm', rfl⟩ := hlinks l hm
      exact ⟨h.demuxed, hm'⟩
  case teePads =>
    rw [hp, hnames]
    exact hpads

theorem Streaming.callback {c : Callback} (h : Streaming p built) :
    ∃ built', built ⊆ built' ∧ Streaming (p.callback c) built' := by
  cases c with
  | padAdded name pad => exact ⟨built, List.Subset.refl _, h.padAdded⟩
  | noMorePads pads => exact h.noMorePads

theorem Bin.callback_grows {c : Callback} : p.graph.Grows (p.callback c).graph := by
  cases c with
  | padAdded name pad => exact padAdded_grows
  | noMorePads pads =>
    change p.graph.Grows (p.noMorePads pads).1.graph
    induction pads generalizing p with
    | nil => exact .refl _
    | cons pad pads ih =>
      cases pad with
      | none => exact .refl _
      | some mediaType =>
        have hg := @Bin.buildEgressChain_grows p mediaType
        simp only [Bin.noMorePads]
        cases hr : p.buildEgressChain mediaType with
        | mk p' r =>
          rw [hr] at hg
          cases r with
          | error e => exact hg
          | ok u => exact hg.trans ih

end Streams

section Core

variable {p : Bin} {c : Callback} {name : String} {pad : Option String}

theorem Bin.core_padAdded (hs : p.graph.Split) :
    p.core.padAdded name pad = (p.padAdded name pad).core ∧
      p.graph.Beside (p.padAdded name pad).graph := by
  let g : Graph := { p.graph with demuxPads := p.graph.demuxPads ++ [name] }
  have hg : g.Split := hs
  have hd : branchIdFromName demux = none := by decide
  have hb : p.graph.Beside g := ⟨fun _ => rfl, fun _ => hs⟩
  cases hk : pad.bind padKind with
  | none =>
    have hcore : p.core.padAdded name pad = (p.padAdded name pad).core := by
      simp only [Bin.padAdded, hk]
      rfl
    refine ⟨hcore, ?_⟩
    simp only [Bin.padAdded, hk]
    exact hb
  | some m =>
    have hq := ingestQueue_core m
    have hname : g.core.byName m.ingestQueue = g.byName m.ingestQueue := Graph.core_byName hq
    have hfed : g.core.fed m.ingestQueue = g.fed m.ingestQueue := Graph.core_fed hg hq
    by_cases hc : (g.byName m.ingestQueue).isSome ∧ g.fed m.ingestQueue = false
    · have hpad : p.padAdded name pad =
          ⟨{ g with links := g.links ++ [(demux, m.ingestQueue)] }, p.numbers⟩ := by
        simp only [Bin.padAdded, hk]
        exact if_pos hc
      have hpad' : p.core.padAdded name pad =
          ⟨{ g.core with links := g.core.links ++ [(demux, m.ingestQueue)] }, p.numbers⟩ := by
        simp only [Bin.padAdded, hk]
        exact if_pos (by rwa [← hname, ← hfed] at hc)
      rw [hpad, hpad']
      refine ⟨?_, fun id => ?_, fun _ l hl => ?_⟩
      · simp [Bin.core, Graph.core, hd, hq]
      · have hno₁ : ¬ Owns id demux := Graph.not_owned hd
        have hno₂ : ¬ Owns id m.ingestQueue := Graph.not_owned hq
        ext1 <;> simp [g, Graph.own, hno₁, hno₂]
      · obtain hl | hl := List.mem_append.mp hl
        · exact hs l hl
        · obtain rfl := List.mem_singleton.mp hl
          exact hd.trans hq.symm
    · have hpad : p.padAdded name pad = ⟨g, p.numbers⟩ := by
        simp only [Bin.padAdded, hk]
        exact if_neg hc
      have hpad' : p.core.padAdded name pad = ⟨g.core, p.numbers⟩ := by
        simp only [Bin.padAdded, hk]
        exact if_neg (by rwa [← hname, ← hfed] at hc)
      rw [hpad, hpad']
      exact ⟨rfl, hb⟩

/-- The demux finds the core as if there were no viewers. -/
theorem Bin.core_callback (hs : p.graph.Split) :
    p.core.callback c = (p.callback c).core ∧ p.graph.Beside (p.callback c).graph := by
  cases c with
  | padAdded name pad => exact core_padAdded hs
  | noMorePads pads =>
    obtain ⟨hc, hb⟩ := @core_noMorePads _ pads hs
    exact ⟨congrArg Prod.fst hc, hb⟩

end Core

section Init

variable {g g' : Graph} {chains : List (List String)} {numbers : String → Nat}

theorem Graph.linkChains_grows : g.Grows (g.linkChains chains).1 := by
  induction chains generalizing g with
  | nil => exact .refl g
  | cons names chains ih =>
    have hg := @linkMany_grows g names
    simp only [linkChains]
    cases hl : g.linkMany names with
    | mk g₁ r =>
      rw [hl] at hg
      cases r with
      | error e => exact hg
      | ok u => exact hg.trans ih

theorem Graph.linkChains_flows (h : g.linkChains chains = (g', .ok ())) :
    ∀ names ∈ chains, names.IsChain g'.Flows := by
  induction chains generalizing g with
  | nil => simp
  | cons names chains ih =>
    simp only [linkChains] at h
    cases hl : g.linkMany names with
    | mk g₁ r =>
      rw [hl] at h
      cases r with
      | error e => cases h
      | ok u =>
        have hg := @linkChains_grows g₁ chains
        change g₁.linkChains chains = _ at h
        rw [h] at hg
        exact List.forall_mem_cons.mpr
          ⟨(linkMany_flows hl).imp fun _ _ => hg.flows, ih h⟩

theorem Graph.core_linkChains (hs : g.Split)
    (h : ∀ names ∈ chains, ∀ name ∈ names, branchIdFromName name = none) :
    g.core.linkChains chains = ((g.linkChains chains).1.core, (g.linkChains chains).2) ∧
      g.Beside (g.linkChains chains).1 := by
  induction chains generalizing g with
  | nil => exact ⟨rfl, .refl g⟩
  | cons names chains ih =>
    obtain ⟨hn, hb⟩ := core_linkMany hs (h names (List.mem_cons_self ..))
    simp only [linkChains]
    rw [hn]
    cases hl : g.linkMany names with
    | mk g₁ r =>
      rw [hl] at hb
      cases r with
      | error e => exact ⟨rfl, hb⟩
      | ok u =>
        obtain ⟨hc, hb'⟩ := ih (hb.split hs) fun names hm => h names (List.mem_cons_of_mem _ hm)
        exact ⟨hc, hb.trans hb'⟩

theorem Bin.init_calls (numbers : String → Nat) :
    ∃ p g, Bin.init numbers = (p, .ok ()) ∧ Ingesting p [] ∧
      Graph.empty.addMany (Bin.make ⟨Graph.empty, numbers⟩ initElements) = (g, .ok ()) ∧
      g.linkChains (initChains ("srtsink" ++ toString (numbers "srtsink"))) =
        (p.graph, .ok ()) := by
  obtain ⟨p, hp, hi⟩ := init_ingesting numbers
  cases ha : Graph.empty.addMany (Bin.make ⟨Graph.empty, numbers⟩ initElements) with
  | mk g r =>
    cases r with
    | error e =>
      unfold Bin.init at hp
      dsimp only at hp
      rw [ha] at hp
      cases hp
    | ok u =>
      have hp' := hp
      rw [Bin.init_eq ha] at hp'
      cases hl : g.linkChains (initChains ("srtsink" ++ toString (numbers "srtsink"))) with
      | mk g' r =>
        rw [hl] at hp'
        cases hp'
        exact ⟨_, g, hp, hi, rfl, hl⟩

theorem init_streaming (numbers : String → Nat) : Streaming (Bin.init numbers).1 [] ∧
    (Bin.init numbers).1.core = (Bin.init numbers).1 ∧ (Bin.init numbers).1.graph.Split ∧
      ∀ id, (Bin.init numbers).1.graph.own id = .empty := by
  obtain ⟨p, g, hp, hi, ha, hl⟩ := Bin.init_calls numbers
  have hsplit : Graph.empty.Split := fun l hl => by cases hl
  obtain ⟨hadd, hb⟩ := @Graph.core_addMany Graph.empty _
    (@Bin.make_core ⟨Graph.empty, numbers⟩ _ initElements_core)
  have hchains : ∀ names ∈ initChains ("srtsink" ++ toString (numbers "srtsink")),
      ∀ name ∈ names, branchIdFromName name = none := by
    have hsink := Apart.name (by decide : Apart "srtsink") (toString (numbers "srtsink"))
    have hgiven : ∀ name ∈ givenNames, branchIdFromName name = none := by decide
    intro names hn name hm
    have hc : name ∈ chainedNames ("srtsink" ++ toString (numbers "srtsink")) := by
      simp only [initChains, List.mem_cons, List.not_mem_nil, or_false] at hn
      obtain rfl | rfl | rfl := hn
      · exact List.mem_append_left _ (List.mem_append_left _ hm)
      · exact List.mem_append_left _ (List.mem_append_right _ hm)
      · exact List.mem_append_right _ hm
    obtain rfl | ⟨hg, -⟩ := chainedNames_given hc
    · exact hsink
    · exact hgiven name hg
  rw [ha] at hadd hb
  obtain ⟨hlink, hb'⟩ := Graph.core_linkChains (hb.split hsplit) hchains
  rw [hl] at hlink hb'
  have hgcore : g.core = g := (congrArg Prod.fst (hadd.symm.trans ha))
  have hflows := Graph.linkChains_flows hl
  rw [hp]
  refine ⟨⟨hi, ?_, by simp, ?_, by simp⟩, ?_, hb'.split (hb.split hsplit), fun id => ?_⟩
  · obtain ⟨taken, -, -, he, -, -, hok⟩ := @Graph.addMany_taken Graph.empty
      (Bin.make ⟨Graph.empty, numbers⟩ initElements)
    have hgrows := @Graph.linkChains_grows g
      (initChains ("srtsink" ++ toString (numbers "srtsink")))
    rw [ha] at he hok
    rw [hl] at hgrows
    obtain rfl := hok rfl
    refine hgrows.names (Graph.mem_names.mpr ⟨⟨"tsdemux", demux⟩, ?_, rfl⟩)
    rw [he]
    exact List.mem_append_right _ (List.mem_map.mpr ⟨⟨"tsdemux", some demux⟩, by decide, rfl⟩)
  · have h₁ := Graph.chain_reaches (hflows [srtSource, "input_tee"] (by simp [initChains]))
      (List.mem_singleton_self _)
    have hchain := hflows ["input_tee", "whep-queue", "typefind", demux] (by simp [initChains])
    have h₂ : ReflTransGen p.graph.Flows "input_tee" demux :=
      Graph.chain_reaches hchain (by simp)
    exact h₁.trans h₂
  · rw [hgcore, hl] at hlink
    exact congrArg (Bin.mk · p.numbers) (congrArg Prod.fst hlink).symm
  · exact (hb'.own id).trans (hb.own id)

end Init

end SrtWhep.Stream
