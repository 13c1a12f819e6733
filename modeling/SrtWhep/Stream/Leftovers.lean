import SrtWhep.Stream.Branch

namespace SrtWhep.Stream

namespace Branch

variable {b : Branch} {name : String} {e : Element}

theorem owns_iff : Owns b.id name ↔ name ∈ b.elements.map Element.name := by
  rw [Owns, branchIdFromName_eq_some]
  simp only [stems, List.mem_cons, List.not_mem_nil, or_false, exists_eq_or_imp, exists_eq_left,
    elements, List.map_cons, List.map_nil]
  tauto

theorem mem_branchElements (h : e ∈ b.elements) :
    (⟨e.factory, some e.name⟩ : Spec) ∈ branchElements b.id := by
  have hspecs : b.elements.map (fun e => (⟨e.factory, some e.name⟩ : Spec)) =
      branchElements b.id := rfl
  rw [← hspecs]
  exact List.mem_map_of_mem h

theorem owns_elements (h : e ∈ b.elements) : Owns b.id e.name :=
  branchElements_name (mem_branchElements h) 0

theorem not_tee (h : e ∈ b.elements) : e.factory ≠ "tee" := by
  simp only [elements, List.mem_cons, List.not_mem_nil, or_false] at h
  obtain rfl | rfl | rfl | rfl := h <;> simp [whipSink, videoQueue, videoDecoder, audioQueue]

def queues (b : Branch) : List String := [b.videoQueueName, b.audioQueueName]

theorem sink_not_queue : b.whipSinkName ∉ b.queues := by
  intro hm
  simp only [queues, List.mem_cons, List.not_mem_nil, or_false] at hm
  obtain hm | hm := hm
  · exact absurd (branchName_inj (by decide) (by decide) hm).1 (by decide)
  · exact absurd (branchName_inj (by decide) (by decide) hm).1 (by decide)

theorem queue_not_sink (h : e ∈ b.elements) (hq : e.name ∈ b.queues) :
    e.factory ≠ "whipclientsink" := by
  simp only [elements, List.mem_cons, List.not_mem_nil, or_false] at h
  obtain rfl | rfl | rfl | rfl := h
  · exact absurd hq sink_not_queue
  all_goals simp [videoQueue, videoDecoder, audioQueue]

def Allows (b : Branch) : AttachOp → Prop
  | .add e => e ∈ b.elements
  | .link source sink => Owns b.id sink ∧ (Owns b.id source ∨ sink ∈ b.queues)
  | _ => True

theorem owns_names : Owns b.id b.whipSinkName ∧ Owns b.id b.videoQueueName ∧
    Owns b.id b.audioQueueName ∧ Owns b.id b.videoDecoderName := by
  simp [owns_iff, elements, whipSink, videoQueue, audioQueue, videoDecoder]

theorem attach_allows : ∀ op ∈ b.attach, b.Allows op := by
  simp [attach, Allows, elements]

theorem attachMedia_allows (decodeVideo : Bool) (m : Media) :
    ∀ op ∈ b.attachMedia decodeVideo m, b.Allows op := by
  obtain ⟨h₁, h₂, h₃, h₄⟩ := @owns_names b
  cases m with
  | video =>
    cases decodeVideo with
    | true => simp [attachMedia, linkMany, Allows, elements, queues, h₁, h₂, h₄]
    | false => simp [attachMedia, linkMany, Allows, elements, queues, h₁, h₂]
  | audio => simp [attachMedia, linkMany, Allows, elements, queues, h₁, h₃]

end Branch

/-- What is in the pipeline for a viewer, while nothing has been done about it
but by its branch. -/
structure Tidy (b : Branch) (o : Graph) : Prop where
  elements : ∀ e ∈ o.elements, e ∈ b.elements
  links : ∀ l ∈ o.links, l.1 ∈ o.names ∨ l.2 ∈ o.names
  queues : ∀ p ∈ o.teePads, p.queue ∈ b.queues
  once : (o.teePads.map TeePad.queue).Nodup

def Linked (o : Graph) : Prop := ∀ p ∈ o.teePads, p.linked = true ∧ p.queue ∈ o.names

structure Exact (cs : List Change) (o : Graph) : Prop where
  names : ∀ name, name ∈ o.names ↔ .added name ∈ cs ∧ .removed name ∉ cs
  pads : ∀ tee queue, (∃ p ∈ o.teePads, p.tee = tee ∧ p.queue = queue) ↔
    .requested tee queue ∈ cs ∧ .released tee queue ∉ cs

def Additive (cs : List Change) : Prop :=
  (∀ name, .removed name ∉ cs) ∧ ∀ tee queue, .released tee queue ∉ cs

structure Attached (b : Branch) (cs : List Change) (o : Graph) : Prop where
  tidy : Tidy b o
  exact : Exact cs o
  linked : Linked o
  additive : Additive cs

section Attaching

variable {b : Branch} {decodeVideo : Bool} {o g g' : Graph} {cs cs' : List Change}

theorem attached_empty : Attached b [] .empty where
  tidy := by constructor <;> simp [Graph.empty]
  exact := ⟨by simp [Graph.names, Graph.empty], by simp [Graph.empty]⟩
  linked := by simp [Linked, Graph.empty]
  additive := by simp [Additive]

theorem attached_iff : (∃ cs, Attached b cs o) ↔ Tidy b o ∧ Linked o := by
  constructor
  · rintro ⟨cs, h⟩
    exact ⟨h.tidy, h.linked⟩
  · rintro ⟨ht, hl⟩
    refine ⟨o.names.map .added ++ o.teePads.map fun p => .requested p.tee p.queue,
      ht, ⟨fun name => ?_, fun tee queue => ?_⟩, hl, ?_⟩
    · simp
    · simp
    · simp [Additive]

theorem Attached.add {e : Element} (h : Attached b cs (g.own b.id)) (he : e ∈ b.elements)
    (ha : g.add e = some g') : Attached b (cs ++ [.added e.name]) (g'.own b.id) := by
  have ho := Branch.owns_elements he
  obtain ⟨hel, hl, hp, -⟩ := Graph.add_own ha ho
  have hnames : (g'.own b.id).names = (g.own b.id).names ++ [e.name] := by
    simp [Graph.names, hel]
  obtain ⟨⟨helements, hlinks, hqueues, honce⟩, ⟨hn, hpads⟩, hlinked, hadd⟩ := h
  refine ⟨⟨?_, ?_, hp ▸ hqueues, hp ▸ honce⟩, ⟨fun name => ?_, fun tee queue => ?_⟩, ?_, ?_⟩
  · rw [hel]
    intro e' he'
    obtain he' | he' := List.mem_append.mp he'
    · exact helements e' he'
    · exact List.mem_singleton.mp he' ▸ he
  · rw [hl, hnames]
    intro l hm
    exact (hlinks l hm).imp (List.mem_append_left _) (List.mem_append_left _)
  · rw [hnames]
    have := hadd.1 name
    simp [hn name, this]
  · rw [hp]
    simp [hpads tee queue]
  · intro p hm
    rw [hp] at hm
    rw [hnames]
    exact ⟨(hlinked p hm).1, List.mem_append_left _ (hlinked p hm).2⟩
  · exact ⟨by simp [hadd.1], by simp [hadd.2]⟩

theorem Attached.requested {o' : Graph} {tee queue : String} (h : Attached b cs o)
    (hel : o'.elements = o.elements) (hli : o'.links = o.links)
    (hp : o'.teePads = o.teePads ++ [⟨tee, queue, true⟩]) (hq : queue ∈ b.queues)
    (hin : queue ∈ o.names) (hnew : queue ∉ o.teePads.map TeePad.queue) :
    Attached b (cs ++ [.requested tee queue]) o' := by
  obtain ⟨⟨helements, hlinks, hqueues, honce⟩, ⟨hn, hpads⟩, hlinked, hadd⟩ := h
  have hnames : o'.names = o.names := by simp [Graph.names, hel]
  refine ⟨⟨hel ▸ helements, ?_, ?_, ?_⟩, ⟨fun name => ?_, fun tee' queue' => ?_⟩, ?_, ?_⟩
  · rw [hli, hnames]
    exact hlinks
  · rw [hp]
    simp only [List.mem_append, List.mem_singleton]
    rintro p (hm | rfl)
    · exact hqueues p hm
    · exact hq
  · rw [hp, List.map_append, List.nodup_append]
    exact ⟨honce, by simp, by simpa using hnew⟩
  · rw [hnames]
    simp [hn name]
  · rw [hp]
    constructor
    · rintro ⟨p, hm, rfl, rfl⟩
      obtain hm | hm := List.mem_append.mp hm
      · have hold := ((hpads p.tee p.queue).mp ⟨p, hm, rfl, rfl⟩).1
        exact ⟨List.mem_append_left _ hold, by simp [hadd.2]⟩
      · obtain rfl := List.mem_singleton.mp hm
        exact ⟨by simp, by simp [hadd.2]⟩
    · rintro ⟨hm, -⟩
      obtain hm | hm := List.mem_append.mp hm
      · obtain ⟨p, hold, ht, hq⟩ := (hpads tee' queue').mpr ⟨hm, hadd.2 tee' queue'⟩
        exact ⟨p, List.mem_append_left _ hold, ht, hq⟩
      · obtain ⟨rfl, rfl⟩ : tee' = tee ∧ queue' = queue := by simpa using hm
        exact ⟨_, List.mem_append_right _ (List.mem_singleton_self _), rfl, rfl⟩
  · intro p hm
    rw [hp] at hm
    rw [hnames]
    obtain hm | hm := List.mem_append.mp hm
    · exact hlinked p hm
    · obtain rfl := List.mem_singleton.mp hm
      exact ⟨rfl, hin⟩
  · exact ⟨by simp [hadd.1], by simp [hadd.2]⟩

theorem Attached.joined {o' : Graph} {source sink : String} (h : Attached b cs o)
    (hel : o'.elements = o.elements) (hli : o'.links = o.links ++ [(source, sink)])
    (hp : o'.teePads = o.teePads) (hin : sink ∈ o.names) : Attached b cs o' := by
  obtain ⟨⟨helements, hlinks, hqueues, honce⟩, ⟨hn, hpads⟩, hlinked, hadd⟩ := h
  have hnames : o'.names = o.names := by simp [Graph.names, hel]
  refine ⟨⟨hel ▸ helements, ?_, hp ▸ hqueues, hp ▸ honce⟩, ⟨?_, ?_⟩, ?_, hadd⟩
  · rw [hli, hnames]
    simp only [List.mem_append, List.mem_singleton]
    rintro l (hm | rfl)
    · exact hlinks l hm
    · exact .inr hin
  · rw [hnames]
    exact hn
  · rw [hp]
    exact hpads
  · intro p hm
    rw [hnames]
    exact hlinked p (hp ▸ hm)

theorem Attached.link {source sink : String} (h : Attached b cs (g.own b.id))
    (hs : b.Allows (.link source sink)) (hl : g.link source sink = some g') :
    Attached b (cs ++ g.requested g') (g'.own b.id) := by
  obtain ⟨ho, hq⟩ := hs
  obtain ⟨hsource, hsink, he, -, hcase⟩ := Graph.link_cases hl
  have hel : (g'.own b.id).elements = (g.own b.id).elements := by simp [Graph.own, he]
  have hin : sink ∈ (g.own b.id).names := Graph.mem_own_names.mpr ⟨hsink, ho⟩
  obtain ⟨⟨s, hs, rfl, htee⟩, hfree, hli, hp⟩ | ⟨hli, hp⟩ := hcase
  · have hreq : g.requested g' = [.requested s.name sink] := by simp [Graph.requested, hp]
    -- The viewer's own elements are no tees, so this is the link to one of its queues.
    have hqueue : sink ∈ b.queues := by
      refine hq.resolve_left fun hso => ?_
      have hmem := h.tidy.elements s (Graph.mem_own_elements.mpr ⟨hs, hso⟩)
      exact Branch.not_tee hmem htee
    have hfed : g.fed sink = false := by
      refine hfree.resolve_left ?_
      rintro ⟨t, ht, rfl, hw⟩
      have hmem := h.tidy.elements t (Graph.mem_own_elements.mpr ⟨ht, ho⟩)
      exact Branch.queue_not_sink hmem hqueue hw
    have hnew : sink ∉ (g.own b.id).teePads.map TeePad.queue := by
      intro hm
      obtain ⟨p, hold, hq⟩ := List.mem_map.mp hm
      have hmg := (Graph.mem_own_teePads.mp hold).1
      simp only [Graph.fed, Bool.or_eq_false_iff, List.any_eq_false] at hfed
      exact hfed.2 p hmg (by simp [(h.linked p hold).1, hq])
    rw [hreq]
    exact h.requested hel (by simp [Graph.own, hli]) (by simp [Graph.own, hp, ho]) hqueue hin hnew
  · have hreq : g.requested g' = [] := by simp [Graph.requested, hp]
    have hli' : (g'.own b.id).links = (g.own b.id).links ++ [(source, sink)] := by
      simp [Graph.own, hli, ho]
    rw [hreq, List.append_nil]
    exact h.joined hel hli' (by simp [Graph.own, hp]) hin

theorem Attaches.attached {op : AttachOp} {ops ops' : List AttachOp}
    (h : Attaches b decodeVideo g ops op g' cs' ops') (hall : ∀ o ∈ op :: ops, b.Allows o)
    (ha : Attached b cs (g.own b.id)) : Attached b (cs ++ cs') (g'.own b.id) ∧
      (∀ o ∈ ops', b.Allows o) ∧ g'.rest b.id = g.rest b.id := by
  have hop := hall op (by simp)
  have hops : ∀ o ∈ ops, b.Allows o := fun o ho => hall o (by simp [ho])
  cases h with
  | kept => exact ⟨by simpa using ha, hops, rfl⟩
  | scanned =>
    refine ⟨by simpa using ha, fun o ho => ?_, rfl⟩
    obtain ho | ho := List.mem_append.mp ho
    · exact Branch.attachMedia_allows _ _ o ho
    · exact hops o ho
  | added h => exact ⟨ha.add hop h, hops, (Graph.add_own h (Branch.owns_elements hop)).2.2.2⟩
  | linked h => exact ⟨ha.link hop h, hops, Graph.link_rest h hop.1⟩

end Attaching

def Gone (op : DetachOp) (o : Graph) : Prop :=
  op.target ∉ o.names ∧ ∀ p ∈ o.teePads, p.queue ≠ op.target

/-- How far `detach` has come, when the calls still to be made are these. While
no call has failed nothing is left of what it has dealt with. -/
inductive Stage (b : Branch) (o : Graph) (clean : Prop) : List DetachOp → Prop
  | next {done rest} : b.detach = done ++ rest → (clean → ∀ op ∈ done, Gone op o) →
      Stage b o clean rest
  | pad {done op rest p} : b.detach = done ++ op :: rest → (clean → ∀ op ∈ done, Gone op o) →
      p ∈ o.teePads → p.queue = op.target →
      Stage b o clean (.pad p :: .element op.target :: rest)
  | element {done op rest} : b.detach = done ++ op :: rest → (clean → ∀ op ∈ done, Gone op o) →
      (clean → ∀ p ∈ o.teePads, p.queue ≠ op.target) →
      Stage b o clean (.element op.target :: rest)

def Due (b : Branch) (o : Graph) : DetachOp → Prop
  | .pad p => p ∈ o.teePads
  | .element name => Owns b.id name
  | _ => False

structure Detaching (b : Branch) (clean : Prop) (cs : List Change) (o : Graph)
    (ops : List DetachOp) : Prop where
  tidy : Tidy b o
  exact : Exact cs o
  linked : clean → Linked o
  stage : Stage b o clean ops

section Removing

variable {b : Branch} {cs : List Change} {o : Graph} {p : TeePad} {name : String}

theorem Tidy.removePad_apart (h : Tidy b o) (hp : p ∈ o.teePads) :
    ∀ p' ∈ (o.removePad p).teePads, p'.queue ≠ p.queue := by
  intro p' hp' hq
  obtain rfl := List.inj_on_of_nodup_map h.once (List.mem_of_mem_erase hp') hp hq
  exact h.once.of_map.not_mem_erase hp'

theorem Tidy.removePad (h : Tidy b o) : Tidy b (o.removePad p) :=
  ⟨h.elements, h.links, fun p' hp' => h.queues p' (List.mem_of_mem_erase hp'),
    h.once.sublist ((List.erase_sublist).map _)⟩

theorem Exact.removePad (he : Exact cs o) (ht : Tidy b o) (hp : p ∈ o.teePads) :
    Exact (cs ++ [.released p.tee p.queue]) (o.removePad p) := by
  refine ⟨fun name => ?_, fun tee queue => ⟨?_, ?_⟩⟩
  · have hn := he.names name
    simpa using hn
  · rintro ⟨p', hp', rfl, rfl⟩
    obtain ⟨hreq, hrel⟩ := (he.pads _ _).mp ⟨p', List.mem_of_mem_erase hp', rfl, rfl⟩
    have hne := ht.removePad_apart hp p' hp'
    exact ⟨by simp [hreq], by simp [hrel, hne]⟩
  · rintro ⟨hreq, hrel⟩
    simp only [List.mem_append, List.mem_singleton, reduceCtorEq, or_false, not_or,
      Change.released.injEq] at hreq hrel
    obtain ⟨p', hp', rfl, rfl⟩ := (he.pads tee queue).mpr ⟨hreq, hrel.1⟩
    have hne : p' ≠ p := by
      rintro rfl
      exact hrel.2 ⟨rfl, rfl⟩
    exact ⟨p', (List.mem_erase_of_ne hne).mpr hp', rfl, rfl⟩

theorem Tidy.remove (h : Tidy b o) : Tidy b (o.remove name) where
  elements e he := h.elements e (List.mem_of_mem_filter he)
  links l hl := by
    simp only [Graph.remove, List.mem_filter, decide_eq_true_eq] at hl
    obtain ⟨hl, h₁, h₂⟩ := hl
    exact (h.links l hl).imp (fun hn => Graph.mem_remove_names.mpr ⟨hn, h₁⟩)
      fun hn => Graph.mem_remove_names.mpr ⟨hn, h₂⟩
  queues p hp := by
    obtain ⟨p', hp', rfl⟩ := List.mem_map.mp hp
    simpa using h.queues p' hp'
  once := by
    rw [Graph.remove_queues]
    exact h.once

theorem Exact.remove (he : Exact cs o) : Exact (cs ++ [.removed name]) (o.remove name) := by
  refine ⟨fun n => ?_, fun tee queue => ?_⟩
  · rw [Graph.mem_remove_names, he.names]
    simp [and_assoc]
  · have hp := he.pads tee queue
    simpa [Graph.remove] using hp

end Removing

section Detaching

variable {b : Branch} {clean : Prop} {cs cs' : List Change} {o g g' : Graph} {op : DetachOp}
  {ops ops' : List DetachOp}

theorem detach_looks (h : op ∈ b.detach) : op.awaits = false ∧ Owns b.id op.target := by
  obtain ⟨h₁, h₂, h₃, h₄⟩ := @Branch.owns_names b
  simp only [Branch.detach, List.mem_cons, List.not_mem_nil, or_false] at h
  obtain rfl | rfl | rfl | rfl := h
  · exact ⟨rfl, h₂⟩
  · exact ⟨rfl, h₃⟩
  · exact ⟨rfl, h₄⟩
  · exact ⟨rfl, h₁⟩

theorem present_apart {name : String} (h : .present name ∈ b.detach) : name ∉ b.queues := by
  have hin : ∀ stem ∈ [videoDecoderStem, whipSinkStem], stem ∈ stems := by decide
  have hne : ∀ stem ∈ [videoDecoderStem, whipSinkStem], stem ++ "-" ++ b.id ∉ b.queues := by
    intro stem hs hm
    simp only [Branch.queues, List.mem_cons, List.not_mem_nil, or_false] at hm
    obtain hm | hm := hm
    all_goals
      obtain rfl := (branchName_inj (hin stem hs) (by decide) hm).1
      exact absurd hs (by decide)
  simp only [Branch.detach, List.mem_cons, List.not_mem_nil, or_false, DetachOp.present.injEq,
    reduceCtorEq, false_or] at h
  obtain rfl | rfl := h
  · exact hne _ (by simp)
  · exact hne _ (by simp)

theorem Stage.looking (h : Stage b o clean (op :: ops)) (ha : op.awaits = false) :
    ∃ done, b.detach = done ++ op :: ops ∧ (clean → ∀ op ∈ done, Gone op o) := by
  cases h with
  | next hd hg => exact ⟨_, hd, hg⟩
  | pad => cases ha
  | element => cases ha

theorem Stage.due (h : Stage b o clean (op :: ops)) (ha : op.awaits = true) : Due b o op := by
  cases h with
  | @next done _ hd hg =>
    have hm : op ∈ b.detach := by simp [hd]
    cases ha.symm.trans (detach_looks hm).1
  | pad hd hg hp hq => exact hp
  | @element done op rest hd hg hn =>
    have hm : op ∈ b.detach := by simp [hd]
    exact (detach_looks hm).2

/-- A call that is awaited does to the viewer's own what it is asked for, or nothing. -/
theorem Detaches.call {failed : Bool} (h : Detaches g ops op failed g' cs' ops')
    (hd : Due b (g.own b.id) op) : ops' = ops ∧ g'.rest b.id = g.rest b.id ∧
      (failed = true ∧ g' = g ∧ cs' = [] ∨
        (∃ p ∈ (g.own b.id).teePads, op = .pad p ∧ g'.own b.id = (g.own b.id).removePad p ∧
          cs' = [.released p.tee p.queue]) ∨
        ∃ name, op = .element name ∧ g'.own b.id = (g.own b.id).remove name ∧
          cs' = [.removed name]) := by
  have ha : op.awaits = true := by
    cases op with
    | branch | present => exact hd.elim
    | pad | element => rfl
  cases h with
  | absent hf => cases hf.symm.trans ha
  | unlinked hf => cases hf.symm.trans ha
  | linked => cases ha
  | present => cases ha
  | pad =>
    obtain ⟨hown, hrest⟩ := @Graph.removePad_own _ g _ (Graph.mem_own_teePads.mp hd).2
    exact ⟨rfl, hrest, .inr (.inl ⟨_, hd, rfl, hown, rfl⟩)⟩
  | element =>
    obtain ⟨hown, hrest⟩ := @Graph.remove_own _ g _ hd
    exact ⟨rfl, hrest, .inr (.inr ⟨_, rfl, hown, rfl⟩)⟩
  | failed => exact ⟨rfl, rfl, .inl ⟨rfl, rfl, rfl⟩⟩

theorem Detaches.accounted {failed : Bool} (h : Detaches g ops op failed g' cs' ops')
    (hd : Due b (g.own b.id) op) (ht : Tidy b (g.own b.id)) (he : Exact cs (g.own b.id)) :
    Tidy b (g'.own b.id) ∧ Exact (cs ++ cs') (g'.own b.id) := by
  obtain ⟨-, -, ⟨-, rfl, rfl⟩ | ⟨p, hp, -, hown, rfl⟩ | ⟨name, -, hown, rfl⟩⟩ := h.call hd
  · exact ⟨ht, by simpa using he⟩
  · rw [hown]
    exact ⟨ht.removePad, he.removePad ht hp⟩
  · rw [hown]
    exact ⟨ht.remove, he.remove⟩

theorem Gone.removePad {p : TeePad} (h : Gone op o) : Gone op (o.removePad p) :=
  ⟨h.1, fun p' hp' => h.2 p' (List.mem_of_mem_erase hp')⟩

theorem remove_queue_mem {name : String} {p : TeePad} (hp : p ∈ (o.remove name).teePads) :
    ∃ p' ∈ o.teePads, p'.queue = p.queue := by
  obtain ⟨p', hp', rfl⟩ := List.mem_map.mp hp
  exact ⟨p', hp', by simp⟩

theorem Gone.remove {name : String} (h : Gone op o) : Gone op (o.remove name) := by
  refine ⟨fun hm => h.1 (Graph.mem_remove_names.mp hm).1, fun p hp => ?_⟩
  obtain ⟨p', hp', he⟩ := remove_queue_mem hp
  exact he ▸ h.2 p' hp'

/-- An element is gone when it is removed after its pad. -/
theorem gone_remove (h : ∀ p ∈ o.teePads, p.queue ≠ op.target) : Gone op (o.remove op.target) := by
  refine ⟨fun hm => (Graph.mem_remove_names.mp hm).2 rfl, fun p hp => ?_⟩
  obtain ⟨p', hp', he⟩ := remove_queue_mem hp
  exact he ▸ h p' hp'

theorem Linked.remove {name : String} (h : Linked o) (hn : ∀ p ∈ o.teePads, p.queue ≠ name) :
    Linked (o.remove name) := by
  intro p hp
  obtain ⟨p', hp', rfl⟩ := List.mem_map.mp hp
  have hne := hn p' hp'
  obtain ⟨hl, hin⟩ := h p' hp'
  rw [TeePad.without_of_ne hne]
  exact ⟨hl, Graph.mem_remove_names.mpr ⟨hin, hne⟩⟩

/-- A whip sink that is taken out of the pipeline leaves a branch to be detached, -/
theorem Detaching.lost (h : Detaching b clean cs o ops) :
    Detaching b clean (cs ++ [.removed b.whipSinkName]) (o.remove b.whipSinkName) ops := by
  have hapart : ∀ p ∈ o.teePads, p.queue ≠ b.whipSinkName := by
    intro p hp he
    exact Branch.sink_not_queue (he ▸ h.tidy.queues p hp)
  refine ⟨h.tidy.remove, h.exact.remove, fun hc => (h.linked hc).remove hapart, ?_⟩
  cases h.stage with
  | next hd hg => exact .next hd fun hc op hm => (hg hc op hm).remove
  | @pad done op rest p hd hg hp hq =>
    refine .pad hd (fun hc op hm => (hg hc op hm).remove) ?_ hq
    exact List.mem_map.mpr ⟨p, hp, TeePad.without_of_ne (hapart p hp)⟩
  | element hd hg hn =>
    refine .element hd (fun hc op hm => (hg hc op hm).remove) fun hc p hp => ?_
    obtain ⟨p', hp', he⟩ := remove_queue_mem hp
    exact he ▸ hn hc p' hp'

/-- or to be attached further. -/
theorem Attached.lost (h : Attached b cs o) : ∃ cs', Attached b cs' (o.remove b.whipSinkName) := by
  refine attached_iff.mpr ⟨h.tidy.remove, h.linked.remove fun p hp he => ?_⟩
  exact Branch.sink_not_queue (he ▸ h.tidy.queues p hp)

/-- Looking an element up finds it, or finds that nothing is left of it. -/
theorem Detaching.look {failed : Bool} (hd : Detaching b clean cs (g.own b.id) (op :: ops))
    (ha : op.awaits = false) (h : Detaches g ops op failed g' cs' ops') :
    g' = g ∧ cs' = [] ∧ failed = false ∧ Stage b (g.own b.id) clean ops' := by
  obtain ⟨done, hdetach, hgone⟩ := hd.stage.looking ha
  have hm : op ∈ b.detach := by simp [hdetach]
  have ho := (detach_looks hm).2
  cases h with
  | absent _ hn =>
    have habsent : op.target ∉ (g.own b.id).names := fun hin => hn (Graph.mem_own_names.mp hin).1
    refine ⟨rfl, rfl, rfl, @Stage.next _ _ _ (done ++ [op]) _ (by simp [hdetach]) fun hc => ?_⟩
    simp only [List.mem_append, List.mem_singleton]
    rintro op' (hm' | rfl)
    · exact hgone hc op' hm'
    · exact ⟨habsent, fun p hp hq => habsent (hq ▸ (hd.linked hc p hp).2)⟩
  | unlinked _ _ hn =>
    refine ⟨rfl, rfl, rfl, .element hdetach hgone fun hc p hp => ?_⟩
    exact hn p (Graph.mem_own_teePads.mp hp).1 (hd.linked hc p hp).1
  | linked hp hq =>
    exact ⟨rfl, rfl, rfl, .pad hdetach hgone (Graph.mem_own_teePads.mpr ⟨hp, hq ▸ ho⟩) hq⟩
  | @present name hn =>
    refine ⟨rfl, rfl, rfl, .element hdetach hgone fun hc p hp hq => ?_⟩
    have hin := hd.tidy.queues p hp
    rw [show p.queue = name from hq] at hin
    exact present_apart hm hin
  | pad => cases ha
  | element => cases ha
  | failed hw => cases ha.symm.trans hw

theorem Detaches.detaching {failed : Bool} (h : Detaches g ops op failed g' cs' ops')
    (hd : Detaching b clean cs (g.own b.id) (op :: ops)) :
    Detaching b (clean ∧ failed = false) (cs ++ cs') (g'.own b.id) ops' ∧
      g'.rest b.id = g.rest b.id := by
  cases ha : op.awaits with
  | false =>
    obtain ⟨rfl, rfl, rfl, hs⟩ := hd.look ha h
    exact ⟨⟨hd.tidy, by simpa using hd.exact, fun hc => hd.linked hc.1, by simpa using hs⟩, rfl⟩
  | true =>
    have hdue := hd.stage.due ha
    obtain ⟨htidy, hexact⟩ := h.accounted hdue hd.tidy hd.exact
    obtain ⟨rfl, hrest, hcase⟩ := h.call hdue
    obtain ⟨tidy, -, linked, stage⟩ := hd
    refine ⟨?_, hrest⟩
    cases stage with
    | @next done _ hdetach _ =>
      have hm : op ∈ b.detach := by simp [hdetach]
      cases ha.symm.trans (detach_looks hm).1
    | @pad done op rest p hdetach hgone hp hq =>
      obtain ⟨rfl, -, -⟩ | ⟨p, -, he, hown, -⟩ | ⟨name, he, -, -⟩ := hcase
      · exact ⟨htidy, hexact, by simp, .element hdetach (by simp) (by simp)⟩
      · cases he
        rw [hown] at htidy hexact ⊢
        refine ⟨htidy, hexact, fun hc p' hp' => linked hc.1 p' (List.mem_of_mem_erase hp'), ?_⟩
        refine .element hdetach (fun hc op' hm => ?_) fun _ p' hp' => ?_
        · exact (hgone hc.1 op' hm).removePad
        · exact hq ▸ tidy.removePad_apart hp p' hp'
      · cases he
    | @element done op rest hdetach hgone hn =>
      have hsplit : b.detach = (done ++ [op]) ++ ops' := by simp [hdetach]
      obtain ⟨rfl, -, -⟩ | ⟨p, -, he, -, -⟩ | ⟨name, he, hown, -⟩ := hcase
      · exact ⟨htidy, hexact, by simp, .next hsplit (by simp)⟩
      · cases he
      · cases he
        rw [hown] at htidy hexact ⊢
        refine ⟨htidy, hexact, fun hc => (linked hc.1).remove (hn hc.1), .next hsplit fun hc => ?_⟩
        simp only [List.mem_append, List.mem_singleton]
        rintro op' (hm' | rfl)
        · exact (hgone hc.1 op' hm').remove
        · exact gone_remove (hn hc.1)

theorem Detaching.weaken {clean' : Prop} (h : Detaching b clean cs o ops) (hc : clean' → clean) :
    Detaching b clean' cs o ops := by
  refine ⟨h.tidy, h.exact, fun h' => h.linked (hc h'), ?_⟩
  cases h.stage with
  | next hd hg => exact .next hd fun h' => hg (hc h')
  | pad hd hg hp hq => exact .pad hd (fun h' => hg (hc h')) hp hq
  | element hd hg hn => exact .element hd (fun h' => hg (hc h')) fun h' => hn (hc h')

theorem Attached.detaching (h : Attached b cs o) : Detaching b clean cs o b.detach :=
  ⟨h.tidy, h.exact, fun _ => h.linked, @Stage.next _ _ _ [] _ rfl (by simp)⟩

theorem Detaching.finished (h : Detaching b clean cs o []) (hc : clean) (hd : o.demuxPads = []) :
    o = .empty := by
  obtain ⟨tidy, -, -, stage⟩ := h
  cases stage with
  | @next done _ hdetach hgone =>
    rw [List.append_nil] at hdetach
    have hgone : ∀ op ∈ b.detach, Gone op o := hdetach ▸ hgone hc
    have hnames : o.elements = [] := by
      refine List.eq_nil_iff_forall_not_mem.mpr fun e he => ?_
      obtain ⟨op, hop, ht⟩ : ∃ op ∈ b.detach, op.target = e.name := by
        have hm := tidy.elements e he
        simp only [Branch.elements, List.mem_cons, List.not_mem_nil, or_false] at hm
        obtain rfl | rfl | rfl | rfl := hm
        · exact ⟨.present b.whipSinkName, by simp [Branch.detach], rfl⟩
        · exact ⟨.branch b.videoQueueName, by simp [Branch.detach], rfl⟩
        · exact ⟨.present b.videoDecoderName, by simp [Branch.detach], rfl⟩
        · exact ⟨.branch b.audioQueueName, by simp [Branch.detach], rfl⟩
      exact (hgone op hop).1 (ht ▸ Graph.mem_names.mpr ⟨e, he, rfl⟩)
    ext1
    · exact hnames
    · refine List.eq_nil_iff_forall_not_mem.mpr fun l hl => ?_
      have hin := tidy.links l hl
      simp [Graph.names, hnames] at hin
    · refine List.eq_nil_iff_forall_not_mem.mpr fun p hp => ?_
      have hm := tidy.queues p hp
      simp only [Branch.queues, List.mem_cons, List.not_mem_nil, or_false] at hm
      obtain hq | hq := hm
      · exact (hgone (.branch b.videoQueueName) (by simp [Branch.detach])).2 p hp hq
      · exact (hgone (.branch b.audioQueueName) (by simp [Branch.detach])).2 p hp hq
    · exact hd

end Detaching

end SrtWhep.Stream
