import SrtWhep.Stream.Standing

namespace SrtWhep.Stream.Plane

open Library.Runs Relation

def Input.viewer : Input → Option ConnectionId
  | .add id | .remove id | .adding id _ | .removing id _ | .late id _ _ | .lost id => some id
  | .demux _ => none

namespace State

def jobOf (s : State) (id : ConnectionId) : Option Job :=
  s.job.bind fun j => if j.1 = id then some j.2 else none

end State

def marks (ls : List (Input × List Report)) (s : State) (id : ConnectionId) : Marks :=
  ⟨id ∈ begun ls, Ended ls id, id ∈ up ls, Calm ls id, ∀ x ∈ s.late, x.1 ≠ id, Lost ls id⟩

structure Sound (ls : List (Input × List Report)) (s : State) : Prop where
  split : s.bin.graph.Split
  core : ∃ built, Streaming s.bin.core built
  ended : ∀ id phase, s.job = some (id, .remove phase) → Ended ls id
  owned : ∀ x ∈ s.late, Owns x.1 x.2.target
  viewers : ∀ id, Standing ⟨id⟩ s.decodeVideo s.bin.graph (marks ls s id) (s.jobOf id)

structure Framed (i : Input) (s t : State) : Prop where
  core : t.bin.core = i.callback.toList.foldl Bin.callback s.bin.core
  own : ∀ id, i.viewer ≠ some id → t.bin.graph.own id = s.bin.graph.own id

section Histories

variable {ls : List (Input × List Report)} {i : Input} {rs : List Report} {id id' : ConnectionId}
  {s t : State} {job : Job}

theorem begun_snoc : id ∈ begun (ls ++ [(i, rs)]) ↔ id ∈ begun ls ∨ i.adds = some id := by
  simp [begun, List.filterMap_append, List.filterMap_cons]
  cases i.adds <;> simp [eq_comm]

theorem ended_snoc : Ended (ls ++ [(i, rs)]) id ↔ Ended ls id ∨ i.removes = some id := by
  simp [Ended, or_and_right, exists_or]

theorem calm_snoc : Calm (ls ++ [(i, rs)]) id ↔ Calm ls id ∧ i.disturbs ≠ some id := by
  simp [Calm, or_imp, forall_and]

theorem lost_snoc : Lost (ls ++ [(i, rs)]) id ↔ Lost ls id ∨ i.leaves = some id := by
  simp [Lost, or_and_right, exists_or]

theorem up_snoc : up (ls ++ [(i, rs)]) = rs.foldl applyReport (up ls) := by
  simp [up, reports]

theorem viewer_adds (h : i.adds = some id) : i.viewer = some id := by
  cases i <;> simp_all [Input.adds, Input.viewer]

theorem viewer_callback (h : i.viewer = some id) : i.callback = none := by
  cases i <;> simp_all [Input.callback, Input.viewer]

theorem up_other (hrs : ∀ r ∈ rs, ∃ result, r = job.report id result) (hne : id' ≠ id) :
    id' ∈ up (ls ++ [(i, rs)]) ↔ id' ∈ up ls := by
  have hone : ∀ (u : Finset ConnectionId) result,
      id' ∈ applyReport u (job.report id result) ↔ id' ∈ u := by
    intro u result
    cases job with
    | add =>
      simp only [Job.report, applyReport]
      split <;> simp [hne]
    | remove =>
      simp only [Job.report, applyReport]
      split <;> simp [hne]
  rw [up_snoc]
  generalize up ls = u
  induction rs generalizing u with
  | nil => rfl
  | cons r rs ih =>
    obtain ⟨result, rfl⟩ := hrs r (List.mem_cons_self ..)
    exact (ih (fun r hm => hrs r (List.mem_cons_of_mem _ hm)) _).trans (hone u result)

theorem marks_keep (hv : i.viewer ≠ some id) :
    (marks ls s id).Keeps (marks (ls ++ [(i, rs)]) t id) where
  begun := begun_snoc.trans (or_iff_left fun h => hv (viewer_adds h))
  ended h := ended_snoc.mpr (.inl h)
  calm h := (calm_snoc.mp h).1
  lost h := lost_snoc.mpr (.inl h)

end Histories

section Steps

variable {ls : List (Input × List Report)} {i : Input} {rs : List Report} {id : ConnectionId}
  {s t : State} {job : Job} {g : Graph}

structure Onward (s : State) (id : ConnectionId) (job : Job) (t : State) (rs : List Report) :
    Prop where
  bin : t.bin = s.bin
  decodeVideo : t.decodeVideo = s.decodeVideo
  busy : ∀ id' job', t.job = some (id', job') → id' = id ∧ job' = job
  jobOf : t.jobOf id = job.active
  late : ∀ x ∈ t.late, x ∈ s.late ∨ x.1 = id ∧ ∃ result, job.returned = some (result, some x.2)
  reports : ∀ r ∈ rs, ∃ result, r = job.report id result
  result : ∀ result pending, job.returned = some (result, pending) → rs = [job.report id result]
  silent : job.returned = none → rs = []

theorem goOn_onward (h : s.goOn id job = (t, rs)) : Onward s id job t rs := by
  unfold State.goOn at h
  split at h
  next result pending hr =>
    cases h
    constructor
    case bin | decodeVideo => rfl
    case busy => exact fun _ _ h => by cases h
    case jobOf => simp [State.jobOf, Job.active, hr]
    case late =>
      intro x hx
      obtain hx | hx := List.mem_append.mp hx
      · exact .inl hx
      · obtain ⟨op, hop, rfl⟩ := List.mem_map.mp hx
        obtain rfl := Option.mem_toList.mp hop
        exact .inr ⟨rfl, result, hr⟩
    case reports => exact fun r hm => ⟨result, List.mem_singleton.mp hm⟩
    case result =>
      intro result' pending' h
      cases hr.symm.trans h
      rfl
    case silent => exact fun h => by cases hr.symm.trans h
  next hr =>
    cases h
    constructor
    case bin | decodeVideo => rfl
    case busy =>
      intro id' job' h
      cases h
      exact ⟨rfl, rfl⟩
    case jobOf => simp [State.jobOf, Job.active, hr]
    case late => exact fun x hx => .inl hx
    case reports => exact fun r hm => by cases hm
    case result => exact fun result pending h => by cases hr.symm.trans h
    case silent => exact fun _ => rfl

theorem Onward.goes (h : Onward (s.withGraph g) id job t rs) (hi : i.adds = none) :
    (marks ls s id).Goes (marks (ls ++ [(i, rs)]) t id) job (i.disturbs = some id) where
  keeps := ⟨begun_snoc.trans (or_iff_left (by simp [hi])), fun he => ended_snoc.mpr (.inl he),
    fun hc => (calm_snoc.mp hc).1, fun hl => lost_snoc.mpr (.inl hl)⟩
  calm hc := (calm_snoc.mp hc).2
  quiet hq hn x hx := by
    obtain hx | ⟨-, result, hr⟩ := h.late x hx
    · exact hq x hx
    · exact absurd hr (hn result x.2)

theorem Onward.up_add {phase : Creation.Phase} {reading : Readiness.Reading}
    (h : Onward s id (.add phase reading) t rs) : id ∈ up (ls ++ [(i, rs)]) ↔
      id ∈ up ls ∨ ∃ pending, (Job.add phase reading).returned = some (some (.ok ()), pending) := by
  rw [up_snoc]
  cases hr : (Job.add phase reading).returned with
  | none => simp [h.silent hr]
  | some r =>
    obtain ⟨result, pending⟩ := r
    rw [h.result result pending hr]
    by_cases hok : result = some (.ok ())
    · simp [Job.report, applyReport, hok]
    · simp [Job.report, applyReport, hok]

theorem Onward.up_remove {phase : Removal} (h : Onward s id (.remove phase) t rs) :
    id ∈ up (ls ++ [(i, rs)]) ↔
      id ∈ up ls ∧ ∀ pending, (Job.remove phase).returned ≠ some (some (.ok ()), pending) := by
  rw [up_snoc]
  cases hr : (Job.remove phase).returned with
  | none => simp [h.silent hr]
  | some r =>
    obtain ⟨result, pending⟩ := r
    rw [h.result result pending hr]
    by_cases hok : result = some (.ok ())
    · simp [Job.report, applyReport, hok]
    · simp [Job.report, applyReport, hok]

theorem Sound.goes (h : Sound ls s) (ht : Onward (s.withGraph g) id job t rs)
    (hi : i.viewer = some id) (hjob : ∀ id' ≠ id, s.jobOf id' = none)
    (htouch : s.bin.graph.Touches id g)
    (hstand : Standing ⟨id⟩ s.decodeVideo g (marks (ls ++ [(i, rs)]) t id) job.active)
    (hend : ∀ phase, job = .remove phase → Ended (ls ++ [(i, rs)]) id)
    (hpend : ∀ result op, job.returned = some (result, some op) → Owns id op.target) :
    Sound (ls ++ [(i, rs)]) t ∧ Framed i s t := by
  have hg : t.bin.graph = g := by rw [ht.bin]; rfl
  have hcore : t.bin.core = s.bin.core := by
    rw [ht.bin]
    exact congrArg (Bin.mk · s.bin.numbers) (Graph.core_of_rest htouch.rest)
  have hother : ∀ id' ≠ id, g.own id' = s.bin.graph.own id' := fun _ hne =>
    Graph.own_of_rest htouch.rest h.split (htouch.split h.split) hne
  refine ⟨?_, by rwa [viewer_callback hi], fun id' hv => hg ▸ hother id' ?_⟩
  rotate_left
  · rintro rfl
    exact hv hi
  constructor
  case split => exact hg ▸ htouch.split h.split
  case core => exact hcore ▸ h.core
  case ended =>
    intro id' phase hp
    obtain ⟨rfl, rfl⟩ := ht.busy id' _ hp
    exact hend phase rfl
  case owned =>
    intro x hx
    obtain hx | ⟨rfl, result, hr⟩ := ht.late x hx
    · exact h.owned x hx
    · exact hpend result x.2 hr
  case viewers =>
    intro id'
    rw [hg, ht.decodeVideo]
    by_cases hne : id' = id
    · subst hne
      rw [ht.jobOf]
      exact hstand
    · have hnone : t.jobOf id' = s.jobOf id' := by
        rw [hjob id' hne]
        cases hj : t.job with
        | none => simp [State.jobOf, hj]
        | some j =>
          obtain ⟨h₁, -⟩ := ht.busy j.1 j.2 hj
          have hne' : ¬ j.1 = id' := fun h => hne (h.symm.trans h₁)
          simp [State.jobOf, hj, hne']
      rw [hnone]
      refine (h.viewers id').frame (marks_keep ?_) ?_ ?_ ?_ ?_ ?_
      · rw [hi]
        exact fun h => hne (Option.some.inj h).symm
      · exact up_other ht.reports hne
      · intro hq x hx
        obtain hx | ⟨rfl, -⟩ := ht.late x hx
        · exact hq x hx
        · exact fun h => hne h.symm
      · exact hother id' hne
      · intro name hn
        rwa [Graph.core_of_rest htouch.rest]
      · intro m hm
        rwa [exposes_of_rest htouch.rest]

theorem Sound.tees (h : Sound ls s) : Tees s.bin.graph := by
  obtain ⟨built, hs⟩ := h.core
  intro m hm
  have hcore : m.outputTee ∈ s.bin.core.graph.names :=
    Graph.mem_core_names.mpr ⟨hm, Bin.outputTee_core m⟩
  exact (Graph.mem_core_elements.mp (hs.tees m ((hs.ingesting.tees m).mp hcore))).1

theorem jobOf_other {id' : ConnectionId} (h : s.job = none ∨ ∃ job, s.job = some (id, job))
    (hne : id' ≠ id) : s.jobOf id' = none := by
  obtain h | ⟨job, h⟩ := h
  · simp [State.jobOf, h]
  · simp [State.jobOf, h, hne.symm]

theorem jobOf_eq (h : s.job = some (id, job)) : s.jobOf id = some job := by
  simp [State.jobOf, h]

theorem Standing.locking {b : Branch} {decodeVideo : Bool} {k : Marks}
    (h : Standing b decodeVideo g k none) :
    Standing b decodeVideo g k (some (.remove .locking)) := by
  cases h with
  | fresh h₁ h₂ h₃ h₄ => exact .fresh h₁ h₂ h₃ h₄ (.inr (.inl rfl))
  | served h₁ h₂ h₃ h₄ => exact .served h₁ h₂ h₃ h₄ (.inr rfl)
  | bereft h₁ h₂ h₃ h₄ h₅ =>
    obtain ⟨⟨_, _, h₅, -⟩, -⟩ | ⟨-, hu⟩ := h₅
    · cases h₅
    · exact .bereft h₁ h₂ h₃ h₄ (.inr ⟨.inr rfl, hu⟩)
  | leaving _ h₂ => obtain ⟨⟨_, _, h₂⟩, -⟩ | ⟨h₂, -⟩ := h₂ <;> cases h₂
  | gone h₁ h₂ h₃ => exact .gone h₁ h₂ h₃ (.inr rfl)

theorem Standing.owned {b : Branch} {decodeVideo : Bool} {k : Marks} {op : DetachOp}
    {ops : List DetachOp} (h : Standing b decodeVideo g k (some job))
    (hj : (∃ message reading, job = .add (.detaching message (op :: ops)) reading) ∨
      job = .remove (.detaching (op :: ops))) : Owns b.id op.target := by
  cases h with
  | fresh _ _ _ _ h₅ =>
    obtain h₅ | h₅ | ⟨ops, h₅, hall⟩ := h₅ <;> cases h₅
    · obtain ⟨_, _, hj⟩ | hj := hj <;> cases hj
    · obtain ⟨_, _, hj⟩ | hj := hj
      · cases hj
      · cases hj
        exact (hall op (List.mem_cons_self ..)).2
  | waiting h₁ =>
    obtain ⟨_, _, hj⟩ | hj := hj <;> cases hj
    obtain h₁ | h₁ := h₁ <;> cases h₁
  | attaching => obtain ⟨_, _, hj⟩ | hj := hj <;> cases hj
  | served _ _ _ _ h₅ =>
    obtain h₅ | h₅ := h₅ <;> cases h₅
    obtain ⟨_, _, hj⟩ | hj := hj <;> cases hj
  | bereft _ _ _ _ h₅ =>
    obtain ⟨⟨_, _, h₅, -⟩, -⟩ | ⟨h₅ | h₅, -⟩ := h₅ <;> cases h₅
    · obtain ⟨_, _, hj⟩ | hj := hj <;> cases hj
    · obtain ⟨_, _, hj⟩ | hj := hj <;> cases hj
  | gone _ _ _ h₄ =>
    obtain h₄ | h₄ := h₄ <;> cases h₄
    obtain ⟨_, _, hj⟩ | hj := hj <;> cases hj
  | leaving _ h₂ h₃ =>
    obtain ⟨_, _, rfl⟩ | rfl := hj
    · obtain ⟨⟨_, _, h₂⟩, -⟩ | ⟨h₂, -⟩ := h₂ <;> cases h₂
      exact h₃ op (List.mem_cons_self ..)
    · obtain ⟨⟨_, _, h₂⟩, -⟩ | ⟨h₂, -⟩ := h₂ <;> cases h₂
      exact h₃ op (List.mem_cons_self ..)

theorem Sound.add (h : Sound ls s) (hs : s.Step (.add id, rs) t) (hnew : id ∉ begun ls) :
    Sound (ls ++ [(.add id, rs)]) t ∧ Framed (.add id) s t := by
  simp only [State.Step, State.next] at hs
  split at hs
  next hj =>
    have ht := goOn_onward (Option.some.inj hs)
    have hv := h.viewers id
    rw [show s.jobOf id = none by simp [State.jobOf, hj]] at hv
    refine h.goes (g := s.bin.graph) ht rfl (fun _ => jobOf_other (.inl hj)) (.refl id _) ?_
      (by simp) (by simp [Job.returned])
    cases hv with
    | fresh _ hu hq ho =>
      refine .waiting (.inl rfl) (begun_snoc.mpr (.inr rfl)) ?_ (fun x hx => ?_) ho trivial
      · change id ∉ up _
        rw [up_snoc, ht.silent rfl]
        exact hu
      · obtain hx | ⟨-, _, hr⟩ := ht.late x hx
        · exact hq x hx
        · cases hr
    | served hb | bereft hb | leaving hb | gone hb => exact absurd hb hnew
  next => cases hs

theorem Sound.remove (h : Sound ls s) (hs : s.Step (.remove id, rs) t) :
    Sound (ls ++ [(.remove id, rs)]) t ∧ Framed (.remove id) s t := by
  simp only [State.Step, State.next] at hs
  split at hs
  next hj =>
    have ht := goOn_onward (Option.some.inj hs)
    have hv := h.viewers id
    rw [show s.jobOf id = none by simp [State.jobOf, hj]] at hv
    refine h.goes (g := s.bin.graph) ht rfl (fun _ => jobOf_other (.inl hj)) (.refl id _) ?_
      (fun _ _ => ended_snoc.mpr (.inr rfl)) (by simp [Job.returned])
    have hk := @Onward.goes ls (.remove id) rs id s t _ s.bin.graph ht rfl
    refine hv.locking.frame hk.keeps ?_ (fun hq => hk.quiet hq (by simp [Job.returned])) rfl
      (fun _ h => h) fun _ h => h
    change id ∈ up _ ↔ id ∈ up _
    rw [up_snoc, ht.silent rfl]
    rfl
  next => cases hs

theorem Sound.adding {i : Readiness.Input} (h : Sound ls s) (hs : s.Step (.adding id i, rs) t) :
    Sound (ls ++ [(.adding id i, rs)]) t ∧ Framed (.adding id i) s t := by
  simp only [State.Step, State.next] at hs
  split at hs
  next id' phase reading hj =>
    obtain ⟨⟨rfl, hi⟩, hs⟩ := Option.ite_none_right_eq_some.mp hs
    obtain ⟨⟨y, cs⟩, hy, hs⟩ := Option.map_eq_some_iff.mp hs
    have ht := goOn_onward hs
    have hk := @Onward.goes ls (.adding id' i) rs id' s t _ _ ht rfl
    have hup := @Onward.up_add ls (.adding id' i) rs id' _ t _ _ ht
    have hv := h.viewers id'
    rw [jobOf_eq hj] at hv
    have hjob : ∀ id ≠ id', s.jobOf id = none := fun _ => jobOf_other (.inr ⟨_, hj⟩)
    have hpend : ∀ result op, (Job.add y.call.phase y.reading).returned = some (result, some op) →
        Owns id' op.target := by
      intro result op hr
      have hret : y.call.phase = .returned result (some op) := by
        cases hp : y.call.phase <;> simp [hp, Job.returned] at hr
        obtain ⟨rfl, rfl⟩ := hr
        rfl
      obtain ⟨message, ops, hphase⟩ := adding_pending hy hi hret
      exact hv.owned (.inl ⟨message, reading, by rw [hphase]⟩)
    have hgo : s.bin.graph.Touches id' y.call.graph ∧ Standing ⟨id'⟩ s.decodeVideo y.call.graph
        (marks (ls ++ [(.adding id' i, rs)]) t id') (Job.add y.call.phase y.reading).active := by
      cases hv with
      | fresh _ _ _ _ h₅ => obtain h₅ | h₅ | ⟨_, h₅, -⟩ := h₅ <;> cases h₅
      | waiting hp hb hu hq ho hr =>
        obtain ⟨hg, hst⟩ := waiting_step hp hb hu hq ho hr hy hi hk hup
        rw [hg]
        exact ⟨.refl id' _, hg ▸ hst⟩
      | attaching hb hu hq ha => exact attaching_step hb hu hq ha h.tees hy hi hk hup
      | served _ _ _ _ h₅ => obtain h₅ | h₅ := h₅ <;> cases h₅
      | bereft hb hq hl ha h₅ =>
        obtain ⟨⟨_, _, h₅, hops⟩, hu⟩ | ⟨h₅ | h₅, -⟩ := h₅ <;> cases h₅
        exact bereft_step hb hu hq hl ha hops h.tees hy hi hk hup
      | leaving hb h₂ hops hd =>
        obtain ⟨⟨message, reading', h₂⟩, hu⟩ | ⟨h₂, -⟩ := h₂ <;> cases h₂
        exact leaving_step hb hu hops hd hy hi hk hup
      | gone _ _ _ h₄ => obtain h₄ | h₄ := h₄ <;> cases h₄
    exact h.goes ht rfl hjob hgo.1 hgo.2 (by simp) hpend
  next => cases hs

theorem Sound.removing {i : RemovalInput} (h : Sound ls s) (hs : s.Step (.removing id i, rs) t) :
    Sound (ls ++ [(.removing id i, rs)]) t ∧ Framed (.removing id i) s t := by
  simp only [State.Step, State.next] at hs
  split at hs
  next id' phase hj =>
    obtain ⟨rfl, hs⟩ := Option.ite_none_right_eq_some.mp hs
    obtain ⟨⟨g, phase'⟩, hy, hs⟩ := Option.map_eq_some_iff.mp hs
    have ht := goOn_onward hs
    have hk := @Onward.goes ls (.removing id' i) rs id' s t _ _ ht rfl
    have hup := @Onward.up_remove ls (.removing id' i) rs id' _ t _ ht
    have hv := h.viewers id'
    rw [jobOf_eq hj] at hv
    have hend := h.ended id' phase hj
    have hpend : ∀ result op, (Job.remove phase').returned = some (result, some op) →
        Owns id' op.target := by
      intro result op hr
      cases Removal.next_takes hy with
      | @cut _ ops =>
        cases hr
        exact hv.owned (.inr rfl)
      | _ => cases hr
    obtain ⟨htouch, hst⟩ := removing_step hv hy hend hk hup
    exact h.goes ht rfl (fun _ => jobOf_other (.inr ⟨_, hj⟩)) htouch hst
      (fun _ _ => ended_snoc.mpr (.inl hend)) hpend
  next => cases hs

/-- While something of a viewer's is still under way nothing is known of its branch. -/
theorem Standing.disturbed {b : Branch} {decodeVideo : Bool} {g' : Graph} {k k' : Marks}
    {job : Option Job} (h : Standing b decodeVideo g k job) (hq : ¬ k.quiet) (hk : k.Keeps k')
    (hu : k'.up ↔ k.up) : Standing b decodeVideo g' k' job := by
  cases h with
  | fresh _ _ h₃ | waiting _ _ _ h₃ | attaching _ _ h₃ | served _ _ h₃ | bereft _ h₃ =>
    exact absurd h₃ hq
  | leaving h₁ h₂ h₃ h₄ =>
    exact .leaving (hk.begun.mpr h₁) (h₂.imp (And.imp_right (mt hu.mp)) (And.imp_right hk.ended)) h₃
      fun hc => absurd (h₄ (hk.calm hc)).1 hq
  | gone h₁ h₂ h₃ h₄ =>
    exact .gone (hk.begun.mpr h₁) (fun h => hk.ended (h₂ (hu.mp h)))
      (fun hc => absurd (h₃ (hk.calm hc)).1 hq) h₄

theorem Sound.aside {late : List (ConnectionId × DetachOp)} (h : Sound ls s)
    (htouch : s.bin.graph.Touches id g) (hlate : ∀ x ∈ late, x ∈ s.late) (hv : i.viewer = some id)
    (hstand : Standing ⟨id⟩ s.decodeVideo g
      (marks (ls ++ [(i, [])]) { s.withGraph g with late } id) (s.jobOf id)) :
    Sound (ls ++ [(i, [])]) { s.withGraph g with late } ∧
      Framed i s { s.withGraph g with late } := by
  have hcore := Graph.core_of_rest htouch.rest
  have hbin : (s.withGraph g).bin.core = s.bin.core := congrArg (Bin.mk · s.bin.numbers) hcore
  have hother : ∀ id' ≠ id, g.own id' = s.bin.graph.own id' := fun _ hne =>
    Graph.own_of_rest htouch.rest h.split (htouch.split h.split) hne
  refine ⟨?_, by rwa [viewer_callback hv], fun id' hv' => hother id' ?_⟩
  rotate_left
  · rintro rfl
    exact hv' hv
  constructor
  case split => exact htouch.split h.split
  case core =>
    obtain ⟨built, hst⟩ := h.core
    exact ⟨built, hbin ▸ hst⟩
  case ended => exact fun id' phase hj => ended_snoc.mpr (.inl (h.ended id' phase hj))
  case owned => exact fun x hx => h.owned x (hlate x hx)
  case viewers =>
    intro id'
    by_cases hne : id' = id
    · subst hne
      exact hstand
    · refine (h.viewers id').frame (marks_keep ?_) ?_ (fun hq x hx => hq x (hlate x hx))
        (hother id' hne) (fun name hn => hcore.symm ▸ hn)
        fun m hx => (exposes_of_rest htouch.rest).trans hx
      · rw [hv]
        exact fun he => hne (Option.some.inj he).symm
      · change id' ∈ up _ ↔ id' ∈ up _
        rw [up_snoc]
        rfl

theorem aside_keeps (ha : i.adds = none) : (marks ls s id).Keeps (marks (ls ++ [(i, rs)]) t id) :=
  ⟨begun_snoc.trans (or_iff_left (by simp [ha])), fun he => ended_snoc.mpr (.inl he),
    fun hc => (calm_snoc.mp hc).1, fun hl => lost_snoc.mpr (.inl hl)⟩

theorem aside_up : (marks (ls ++ [(i, [])]) t id).up ↔ (marks ls s id).up := by
  change id ∈ up _ ↔ id ∈ up _
  rw [up_snoc]
  rfl

theorem Sound.late {op : DetachOp} {verdict : Except String Unit} (h : Sound ls s)
    (hs : s.Step (.late id op verdict, rs) t) :
    Sound (ls ++ [(.late id op verdict, rs)]) t ∧ Framed (.late id op verdict) s t := by
  simp only [State.Step, State.next] at hs
  split at hs
  next g cs ops hr =>
    obtain ⟨hm, hs⟩ := Option.ite_none_right_eq_some.mp hs
    cases hs
    obtain ⟨htouch, -⟩ := (DetachOp.run_detaches hr).touches (h.owned (id, op) hm)
    refine h.aside htouch (fun x hx => List.mem_of_mem_erase hx) rfl ?_
    exact (h.viewers id).disturbed (fun hq => hq _ hm rfl) (aside_keeps rfl) aside_up
  next => cases hs

theorem Sound.lost (h : Sound ls s) (hs : s.Step (.lost id, rs) t) :
    Sound (ls ++ [(.lost id, rs)]) t ∧ Framed (.lost id) s t := by
  obtain ⟨hin, hs⟩ := Option.ite_none_right_eq_some.mp hs
  cases hs
  have hown : Owns id (Branch.mk id).whipSinkName := (@Branch.owns_names ⟨id⟩).1
  have htouch : s.bin.graph.Touches id (s.bin.graph.remove (Branch.mk id).whipSinkName) :=
    ⟨(Graph.remove_own hown).2, fun hs l hl => hs l (List.mem_of_mem_filter hl)⟩
  refine h.aside htouch (fun x hx => hx) rfl ?_
  exact (h.viewers id).bereaved hin (aside_keeps rfl) aside_up (fun hq => hq)
    (lost_snoc.mpr (.inr rfl))

theorem Sound.demux {c : Callback} (h : Sound ls s) (hs : s.Step (.demux c, rs) t) :
    Sound (ls ++ [(.demux c, rs)]) t ∧ Framed (.demux c) s t := by
  cases hs
  obtain ⟨hcore, hbeside⟩ := Bin.core_callback h.split (c := c)
  have hgrows := @Bin.callback_grows s.bin.core c
  rw [hcore] at hgrows
  refine ⟨?_, hcore.symm, fun id _ => hbeside.own id⟩
  constructor
  case split => exact hbeside.split h.split
  case core =>
    obtain ⟨built, hst⟩ := h.core
    obtain ⟨built', -, hst'⟩ := hst.callback (c := c)
    exact ⟨built', hcore ▸ hst'⟩
  case ended => exact fun id phase hj => ended_snoc.mpr (.inl (h.ended id phase hj))
  case owned => exact h.owned
  case viewers =>
    intro id
    refine (h.viewers id).frame (marks_keep (by simp [Input.viewer])) ?_ (fun hq => hq)
      (hbeside.own id) (fun name hn => hgrows.names hn) fun m hx => ?_
    · change id ∈ up _ ↔ id ∈ up _
      rw [up_snoc]
      rfl
    · exact Bin.callback_grows.exposes hx

theorem Sound.step (h : Sound ls s) (hs : s.Step (i, rs) t)
    (hnew : ∀ id, i.adds = some id → id ∉ begun ls) :
    Sound (ls ++ [(i, rs)]) t ∧ Framed i s t := by
  cases i with
  | add id => exact h.add hs (hnew id rfl)
  | remove id => exact h.remove hs
  | adding id i => exact h.adding hs
  | removing id i => exact h.removing hs
  | late id op verdict => exact h.late hs
  | lost id => exact h.lost hs
  | demux c => exact h.demux hs

theorem sound_start (numbers : String → Nat) (decodeVideo : Bool) :
    Sound [] (.start numbers decodeVideo) := by
  obtain ⟨hst, hcore, hsplit, hown⟩ := init_streaming numbers
  constructor
  case split => exact hsplit
  case core => exact ⟨[], hcore.symm ▸ hst⟩
  case ended => exact fun _ _ h => by cases h
  case owned => exact fun _ h => by cases h
  case viewers =>
    intro id
    exact .fresh List.not_mem_nil (Finset.notMem_empty id) (fun _ h => by cases h) (hown id)
      (.inl rfl)

theorem begun_append {ls' : List (Input × List Report)} :
    begun (ls ++ ls') = begun ls ++ begun ls' :=
  List.filterMap_append

theorem Sound.run {ls' : List (Input × List Report)} (h : Sound ls s) (hr : Run State.Step s ls' t)
    (hn : (begun (ls ++ ls')).Nodup) : Sound (ls ++ ls') t ∧
      t.bin.core = (callbacks ls').foldl Bin.callback s.bin.core ∧
      ∀ id, (∀ l ∈ ls', l.1.viewer ≠ some id) → t.bin.graph.own id = s.bin.graph.own id := by
  induction hr generalizing ls with
  | nil s => exact ⟨by rwa [List.append_nil], rfl, fun _ _ => rfl⟩
  | @cons s u t l ls' hs _ ih =>
    obtain ⟨i, rs⟩ := l
    have hsplit : ls ++ (i, rs) :: ls' = ls ++ [(i, rs)] ++ ls' := by simp
    rw [hsplit] at hn ⊢
    have hnew : ∀ id, i.adds = some id → id ∉ begun ls := by
      intro id ha hm
      rw [begun_append, List.nodup_append, begun_append, List.nodup_append] at hn
      exact hn.1.2.2 id hm id (by simp [begun, ha]) rfl
    obtain ⟨hsound, hframe⟩ := h.step hs hnew
    obtain ⟨hsound', hcore', hown'⟩ := ih hsound hn
    refine ⟨hsound', ?_, fun id hv => ?_⟩
    · rw [hcore', hframe.core, ← List.foldl_append]
      congr 1
      rw [callbacks, callbacks, List.filterMap_cons]
      cases i.callback <;> rfl
    · rw [hown' id fun l hm => hv l (List.mem_cons_of_mem _ hm),
        hframe.own id (hv _ (List.mem_cons_self ..))]

theorem run_sound {numbers : String → Nat} {decodeVideo : Bool}
    (h : Run State.Step (.start numbers decodeVideo) ls s) (hn : (begun ls).Nodup) :
    Sound ls s := (sound_start numbers decodeVideo).run h hn |>.1

/-- Without the viewers the pipeline is what the demux has made of it, and the part of a
viewer is as it was while only others come and go and its whip sink stays. -/
theorem viewers_apart {numbers : String → Nat} {decodeVideo : Bool}
    {ls' : List (Input × List Report)} (h : Run State.Step (.start numbers decodeVideo) ls s)
    (h' : Run State.Step s ls' t) (hn : (begun (ls ++ ls')).Nodup) :
    t.bin.core = (callbacks (ls ++ ls')).foldl Bin.callback (Bin.init numbers).1 ∧
      ∀ id, (∀ l ∈ ls', l.1.viewer ≠ some id) → t.bin.graph.own id = s.bin.graph.own id := by
  have hn' : (begun ls).Nodup := by
    rw [begun_append] at hn
    exact hn.of_append_left
  obtain ⟨hsound, hcore, -⟩ := (sound_start numbers decodeVideo).run h hn'
  obtain ⟨-, hcore', hown⟩ := hsound.run h' hn
  refine ⟨?_, hown⟩
  have hinit : (State.start numbers decodeVideo).bin.core = (Bin.init numbers).1 :=
    (init_streaming numbers).2.1
  have hcalls : callbacks (ls ++ ls') = callbacks ls ++ callbacks ls' := List.filterMap_append
  rw [hcore', hcore, hinit, hcalls, List.foldl_append]

theorem viewers_apart_two : ∃ ls ls' s t, Run State.Step (.start (fun _ => 0) false) ls s ∧
    Run State.Step s ls' t ∧ "whip-sink-a" ∈ (t.bin.graph.own "a").names ∧
    "whip-sink-b" ∈ (t.bin.graph.own "b").names ∧
    t.bin.graph.own "a" = s.bin.graph.own "a" := by
  let adding (id : ConnectionId) : List Input :=
    [.add id, .adding id (.other (.lock .pipeline))] ++ List.replicate 4 (.adding id .read) ++
      List.replicate 14 (.adding id (.other (.attach (.ok ())))) ++ [.adding id (.other .finish)]
  let demuxed : List Input := [.demux (.padAdded "video_0" (some "video/x-h264")),
    .demux (.noMorePads [some "video/x-h264"])]
  obtain ⟨ls, t, h, hi, hv⟩ := replayed State.next State.Step (fun _ _ _ _ h => h)
    (.start (fun _ => 0) false) (demuxed ++ adding "a" ++ adding "b") (true, true)
    (fun r => (decide ("whip-sink-a" ∈ (r.1.bin.graph.own "a").names),
      decide ("whip-sink-b" ∈ (r.1.bin.graph.own "b").names))) (by decide)
  obtain ⟨ls, ls', rfl, hls, hls'⟩ := List.map_eq_append_iff.mp hi
  obtain ⟨s, h₁, h₂⟩ := run_append.mp h
  obtain ⟨ha, hb⟩ : "whip-sink-a" ∈ (t.bin.graph.own "a").names ∧
      "whip-sink-b" ∈ (t.bin.graph.own "b").names := by simpa using hv
  have hbegun : begun (ls ++ ls') = ((ls ++ ls').map Prod.fst).filterMap Input.adds := by
    rw [begun, List.filterMap_map]
    rfl
  have hn : (begun (ls ++ ls')).Nodup := by
    rw [hbegun, hi]
    decide
  obtain ⟨-, hown⟩ := viewers_apart h₁ h₂ hn
  have hother : ∀ i ∈ ls'.map Prod.fst, i.viewer ≠ some "a" := hls' ▸ by decide
  exact ⟨ls, ls', s, t, h₁, h₂, ha, hb, hown "a" fun l hl => hother l.1 (List.mem_map_of_mem hl)⟩

theorem served_fed {b : Branch} {decodeVideo : Bool} {ms : List Media} {p : Bin}
    {built : List Media} {m : Media} (h : Served b decodeVideo ms p.graph)
    (hs : Streaming p.core built) (hm : m ∈ ms) :
    ReflTransGen p.graph.Flows m.ingestQueue b.whipSinkName := by
  have hpad : b.mediaPad m ∈ (p.graph.own b.id).teePads :=
    h.complete.teePads.mem_iff.mpr (List.mem_map_of_mem hm)
  have hbuilt : m ∈ built := (hs.ingesting.tees m).mp (h.tees _ hpad)
  have hchain := ReflTransGen.mono (fun _ _ => Graph.core_flows) _ _ (hs.chains m hbuilt)
  exact hchain.trans (h.complete.reaches hm)

theorem streaming_fed {p : Bin} {built : List Media} (h : Streaming p.core built) :
    ReflTransGen p.graph.Flows srtSource demux :=
  ReflTransGen.mono (fun _ _ => Graph.core_flows) _ _ h.source

/-- A viewer that no call is about has its branch while the results have it so, and
otherwise nothing, unless its teardown was disturbed or its whip sink has left. -/
theorem Sound.stands (h : Sound ls s) (hj : s.jobOf id = none) :
    (id ∈ up ls → ¬ Lost ls id → ¬ Ended ls id ∨ Calm ls id →
        ∃ ms, Served ⟨id⟩ s.decodeVideo ms s.bin.graph) ∧
      (id ∉ up ls → Calm ls id → s.bin.graph.own id = .empty) := by
  have hv := h.viewers id
  rw [hj] at hv
  cases hv with
  | fresh _ hu _ ho => exact ⟨fun h => absurd h hu, fun _ _ => ho⟩
  | served _ hu _ hs => exact ⟨fun _ _ _ => ⟨_, hs⟩, fun h => absurd hu h⟩
  | bereft _ _ hl _ h₅ =>
    obtain ⟨⟨_, _, h₅, -⟩, -⟩ | ⟨-, hu⟩ := h₅
    · cases h₅
    · exact ⟨fun _ hn => absurd hl hn, fun h => absurd hu h⟩
  | leaving _ h₂ => obtain ⟨⟨_, _, h₂⟩, -⟩ | ⟨h₂, -⟩ := h₂ <;> cases h₂
  | gone _ he hc =>
    refine ⟨fun hu _ hor => ?_, fun _ hcalm => (hc hcalm).2.1⟩
    obtain hn | hcalm := hor
    · exact absurd (he hu) hn
    · exact absurd hu (hc hcalm).2.2

end Steps

inductive Call
  | add (id : ConnectionId)
  | remove (id : ConnectionId)
deriving DecidableEq

def Input.calls : Input → Option Call
  | .add id => some (.add id)
  | .remove id => some (.remove id)
  | _ => none

def Report.call : Report → Call
  | .added id _ => .add id
  | .removed id _ => .remove id

def Job.call (id : ConnectionId) : Job → Call
  | .add _ _ => .add id
  | .remove _ => .remove id

def State.open (s : State) : List Call := (s.job.map fun j => j.2.call j.1).toList

section Calls

variable {ls : List (Input × List Report)} {i : Input} {rs : List Report} {id : ConnectionId}
  {s t : State} {job : Job}

theorem goOn_calls (h : s.goOn id job = (t, rs)) :
    rs.map Report.call ++ t.open = [job.call id] := by
  unfold State.goOn at h
  split at h
  · cases h
    cases job <;> rfl
  · cases h
    rfl

theorem step_open (h : s.Step (i, rs) t) :
    (∃ g id job, (s.withGraph g).goOn id job = (t, rs) ∧
        s.open ++ i.calls.toList = [job.call id]) ∨
      rs = [] ∧ i.calls = none ∧ t.job = s.job ∧ t.decodeVideo = s.decodeVideo := by
  cases i with
  | add id | remove id =>
    simp only [State.Step, State.next] at h
    split at h
    next hj => exact .inl ⟨s.bin.graph, _, _, Option.some.inj h, by rw [State.open, hj]; rfl⟩
    next => cases h
  | adding id i =>
    simp only [State.Step, State.next] at h
    split at h
    next hj =>
      obtain ⟨⟨rfl, -⟩, h⟩ := Option.ite_none_right_eq_some.mp h
      obtain ⟨_, -, h⟩ := Option.map_eq_some_iff.mp h
      exact .inl ⟨_, _, _, h, by rw [State.open, hj]; rfl⟩
    next => cases h
  | removing id i =>
    simp only [State.Step, State.next] at h
    split at h
    next hj =>
      obtain ⟨rfl, h⟩ := Option.ite_none_right_eq_some.mp h
      obtain ⟨_, -, h⟩ := Option.map_eq_some_iff.mp h
      exact .inl ⟨_, _, _, h, by rw [State.open, hj]; rfl⟩
    next => cases h
  | late id op verdict =>
    simp only [State.Step, State.next] at h
    split at h
    · obtain ⟨-, h⟩ := Option.ite_none_right_eq_some.mp h
      cases h
      exact .inr ⟨rfl, rfl, rfl, rfl⟩
    · cases h
  | lost id =>
    obtain ⟨-, h⟩ := Option.ite_none_right_eq_some.mp h
    cases h
    exact .inr ⟨rfl, rfl, rfl, rfl⟩
  | demux c =>
    cases h
    exact .inr ⟨rfl, rfl, rfl, rfl⟩

theorem step_calls (h : s.Step (i, rs) t) :
    s.open ++ i.calls.toList = rs.map Report.call ++ t.open := by
  obtain ⟨g, id, job, ht, hc⟩ | ⟨rfl, hc, hj, -⟩ := step_open h
  · exact hc.trans (goOn_calls ht).symm
  · rw [hc, State.open, State.open, hj]
    exact List.append_nil _

theorem run_calls (h : Run State.Step s ls t) (hs : s.job = none) :
    ls.filterMap (·.1.calls) = (reports ls).map Report.call ++ t.open := by
  refine h.history
    (P := fun ls t => ls.filterMap (·.1.calls) = (reports ls).map Report.call ++ t.open)
    (by simp [reports, State.open, hs]) ?_
  rintro ls u v ⟨i, rs⟩ ih hstep
  have hlast : [(i, rs)].filterMap (·.1.calls) = i.calls.toList := by
    rw [List.filterMap_cons]
    cases i.calls <;> rfl
  have hreports : reports (ls ++ [(i, rs)]) = reports ls ++ rs := by simp [reports]
  rw [List.filterMap_append, ih, hlast, List.append_assoc, step_calls hstep, hreports,
    List.map_append, List.append_assoc]

def Call.adds : Call → Option ConnectionId
  | .add id => some id
  | .remove _ => none

theorem begun_calls : begun ls = (ls.filterMap (·.1.calls)).filterMap Call.adds := by
  rw [begun, List.filterMap_filterMap]
  refine List.filterMap_congr fun l _ => ?_
  cases hl : l.1 <;> rfl

theorem ended_calls : Ended ls id ↔ .remove id ∈ ls.filterMap (·.1.calls) := by
  rw [Ended, List.mem_filterMap]
  refine exists_congr fun l => and_congr_right fun _ => ?_
  cases hl : l.1 <;> simp [Input.removes, Input.calls]

theorem run_decodeVideo (h : Run State.Step s ls t) : t.decodeVideo = s.decodeVideo := by
  refine h.invariant (P := fun t => t.decodeVideo = s.decodeVideo) rfl ?_
  rintro u v ⟨i, rs⟩ ih hs
  obtain ⟨g, id, job, ht, -⟩ | ⟨-, -, -, hd⟩ := step_open hs
  · exact (goOn_onward ht).decodeVideo.trans ih
  · exact hd.trans ih

end Calls

end SrtWhep.Stream.Plane
