import SrtWhep.Stream.Plane

namespace SrtWhep.Stream.Plane

/-- What is to know about a viewer besides what the pipeline holds: what has been
called for it, whether the calls have left it a branch, whether its teardown was
undisturbed so far, whether none of it is still under way, and whether its whip sink
has left by itself. -/
structure Marks where
  begun : Prop
  ended : Prop
  up : Prop
  calm : Prop
  quiet : Prop
  lost : Prop

structure Marks.Keeps (k k' : Marks) : Prop where
  begun : k'.begun ↔ k.begun
  ended : k.ended → k'.ended
  calm : k'.calm → k.calm
  lost : k.lost → k'.lost

def Job.active (job : Job) : Option Job := if job.returned.isSome then none else some job

def Reads (g : Graph) : Readiness.Reading → Prop
  | .nothing | .demux => True
  | .pads .. | .videoTee .. => ∃ m : Media, g.exposes m

/-- How a viewer stands: it is new, its branch is being attached, in place or being taken
out, or it had one. One whose whip sink has left has what else was attached. -/
inductive Standing (b : Branch) (decodeVideo : Bool) (g : Graph) (k : Marks) : Option Job → Prop
  | fresh {job} : ¬ k.begun → ¬ k.up → k.quiet → g.own b.id = .empty →
      (job = none ∨ job = some (.remove .locking) ∨ ∃ ops, job = some (.remove (.detaching ops)) ∧
        ∀ op ∈ ops, op.awaits = false ∧ Owns b.id op.target) →
      Standing b decodeVideo g k job
  | waiting {phase reading} : phase = .locking ∨ phase = .checking → k.begun → ¬ k.up → k.quiet →
      g.own b.id = .empty → Reads g reading →
      Standing b decodeVideo g k (some (.add phase reading))
  | attaching {ms ops reading} : k.begun → ¬ k.up → k.quiet → Attaching b decodeVideo ms ops g →
      Standing b decodeVideo g k (some (.add (.attaching ops) reading))
  | served {ms job} : k.begun → k.up → k.quiet → Served b decodeVideo ms g →
      (job = none ∨ job = some (.remove .locking)) → Standing b decodeVideo g k job
  | bereft {job} : k.begun → k.quiet → k.lost → (∃ cs, Attached b cs (g.own b.id)) →
      ((∃ ops reading, job = some (.add (.attaching ops) reading) ∧
          ∀ op ∈ ops, b.Allows op ∧ b.Joins op) ∧ ¬ k.up ∨
        (job = none ∨ job = some (.remove .locking)) ∧ k.up) →
      Standing b decodeVideo g k job
  | leaving {ops job} : k.begun →
      ((∃ message reading, job = some (.add (.detaching message ops) reading)) ∧ ¬ k.up ∨
        job = some (.remove (.detaching ops)) ∧ k.ended) →
      (∀ op ∈ ops, Owns b.id op.target) →
      (k.calm → k.quiet ∧ ∃ cs, Detaching b True cs (g.own b.id) ops) →
      Standing b decodeVideo g k job
  | gone {job} : k.begun → (k.up → k.ended) → (k.calm → k.quiet ∧ g.own b.id = .empty ∧ ¬ k.up) →
      (job = none ∨ job = some (.remove .locking)) → Standing b decodeVideo g k job

section Viewers

variable {id : ConnectionId} {decodeVideo : Bool} {g g' : Graph} {k k' : Marks} {job : Option Job}
  {phase : Creation.Phase} {reading : Readiness.Reading} {i : Readiness.Input}
  {cs : List Change} {t : Readiness.State}

theorem Reads.frame (h : Reads g reading) (hx : ∀ m, g.exposes m → g'.exposes m) :
    Reads g' reading := by
  cases reading with
  | nothing | demux => trivial
  | pads | videoTee =>
    obtain ⟨m, hm⟩ := h
    exact ⟨m, hx m hm⟩

theorem Standing.frame (h : Standing ⟨id⟩ decodeVideo g k job) (hk : k.Keeps k')
    (hu : k'.up ↔ k.up) (hq : k.quiet → k'.quiet) (ho : g'.own id = g.own id)
    (hc : ∀ name ∈ g.core.names, name ∈ g'.core.names) (hx : ∀ m, g.exposes m → g'.exposes m) :
    Standing ⟨id⟩ decodeVideo g' k' job := by
  obtain ⟨hb, he, hcalm, hlost⟩ := hk
  cases h with
  | fresh h₁ h₂ h₃ h₄ h₅ => exact .fresh (mt hb.mp h₁) (mt hu.mp h₂) (hq h₃) (ho.trans h₄) h₅
  | waiting h₁ h₂ h₃ h₄ h₅ h₆ =>
    exact .waiting h₁ (hb.mpr h₂) (mt hu.mp h₃) (hq h₄) (ho.trans h₅) (h₆.frame hx)
  | attaching h₁ h₂ h₃ h₄ =>
    exact .attaching (hb.mpr h₁) (mt hu.mp h₂) (hq h₃) (h₄.frame ho hc hx)
  | served h₁ h₂ h₃ h₄ h₅ =>
    exact .served (hb.mpr h₁) (hu.mpr h₂) (hq h₃) (h₄.frame ho hc) h₅
  | bereft h₁ h₂ h₃ h₄ h₅ =>
    exact .bereft (hb.mpr h₁) (hq h₂) (hlost h₃) (ho ▸ h₄)
      (h₅.imp (And.imp_right (mt hu.mp)) (And.imp_right hu.mpr))
  | leaving h₁ h₂ h₃ h₄ =>
    refine .leaving (hb.mpr h₁) (h₂.imp (And.imp_right (mt hu.mp)) (And.imp_right he)) h₃ ?_
    intro hc
    exact (h₄ (hcalm hc)).imp hq fun h => ho ▸ h
  | gone h₁ h₂ h₃ h₄ =>
    refine .gone (hb.mpr h₁) (fun h => he (h₂ (hu.mp h))) (fun hc => ?_) h₄
    obtain ⟨h₅, h₆, h₇⟩ := h₃ (hcalm hc)
    exact ⟨hq h₅, ho.trans h₆, mt hu.mp h₇⟩

theorem Standing.bereaved (h : Standing ⟨id⟩ decodeVideo g k job)
    (hin : (Branch.mk id).whipSinkName ∈ g.names) (hk : k.Keeps k') (hu : k'.up ↔ k.up)
    (hq : k.quiet → k'.quiet) (hl : k'.lost) :
    Standing ⟨id⟩ decodeVideo (g.remove (Branch.mk id).whipSinkName) k' job := by
  have hown : Owns id (Branch.mk id).whipSinkName := (@Branch.owns_names ⟨id⟩).1
  have hpart := (@Graph.remove_own id g _ hown).1
  have hne : g.own id ≠ .empty := by
    intro he
    have hm := Graph.mem_own_names.mpr ⟨hin, hown⟩
    simp [he, Graph.names, Graph.empty] at hm
  have hlost : (∃ cs, Attached ⟨id⟩ cs (g.own id)) →
      ∃ cs, Attached ⟨id⟩ cs ((g.remove (Branch.mk id).whipSinkName).own id) := by
    rintro ⟨cs, ha⟩
    rw [hpart]
    exact ha.lost
  obtain ⟨hb, he, hcalm, -⟩ := hk
  cases h with
  | fresh _ _ _ h₄ => exact absurd h₄ hne
  | waiting _ _ _ _ h₅ => exact absurd h₅ hne
  | attaching h₁ h₂ h₃ h₄ =>
    exact .bereft (hb.mpr h₁) (hq h₃) hl (hlost h₄.attached)
      (.inl ⟨⟨_, _, rfl, h₄.allowed⟩, mt hu.mp h₂⟩)
  | served h₁ h₂ h₃ h₄ h₅ =>
    exact .bereft (hb.mpr h₁) (hq h₃) hl (hlost h₄.attached) (.inr ⟨h₅, hu.mpr h₂⟩)
  | bereft h₁ h₂ _ h₄ h₅ =>
    exact .bereft (hb.mpr h₁) (hq h₂) hl (hlost h₄)
      (h₅.imp (And.imp_right (mt hu.mp)) (And.imp_right hu.mpr))
  | leaving h₁ h₂ h₃ h₄ =>
    refine .leaving (hb.mpr h₁) (h₂.imp (And.imp_right (mt hu.mp)) (And.imp_right he)) h₃ ?_
    intro hc
    obtain ⟨hquiet, cs, hd⟩ := h₄ (hcalm hc)
    exact ⟨hq hquiet, _, hpart ▸ hd.lost⟩
  | gone h₁ h₂ h₃ h₄ =>
    refine .gone (hb.mpr h₁) (fun h => he (h₂ (hu.mp h))) (fun hc => ?_) h₄
    exact absurd (h₃ (hcalm hc)).2.1 hne

structure Marks.Goes (k k' : Marks) (job : Job) (disturbed : Prop) : Prop where
  keeps : k.Keeps k'
  calm : k'.calm → ¬ disturbed
  quiet : k.quiet → (∀ result op, job.returned ≠ some (result, some op)) → k'.quiet

theorem read_leads {s : Readiness.State} (h : s.read = some (t, cs))
    (hr : Reads s.call.graph s.reading) (hp : s.call.phase = .checking) :
    ∃ phase, t.call = { s.call with phase } ∧
      ((phase = .checking ∧ Reads s.call.graph t.reading) ∨
        (phase = .attaching s.call.branch.attach ∧ ∃ m : Media, s.call.graph.exposes m) ∨
        ∃ e, phase = .returned (some (.error e)) none) := by
  obtain ⟨call, reading⟩ := s
  cases reading with
  | nothing =>
    simp only [Readiness.State.read] at h
    split at h
    · cases h
      exact ⟨_, rfl, .inr (.inr ⟨_, rfl⟩)⟩
    · cases h
      exact ⟨_, by rw [← hp], .inl ⟨rfl, trivial⟩⟩
  | demux =>
    simp only [Readiness.State.read] at h
    split at h
    · cases h
      exact ⟨_, rfl, .inr (.inr ⟨_, rfl⟩)⟩
    next hn =>
      cases h
      refine ⟨_, by rw [← hp], .inl ⟨rfl, ?_⟩⟩
      by_cases hv : call.graph.exposes .video = true
      · exact ⟨.video, hv⟩
      · exact ⟨.audio, by simpa [hv] using hn⟩
  | pads hasVideo hasAudio =>
    cases h
    exact ⟨_, by rw [← hp], .inl ⟨rfl, hr⟩⟩
  | videoTee hasAudio videoReady =>
    simp only [Readiness.State.read] at h
    split at h
    · cases h
      exact ⟨_, rfl, .inr (.inl ⟨rfl, hr⟩)⟩
    · cases h
      exact ⟨_, rfl, .inr (.inr ⟨_, rfl⟩)⟩

variable {ms : List Media} {ops : List AttachOp} {message : String} {disturbed : Prop}

theorem waiting_step (hp : phase = .locking ∨ phase = .checking) (hb : k.begun) (hu : ¬ k.up)
    (hq : k.quiet) (ho : g.own id = .empty) (hr : Reads g reading)
    (hs : Readiness.State.Step ⟨⟨⟨id⟩, decodeVideo, g, phase⟩, reading⟩ (i, cs) t)
    (hi : isOwn i) (hk : k.Goes k' (.add t.call.phase t.reading) disturbed)
    (hup : k'.up ↔ k.up ∨ ∃ pending,
      (Job.add t.call.phase t.reading).returned = some (some (.ok ()), pending)) :
    t.call.graph = g ∧
      Standing ⟨id⟩ decodeVideo g k' (Job.add t.call.phase t.reading).active := by
  have hb' : k'.begun := hk.keeps.begun.mpr hb
  -- What the call comes back with here is an error, with nothing done.
  have hback : ∀ {result}, t.call.phase = .returned result none → result ≠ some (.ok ()) →
      Standing ⟨id⟩ decodeVideo g k' (Job.add t.call.phase t.reading).active := by
    intro result ht hne
    have hu' : ¬ k'.up := by
      rw [hup, ht]
      simp [hu, Job.returned, hne]
    have hq' := hk.quiet hq (by simp [ht, Job.returned])
    rw [ht]
    exact .gone hb' (fun h => absurd h hu') (fun _ => ⟨hq', ho, hu'⟩) (.inl rfl)
  have hon : ∀ {phase'}, t.call.phase = phase' →
      (∀ result pending, phase' ≠ .returned result pending) → ¬ k'.up ∧ k'.quiet := by
    intro phase' ht hne
    have hret : (Job.add t.call.phase t.reading).returned = none := by
      rw [ht]
      cases phase' with
      | returned result pending => exact absurd rfl (hne result pending)
      | _ => rfl
    exact ⟨by simp [hup, hu, hret], hk.quiet hq (by simp [hret])⟩
  obtain ⟨call, reading'⟩ := t
  cases i with
  | read =>
    obtain rfl | rfl := hp
    · cases hs
    obtain ⟨phase', rfl, ⟨rfl, hr'⟩ | ⟨rfl, m, hm⟩ | ⟨e, rfl⟩⟩ := read_leads hs hr rfl
    · obtain ⟨hu', hq'⟩ := hon rfl (by simp)
      exact ⟨rfl, .waiting (.inr rfl) hb' hu' hq' ho hr'⟩
    · obtain ⟨hu', hq'⟩ := hon rfl (by simp)
      exact ⟨rfl, .attaching hb' hu' hq' (.start ho hm)⟩
    · exact ⟨rfl, hback rfl (by simp)⟩
  | other i =>
    cases Readiness.State.Step.takes hs with
    | other hne _ hc =>
      cases hc.takes with
      | locked =>
        obtain ⟨hu', hq'⟩ := hon rfl (by simp)
        exact ⟨rfl, .waiting (.inr rfl) hb' hu' hq' ho hr⟩
      | refused => exact ⟨rfl, hback rfl (by simp)⟩
      | waited => exact ⟨rfl, hback rfl (by simp)⟩
      | checked => exact absurd rfl hne
      | elsewhere => cases hi
      | late => cases hi
      | attached h | broken h | complete h | detached h | stuck h | cleaned h | cut h =>
        obtain rfl | rfl := hp <;> cases h

theorem attaching_cases {ops : List AttachOp}
    (hs : Readiness.State.Step ⟨⟨⟨id⟩, decodeVideo, g, .attaching ops⟩, reading⟩ (i, cs) t)
    (hi : isOwn i) :
    (∃ message, t = ⟨⟨⟨id⟩, decodeVideo, g, .detaching message (Branch.detach ⟨id⟩)⟩, reading⟩) ∨
      (∃ op rest g' ops' verdict, ops = op :: rest ∧
        op.run ⟨id⟩ decodeVideo g rest verdict = some (.ok (g', cs, ops')) ∧
        t = ⟨⟨⟨id⟩, decodeVideo, g', .attaching ops'⟩, reading⟩) ∨
      ops = [] ∧ t = ⟨⟨⟨id⟩, decodeVideo, g, .returned (some (.ok ())) none⟩, reading⟩ := by
  cases i with
  | read => cases hs
  | other i =>
    cases i with
    | attach verdict =>
      obtain ⟨c, hc, rfl⟩ := Readiness.State.lift_eq hs
      obtain ⟨op, rest, hops, ⟨message, rfl⟩ | ⟨g', ops', rfl, hr⟩⟩ := Readiness.attach_step hc
      · exact .inl ⟨message, rfl⟩
      · cases hops
        exact .inr (.inl ⟨op, rest, g', ops', verdict, rfl, hr, rfl⟩)
    | finish =>
      obtain ⟨c, hc, rfl⟩ := Readiness.State.lift_eq hs
      cases hc.takes with
      | complete hp =>
        cases hp
        exact .inr (.inr ⟨rfl, rfl⟩)
      | cleaned hp => cases hp
      | refused hp => obtain hp | hp := hp <;> cases hp
    | lock | timeout | detach =>
      obtain ⟨c, hc, -⟩ := Readiness.State.lift_eq hs
      cases hc
    | check => cases hs
    | late | elsewhere => cases hi

theorem attaching_step (hb : k.begun) (hu : ¬ k.up) (hq : k.quiet)
    (ha : Attaching ⟨id⟩ decodeVideo ms ops g) (ht : Tees g)
    (hs : Readiness.State.Step ⟨⟨⟨id⟩, decodeVideo, g, .attaching ops⟩, reading⟩ (i, cs) t)
    (hi : isOwn i) (hk : k.Goes k' (.add t.call.phase t.reading) disturbed)
    (hup : k'.up ↔ k.up ∨ ∃ pending,
      (Job.add t.call.phase t.reading).returned = some (some (.ok ()), pending)) :
    g.Touches id t.call.graph ∧
      Standing ⟨id⟩ decodeVideo t.call.graph k' (Job.add t.call.phase t.reading).active := by
  have hb' : k'.begun := hk.keeps.begun.mpr hb
  obtain ⟨message, rfl⟩ | ⟨op, rest, g', ops', verdict, rfl, hr, rfl⟩ | ⟨rfl, rfl⟩ :=
    attaching_cases hs hi
  · have hu' : ¬ k'.up := by simp [hup, hu, Job.returned]
    have hq' := hk.quiet hq (by simp [Job.returned])
    obtain ⟨cs', hatt⟩ := ha.attached
    refine ⟨.refl id g, .leaving hb' (.inl ⟨⟨message, _, rfl⟩, hu'⟩) ?_ fun _ => ⟨hq', cs', ?_⟩⟩
    · exact fun op hm => (detach_looks hm).2
    · exact hatt.detaching
  · have hu' : ¬ k'.up := by simp [hup, hu, Job.returned]
    have hq' := hk.quiet hq (by simp [Job.returned])
    obtain ⟨htouch, ms', ha'⟩ := ha.step ht hr
    exact ⟨htouch, .attaching hb' hu' hq' ha'⟩
  · have hq' := hk.quiet hq (by simp [Job.returned])
    exact ⟨.refl id g, .served hb' (hup.mpr (.inr ⟨none, rfl⟩)) hq' ha.finished (.inl rfl)⟩

theorem bereft_step (hb : k.begun) (hu : ¬ k.up) (hq : k.quiet) (hl : k.lost)
    (ha : ∃ cs, Attached ⟨id⟩ cs (g.own id)) (hops : ∀ op ∈ ops, Branch.Allows ⟨id⟩ op ∧
      Branch.Joins ⟨id⟩ op) (ht : Tees g)
    (hs : Readiness.State.Step ⟨⟨⟨id⟩, decodeVideo, g, .attaching ops⟩, reading⟩ (i, cs) t)
    (hi : isOwn i) (hk : k.Goes k' (.add t.call.phase t.reading) disturbed)
    (hup : k'.up ↔ k.up ∨ ∃ pending,
      (Job.add t.call.phase t.reading).returned = some (some (.ok ()), pending)) :
    g.Touches id t.call.graph ∧
      Standing ⟨id⟩ decodeVideo t.call.graph k' (Job.add t.call.phase t.reading).active := by
  have hb' : k'.begun := hk.keeps.begun.mpr hb
  have hl' : k'.lost := hk.keeps.lost hl
  obtain ⟨cs₀, hatt⟩ := ha
  obtain ⟨message, rfl⟩ | ⟨op, rest, g', ops', verdict, rfl, hr, rfl⟩ | ⟨rfl, rfl⟩ :=
    attaching_cases hs hi
  · have hu' : ¬ k'.up := by simp [hup, hu, Job.returned]
    have hq' := hk.quiet hq (by simp [Job.returned])
    refine ⟨.refl id g, .leaving hb' (.inl ⟨⟨message, _, rfl⟩, hu'⟩) ?_ fun _ => ⟨hq', cs₀, ?_⟩⟩
    · exact fun op hm => (detach_looks hm).2
    · exact hatt.detaching
  · have hu' : ¬ k'.up := by simp [hup, hu, Job.returned]
    have hq' := hk.quiet hq (by simp [Job.returned])
    obtain ⟨htouch, hatt', hops'⟩ := AttachOp.run_touches (b := ⟨id⟩) hr hops ht hatt
    exact ⟨htouch, .bereft hb' hq' hl' hatt' (.inl ⟨⟨_, _, rfl, hops'⟩, hu'⟩)⟩
  · have hq' := hk.quiet hq (by simp [Job.returned])
    exact ⟨.refl id g, .bereft hb' hq' hl' ⟨cs₀, hatt⟩
      (.inr ⟨.inl rfl, hup.mpr (.inr ⟨none, rfl⟩)⟩)⟩

theorem leaving_step {ops : List DetachOp} (hb : k.begun) (hu : ¬ k.up)
    (hops : ∀ op ∈ ops, Owns id op.target)
    (hd : k.calm → k.quiet ∧ ∃ cs, Detaching ⟨id⟩ True cs (g.own id) ops)
    (hs : Readiness.State.Step ⟨⟨⟨id⟩, decodeVideo, g, .detaching message ops⟩, reading⟩ (i, cs) t)
    (hi : isOwn i) (hk : k.Goes k' (.add t.call.phase t.reading)
      ((Input.adding id i).disturbs = some id))
    (hup : k'.up ↔ k.up ∨ ∃ pending,
      (Job.add t.call.phase t.reading).returned = some (some (.ok ()), pending)) :
    g.Touches id t.call.graph ∧
      Standing ⟨id⟩ decodeVideo t.call.graph k' (Job.add t.call.phase t.reading).active := by
  have hb' : k'.begun := hk.keeps.begun.mpr hb
  obtain ⟨call, reading'⟩ := t
  cases i with
  | read => cases hs
  | other i =>
    obtain ⟨hne, helse⟩ : i ≠ .check ∧ (∀ graph, i ≠ .elsewhere graph) := by
      constructor
      · rintro rfl
        cases hs
      · rintro graph rfl
        cases hi
    cases Readiness.State.Step.takes hs with
    | other _ _ hc =>
      cases hc.takes with
      | @detached _ op rest verdict g' _ ops' hp hdet =>
        cases hp
        have hu' : ¬ k'.up := by simp [hup, hu, Job.returned]
        obtain ⟨htouch, hmem⟩ := hdet.touches (hops op (List.mem_cons_self ..))
        refine ⟨htouch, .leaving hb' (.inl ⟨⟨message, _, rfl⟩, hu'⟩) (fun o ho => ?_) fun hc' => ?_⟩
        · exact (hmem o ho).elim (fun h => hops o (List.mem_cons_of_mem _ h)) fun h => h
        · obtain ⟨hq, cs', hd⟩ := hd (hk.keeps.calm hc')
          have hf : failed verdict = false := by
            cases verdict with
            | ok => rfl
            | error => exact absurd rfl (hk.calm hc')
          exact ⟨hk.quiet hq (by simp [Job.returned]), _,
            (hdet.detaching hd).1.weaken fun _ => ⟨trivial, hf⟩⟩
      | @stuck _ _ verdict hp hf =>
        have hu' : ¬ k'.up := by simp [hup, hu, Job.returned]
        refine ⟨.refl id g, .gone hb' (fun h => absurd h hu') (fun hc' => ?_) (.inl rfl)⟩
        cases verdict with
        | ok => cases hf
        | error => exact absurd rfl (hk.calm hc')
      | cleaned hp =>
        cases hp
        have hu' : ¬ k'.up := by simp [hup, hu, Job.returned]
        refine ⟨.refl id g, .gone hb' (fun h => absurd h hu') (fun hc' => ?_) (.inl rfl)⟩
        obtain ⟨hq, cs', hd⟩ := hd (hk.keeps.calm hc')
        exact ⟨hk.quiet hq (by simp [Job.returned]), hd.finished trivial rfl, hu'⟩
      | cut hp ha =>
        have hu' : ¬ k'.up := by simp [hup, hu, Job.returned]
        exact ⟨.refl id g, .gone hb' (fun h => absurd h hu') (fun hc' => absurd rfl (hk.calm hc'))
          (.inl rfl)⟩
      | checked => exact absurd rfl hne
      | elsewhere => exact absurd rfl (helse _)
      | late hp | locked hp | attached hp | broken hp | complete hp | waited hp => cases hp
      | refused hp => obtain hp | hp := hp <;> cases hp

theorem adding_pending {result : Option (Except PipelineError Unit)} {op : DetachOp}
    (hs : Readiness.State.Step ⟨⟨⟨id⟩, decodeVideo, g, phase⟩, reading⟩ (i, cs) t) (hi : isOwn i)
    (ht : t.call.phase = .returned result (some op)) :
    ∃ message ops, phase = .detaching message (op :: ops) := by
  cases Readiness.State.Step.takes hs with
  | found hp | pads hp | videoTee hp => cases hp.symm.trans ht
  | lacking | passed | unready => cases ht
  | other hne _ hc =>
    cases hc.takes with
    | @cut message _ ops hp =>
      cases ht
      exact ⟨message, ops, hp⟩
    | late | elsewhere => cases hi
    | _ => cases ht

end Viewers

section Removals

variable {id : ConnectionId} {decodeVideo : Bool} {g g' : Graph} {k k' : Marks}
  {phase phase' : Removal} {i : RemovalInput} {ops ops' : List DetachOp} {op : DetachOp}
  {cs : List Change} {verdict : Except String Unit}

theorem Detaches.absent_of_empty {failed : Bool} (h : Detaches g ops op failed g' cs ops')
    (ho : g.own id = .empty) (ha : op.awaits = false) (hown : Owns id op.target) :
    g' = g ∧ ops' = ops := by
  have hout : op.target ∉ g.names := by
    intro hin
    have hm : op.target ∈ (g.own id).names := Graph.mem_own_names.mpr ⟨hin, hown⟩
    simp [ho, Graph.names, Graph.empty] at hm
  cases h with
  | absent => exact ⟨rfl, rfl⟩
  | unlinked _ hin => exact absurd hin hout
  | @linked queue p hp hq =>
    have hm : p ∈ (g.own id).teePads := Graph.mem_own_teePads.mpr ⟨hp, by rw [hq]; exact hown⟩
    simp [ho, Graph.empty] at hm
  | present hin => exact absurd hin hout
  | pad => cases ha
  | element => cases ha
  | failed hf => cases ha.symm.trans hf

theorem removing_step (h : Standing ⟨id⟩ decodeVideo g k (some (.remove phase)))
    (hs : phase.next ⟨id⟩ g i = some (g', phase')) (he : k.ended)
    (hk : k.Goes k' (.remove phase') ((Input.removing id i).disturbs = some id))
    (hup : k'.up ↔ k.up ∧ ∀ pending,
      (Job.remove phase').returned ≠ some (some (.ok ()), pending)) :
    g.Touches id g' ∧ Standing ⟨id⟩ decodeVideo g' k' (Job.remove phase').active := by
  have he' := hk.keeps.ended he
  have hb := hk.keeps.begun
  have hupi : k'.up → k.up := fun h => (hup.mp h).1
  cases Removal.next_takes hs with
  | locked =>
    refine ⟨.refl id g, ?_⟩
    have hops : ∀ op ∈ Branch.detach ⟨id⟩, Owns id op.target := fun op hm => (detach_looks hm).2
    have hq' := fun hq => hk.quiet hq (by simp [Job.returned])
    cases h with
    | fresh h₁ h₂ h₃ h₄ =>
      refine .fresh (mt hb.mp h₁) (mt hupi h₂) (hq' h₃) h₄ (.inr (.inr ⟨_, rfl, ?_⟩))
      exact fun op hm => detach_looks hm
    | served h₁ h₂ h₃ h₄ =>
      obtain ⟨cs, hatt⟩ := h₄.attached
      exact .leaving (hb.mpr h₁) (.inr ⟨rfl, he'⟩) hops fun _ => ⟨hq' h₃, cs, hatt.detaching⟩
    | bereft h₁ h₂ _ h₄ =>
      obtain ⟨cs, hatt⟩ := h₄
      exact .leaving (hb.mpr h₁) (.inr ⟨rfl, he'⟩) hops fun _ => ⟨hq' h₂, cs, hatt.detaching⟩
    | leaving _ h₂ => obtain ⟨⟨_, _, h₂⟩, -⟩ | ⟨h₂, -⟩ := h₂ <;> cases h₂
    | gone h₁ h₂ h₃ =>
      refine .leaving (hb.mpr h₁) (.inr ⟨rfl, he'⟩) hops fun hc => ?_
      obtain ⟨hq, ho, -⟩ := h₃ (hk.keeps.calm hc)
      refine ⟨hq' hq, [], ?_⟩
      rw [ho]
      exact attached_empty.detaching
  | @refused _ result hne =>
    refine ⟨.refl id g, ?_⟩
    have hu' : k.up → k'.up := fun h => hup.mpr ⟨h, by simp [Job.returned, hne]⟩
    have hq' := fun hq => hk.quiet hq (by simp [Job.returned])
    cases h with
    | fresh h₁ h₂ h₃ h₄ => exact .fresh (mt hb.mp h₁) (mt hupi h₂) (hq' h₃) h₄ (.inl rfl)
    | served h₁ h₂ h₃ h₄ => exact .served (hb.mpr h₁) (hu' h₂) (hq' h₃) h₄ (.inl rfl)
    | bereft h₁ h₂ h₃ h₄ h₅ =>
      obtain ⟨⟨_, _, h₅, -⟩, -⟩ | ⟨-, h₅⟩ := h₅
      · cases h₅
      · exact .bereft (hb.mpr h₁) (hq' h₂) (hk.keeps.lost h₃) h₄ (.inr ⟨.inl rfl, hu' h₅⟩)
    | leaving _ h₂ => obtain ⟨⟨_, _, h₂⟩, -⟩ | ⟨h₂, -⟩ := h₂ <;> cases h₂
    | gone h₁ h₂ h₃ =>
      refine .gone (hb.mpr h₁) (fun _ => he') (fun hc => ?_) (.inl rfl)
      obtain ⟨hq, ho, hu⟩ := h₃ (hk.keeps.calm hc)
      exact ⟨hq' hq, ho, mt hupi hu⟩
  | @detached op rest verdict _ cs ops' hdet =>
    have hq' := fun hq => hk.quiet hq (by simp [Job.returned])
    cases h with
    | fresh h₁ h₂ h₃ h₄ h₅ =>
      obtain h₅ | h₅ | ⟨ops, h₅, hall⟩ := h₅ <;> cases h₅
      obtain ⟨ha, ho⟩ := hall op (List.mem_cons_self ..)
      obtain ⟨rfl, rfl⟩ := Detaches.absent_of_empty hdet h₄ ha ho
      refine ⟨.refl id _, .fresh (mt hb.mp h₁) (mt hupi h₂) (hq' h₃) h₄ (.inr (.inr ⟨_, rfl, ?_⟩))⟩
      exact fun o hm => hall o (List.mem_cons_of_mem _ hm)
    | served _ _ _ _ h₅ => obtain h₅ | h₅ := h₅ <;> cases h₅
    | bereft _ _ _ _ h₅ => obtain ⟨⟨_, _, h₅, -⟩, -⟩ | ⟨h₅ | h₅, -⟩ := h₅ <;> cases h₅
    | gone _ _ _ h₅ => obtain h₅ | h₅ := h₅ <;> cases h₅
    | leaving h₁ h₂ h₃ h₄ =>
      obtain ⟨⟨_, _, h₂⟩, -⟩ | ⟨h₂, -⟩ := h₂ <;> cases h₂
      obtain ⟨htouch, hmem⟩ := hdet.touches (h₃ op (List.mem_cons_self ..))
      refine ⟨htouch, .leaving (hb.mpr h₁) (.inr ⟨rfl, he'⟩) (fun o ho => ?_) fun hc => ?_⟩
      · exact (hmem o ho).elim (fun h => h₃ o (List.mem_cons_of_mem _ h)) fun h => h
      · obtain ⟨hq, cs', hd⟩ := h₄ (hk.keeps.calm hc)
        have hf : failed verdict = false := by
          cases verdict with
          | ok => rfl
          | error => exact absurd rfl (hk.calm hc)
        exact ⟨hq' hq, _, (hdet.detaching hd).1.weaken fun _ => ⟨trivial, hf⟩⟩
  | @stuck ops verdict message hf =>
    refine ⟨.refl id g, ?_⟩
    cases h with
    | fresh h₁ h₂ h₃ h₄ =>
      have hq' := hk.quiet h₃ (by simp [Job.returned])
      exact .fresh (mt hb.mp h₁) (mt hupi h₂) hq' h₄ (.inl rfl)
    | served _ _ _ _ h₅ => obtain h₅ | h₅ := h₅ <;> cases h₅
    | bereft _ _ _ _ h₅ => obtain ⟨⟨_, _, h₅, -⟩, -⟩ | ⟨h₅ | h₅, -⟩ := h₅ <;> cases h₅
    | gone _ _ _ h₅ => obtain h₅ | h₅ := h₅ <;> cases h₅
    | leaving h₁ =>
      refine .gone (hb.mpr h₁) (fun _ => he') (fun hc => ?_) (.inl rfl)
      cases verdict with
      | ok => cases hf
      | error => exact absurd rfl (hk.calm hc)
  | finished =>
    refine ⟨.refl id g, ?_⟩
    have hu' : ¬ k'.up := fun h => (hup.mp h).2 none rfl
    have hq' := fun hq => hk.quiet hq (by simp [Job.returned])
    cases h with
    | fresh h₁ _ h₃ h₄ => exact .fresh (mt hb.mp h₁) hu' (hq' h₃) h₄ (.inl rfl)
    | served _ _ _ _ h₅ => obtain h₅ | h₅ := h₅ <;> cases h₅
    | bereft _ _ _ _ h₅ => obtain ⟨⟨_, _, h₅, -⟩, -⟩ | ⟨h₅ | h₅, -⟩ := h₅ <;> cases h₅
    | gone _ _ _ h₅ => obtain h₅ | h₅ := h₅ <;> cases h₅
    | leaving h₁ h₂ _ h₄ =>
      obtain ⟨⟨_, _, h₂⟩, -⟩ | ⟨h₂, -⟩ := h₂ <;> cases h₂
      refine .gone (hb.mpr h₁) (fun _ => he') (fun hc => ?_) (.inl rfl)
      obtain ⟨hq, cs, hd⟩ := h₄ (hk.keeps.calm hc)
      exact ⟨hq' hq, hd.finished trivial rfl, hu'⟩
  | @cut op ops ha =>
    refine ⟨.refl id g, ?_⟩
    cases h with
    | fresh _ _ _ _ h₅ =>
      obtain h₅ | h₅ | ⟨ops, h₅, hall⟩ := h₅ <;> cases h₅
      cases ha.symm.trans (hall op (List.mem_cons_self ..)).1
    | served _ _ _ _ h₅ => obtain h₅ | h₅ := h₅ <;> cases h₅
    | bereft _ _ _ _ h₅ => obtain ⟨⟨_, _, h₅, -⟩, -⟩ | ⟨h₅ | h₅, -⟩ := h₅ <;> cases h₅
    | gone _ _ _ h₅ => obtain h₅ | h₅ := h₅ <;> cases h₅
    | leaving h₁ =>
      exact .gone (hb.mpr h₁) (fun _ => he') (fun hc => absurd rfl (hk.calm hc)) (.inl rfl)

end Removals

end SrtWhep.Stream.Plane
