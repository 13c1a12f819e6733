import SrtWhep.Routes
import SrtWhep.Stream.Creation
import SrtWhep.Stream.Egress

namespace SrtWhep.Stream.Readiness

open Library.Runs Creation

/-- How far the check of `add_branch` has come: what it has found of the demux, of
its pads, and of the tees. -/
inductive Reading
  | nothing
  | demux
  | pads (hasVideo hasAudio : Bool)
  | videoTee (hasAudio videoReady : Bool)
deriving DecidableEq, Repr

/-- A call of `add_branch` whose check is not one step: the callbacks of the demux
do not wait for the lock of the pipeline's state. -/
structure State where
  call : Creation.State
  reading : Reading

inductive Input
  | read
  | other (i : Creation.Input)

def KeepsTees (g g' : Graph) : Prop :=
  ∀ m ∈ [Media.video, .audio], m.outputTee ∈ g.names → m.outputTee ∈ g'.names

instance (g g' : Graph) : Decidable (KeepsTees g g') :=
  inferInstanceAs (Decidable (∀ m ∈ [Media.video, .audio], _))

namespace State

def start (id : String) (decodeVideo : Bool) (graph : Graph) : State :=
  ⟨.start id decodeVideo graph, .nothing⟩

def goTo (s : State) (phase : Creation.Phase) : Option (State × List Change) :=
  some ({ s with call := { s.call with phase } }, [])

def sees (s : State) (reading : Reading) : Option (State × List Change) :=
  some ({ s with reading }, [])

/-- The next reading of `input_ready`, and what `add_branch` does when it is the last. -/
def read (s : State) : Option (State × List Change) :=
  let g := s.call.graph
  match s.reading with
  | .nothing =>
    match g.byName Stream.demux with
    | none =>
      s.goTo (.returned (some (.error (.fatal s!"Failed to find element: {Stream.demux}"))) none)
    | some _ => s.sees .demux
  | .demux =>
    let hasVideo := g.exposes .video
    let hasAudio := g.exposes .audio
    if !hasVideo && !hasAudio then s.goTo (.returned (some (.error .notReady)) none)
    else s.sees (.pads hasVideo hasAudio)
  | .pads hasVideo hasAudio =>
    s.sees (.videoTee hasAudio (!hasVideo || (g.byName outputTeeVideo).isSome))
  | .videoTee hasAudio videoReady =>
    let audioReady := !hasAudio || (g.byName outputTeeAudio).isSome
    if videoReady && audioReady then s.goTo (.attaching s.call.branch.attach)
    else s.goTo (.returned (some (.error .notReady)) none)

def lift (s : State) (i : Creation.Input) : Option (State × List Change) :=
  (s.call.next i).map fun r => ({ s with call := r.1 }, r.2)

def next (s : State) : Input → Option (State × List Change)
  | .read =>
    match s.call.phase with
    | .checking => s.read
    | _ => none
  | .other .check => none
  | .other (.elsewhere graph) =>
    if KeepsTees s.call.graph graph then s.lift (.elsewhere graph) else none
  | .other i => s.lift i

def Step (s : State) (l : Input × List Change) (t : State) : Prop := s.next l.1 = some (t, l.2)

def Built (s : State) (m : Media) : Prop := m.outputTee ∈ s.call.graph.names

inductive Takes (s : State) : Input → List Change → State → Prop
  | lacking {message} : s.call.phase = .checking → s.reading = .nothing → Takes s .read []
      { s with call := { s.call with phase := .returned (some (.error (.fatal message))) none } }
  | found : s.call.phase = .checking → s.reading = .nothing →
      Takes s .read [] { s with reading := .demux }
  | pads {hasVideo hasAudio} : s.call.phase = .checking → s.reading = .demux →
      Takes s .read [] { s with reading := .pads hasVideo hasAudio }
  | videoTee {hasVideo hasAudio videoReady} : s.call.phase = .checking →
      s.reading = .pads hasVideo hasAudio →
      (videoReady = true → hasVideo = true → s.Built .video) →
      Takes s .read [] { s with reading := .videoTee hasAudio videoReady }
  | passed {hasAudio} : s.call.phase = .checking → s.reading = .videoTee hasAudio true →
      (hasAudio = true → s.Built .audio) →
      Takes s .read [] { s with call := { s.call with phase := .attaching s.call.branch.attach } }
  | unready : s.call.phase = .checking → Takes s .read []
      { s with call := { s.call with phase := .returned (some (.error .notReady)) none } }
  | other {i cs c} : i ≠ .check → (∀ graph, i = .elsewhere graph → KeepsTees s.call.graph graph) →
      s.call.Step (i, cs) c → Takes s (.other i) cs { s with call := c }

variable {s t : State} {i : Input} {cs : List Change}

theorem lift_eq {i : Creation.Input} (h : s.lift i = some (t, cs)) :
    ∃ c, s.call.Step (i, cs) c ∧ t = { s with call := c } := by
  obtain ⟨⟨c, cs'⟩, hc, he⟩ := Option.map_eq_some_iff.mp h
  cases he
  exact ⟨c, hc, rfl⟩

theorem read_takes (hp : s.call.phase = .checking) (h : s.read = some (t, cs)) :
    s.Takes .read cs t := by
  obtain ⟨call, reading⟩ := s
  cases reading with
  | nothing =>
    simp only [read] at h
    split at h
    · cases h
      exact .lacking hp rfl
    · cases h
      exact .found hp rfl
  | demux =>
    simp only [read] at h
    split at h
    · cases h
      exact .unready hp
    · cases h
      exact .pads hp rfl
  | pads hasVideo hasAudio =>
    cases h
    refine .videoTee hp rfl fun hr hv => ?_
    simpa [hv, Graph.byName_isSome, Built, Media.outputTee] using hr
  | videoTee hasAudio videoReady =>
    simp only [read] at h
    split at h
    next hr =>
      cases h
      obtain ⟨rfl, ha⟩ := (Bool.and_eq_true ..).mp hr
      refine .passed hp rfl fun hh => ?_
      simpa [hh, Graph.byName_isSome, Built, Media.outputTee] using ha
    next =>
      cases h
      exact .unready hp

theorem Step.takes (h : s.Step (i, cs) t) : s.Takes i cs t := by
  cases i with
  | read =>
    simp only [Step, next] at h
    split at h
    next hp => exact read_takes hp h
    next => cases h
  | other i =>
    cases i with
    | check => cases h
    | elsewhere graph =>
      simp only [Step, next] at h
      split at h
      next hk =>
        obtain ⟨c, hc, rfl⟩ := lift_eq h
        refine .other (by simp) (fun g' he => ?_) hc
        cases he
        exact hk
      next => cases h
    | _ =>
      obtain ⟨c, hc, rfl⟩ := lift_eq h
      exact .other (by simp) (by simp) hc

theorem step_unique (s : State) (l : Input × List Change) (t u : State) (h : s.Step l t)
    (g : s.Step l u) : t = u := by
  have he := Option.some.inj (h.symm.trans g)
  exact (Prod.mk.inj he).1

end State

/-- The readings of a check that nothing happens between come to `input_ready`. -/
theorem check_reads {s : State} {c : Creation.State} {cs : List Change} (hn : s.reading = .nothing)
    (h : s.call.Step (.check, cs) c) :
    ∃ ls t, Run State.Step s ls t ∧ (∀ l ∈ ls, l.1 = .read) ∧ t.call = c := by
  obtain ⟨⟨branch, decodeVideo, g, phase⟩, reading⟩ := s
  cases hn
  cases phase with
  | checking =>
    have hread : ∀ (reading : Reading) {t : State},
        State.read ⟨⟨branch, decodeVideo, g, .checking⟩, reading⟩ = some (t, []) →
        State.Step ⟨⟨branch, decodeVideo, g, .checking⟩, reading⟩ (.read, []) t := fun _ _ h => h
    simp only [Creation.State.Step, Creation.State.next, Graph.inputReady] at h
    cases hd : g.byName Stream.demux with
    | none =>
      simp only [hd] at h
      cases h
      exact ⟨_, _, .single (hread _ (by simp only [State.read, hd]; rfl)), by simp, rfl⟩
    | some d =>
      have hfound : State.Step ⟨⟨branch, decodeVideo, g, .checking⟩, .nothing⟩ (.read, [])
          ⟨⟨branch, decodeVideo, g, .checking⟩, .demux⟩ :=
        hread _ (by simp only [State.read, hd]; rfl)
      simp only [hd] at h
      by_cases hm : (!g.exposes .video && !g.exposes .audio) = true
      · simp only [hm, if_true] at h
        cases h
        exact ⟨_, _, .cons hfound (.single (hread _ (by simp only [State.read, hm]; rfl))),
          by simp, rfl⟩
      · simp only [hm] at h
        have hpads := hread .demux (by simp only [State.read, hm]; rfl)
        have htee := hread (.pads (g.exposes .video) (g.exposes .audio)) rfl
        have hrun := Run.cons hfound (.cons hpads (.single htee))
        by_cases hr : ((!g.exposes .video || (g.byName outputTeeVideo).isSome) &&
            (!g.exposes .audio || (g.byName outputTeeAudio).isSome)) = true
        · simp only [hr] at h
          cases h
          exact ⟨_, _, hrun.snoc (hread _ (by simp only [State.read, hr]; rfl)), by simp, rfl⟩
        · simp only [hr] at h
          cases h
          exact ⟨_, _, hrun.snoc (hread _ (by simp only [State.read, hr]; rfl)), by simp, rfl⟩
  | _ => simp [Creation.State.Step, Creation.State.next] at h

def Reading.asks : Reading → Media → Prop
  | .pads hasVideo _, .video => hasVideo = true
  | .videoTee hasAudio _, .audio => hasAudio = true
  | _, _ => False

def Checks (m : Media) (s : State) (l : Input × List Change) : Prop :=
  l.1 = .read ∧ s.call.phase = .checking ∧ s.reading.asks m

def At (op : AttachOp) (s : State) (l : Input × List Change) : Prop :=
  l.1 = .other (.attach (.ok ())) ∧ ∃ ops, s.call.phase = .attaching (op :: ops)

def Scans (m : Media) (s : State) (l : Input × List Change) : Prop :=
  At (.scan m) s l ∧ s.call.graph.exposes m = true

def Misses (m : Media) (s : State) (l : Input × List Change) : Prop :=
  At (.find m.outputTee) s l ∧ ¬ s.Built m

namespace State

def queueName (s : State) : Media → String
  | .video => s.call.branch.videoQueueName
  | .audio => s.call.branch.audioQueueName

def Linked (s : State) (m : Media) : Prop :=
  (m.outputTee, s.queueName m) ∈ s.call.graph.links ∨
    ⟨m.outputTee, s.queueName m, true⟩ ∈ s.call.graph.teePads

end State

section Lookups

def Found (ops : List AttachOp) : Prop := ∀ m : Media, .find m.outputTee ∉ ops

/-- A tee is only looked for right after the scan, and was there at the scan. -/
def Secure (s : State) : Prop :=
  ∀ ops, s.call.phase = .attaching ops →
    Found ops ∨ ∃ m rest, ops = .find m.outputTee :: rest ∧ Found rest ∧ s.Built m

variable {b : Branch} {decodeVideo : Bool} {m : Media} {s t : State} {l : Input × List Change}

theorem attach_found : Found b.attach := by
  intro m
  cases m <;> simp [Branch.attach, Media.outputTee, demux, outputTeeVideo, outputTeeAudio]

theorem attachMedia_found :
    ∃ rest, b.attachMedia decodeVideo m = .find m.outputTee :: rest ∧ Found rest := by
  cases m with
  | video =>
    refine ⟨_, rfl, fun m => ?_⟩
    cases decodeVideo <;> simp [Branch.linkMany]
  | audio => exact ⟨_, rfl, fun m => by simp [Branch.linkMany]⟩

theorem run_ops {g g' : Graph} {op : AttachOp} {ops ops' : List AttachOp} {cs : List Change}
    {verdict : Except String Unit}
    (h : op.run b decodeVideo g ops verdict = some (.ok (g', cs, ops'))) :
    ops' = ops ∧ (∀ m, op = .scan m → g.exposes m = false) ∨
      ∃ m, op = .scan m ∧ verdict = .ok () ∧ g.exposes m = true ∧ g' = g ∧
        ops' = b.attachMedia decodeVideo m ++ ops := by
  have hd := AttachOp.run_done h
  cases op with
  | scan m =>
    obtain ⟨rfl, -, rfl⟩ := hd
    cases verdict with
    | error => cases h
    | ok =>
      cases he : g'.exposes m with
      | false => exact .inl ⟨by simp, by simpa using he⟩
      | true => exact .inr ⟨m, rfl, rfl, he, rfl, by simp⟩
  | _ => exact .inl ⟨hd.2.2, by simp⟩

theorem attach_step {c c' : Creation.State} {cs : List Change} {verdict : Except String Unit}
    (h : c.Step (.attach verdict, cs) c') : ∃ op ops, c.phase = .attaching (op :: ops) ∧
      ((∃ message, c' = { c with phase := .detaching message c.branch.detach }) ∨
        ∃ graph ops', c' = { c with graph, phase := .attaching ops' } ∧
          op.run c.branch c.decodeVideo c.graph ops verdict = some (.ok (graph, cs, ops'))) := by
  obtain ⟨branch, decodeVideo, graph, phase⟩ := c
  cases phase with
  | attaching ops =>
    cases ops with
    | nil => cases h
    | cons op ops =>
      simp only [Creation.State.Step, Creation.State.next, Option.bind_eq_bind,
        Option.bind_eq_some_iff] at h
      obtain ⟨outcome, hr, h⟩ := h
      refine ⟨op, ops, rfl, ?_⟩
      cases outcome with
      | error message =>
        cases h
        exact .inl ⟨message, rfl⟩
      | ok r =>
        cases h
        exact .inr ⟨_, _, rfl, hr⟩
  | _ => cases h

theorem step_secure (hs : s.Step l t) (hq : ∀ m, Scans m s l → s.Built m) (h : Secure s) :
    Secure t := by
  obtain ⟨i, cs⟩ := l
  intro ops ht
  cases State.Step.takes hs with
  | lacking | unready => cases ht
  | found hp | pads hp | videoTee hp => cases hp.symm.trans ht
  | passed =>
    cases ht
    exact .inl attach_found
  | @other i _ c hne hk hc =>
    cases i with
    | attach verdict =>
      obtain ⟨op, ops₀, hp, ⟨message, rfl⟩ | ⟨graph, ops', rfl, hr⟩⟩ := attach_step hc
      · cases ht
      obtain rfl : ops' = ops := Creation.Phase.attaching.inj ht
      obtain ⟨rfl, -⟩ | ⟨m, rfl, rfl, he, rfl, rfl⟩ := run_ops hr
      · left
        intro m hm
        obtain hf | ⟨m', rest, hf, hrest, -⟩ := h _ hp
        · exact hf m (List.mem_cons_of_mem _ hm)
        · cases hf
          exact hrest m hm
      · right
        obtain ⟨rest, hrest, hf⟩ := @attachMedia_found s.call.branch s.call.decodeVideo m
        have hb : s.Built m := hq m ⟨⟨rfl, ops₀, hp⟩, he⟩
        refine ⟨m, rest ++ ops₀, by rw [hrest]; rfl, fun m' hm' => ?_, hb⟩
        obtain hm' | hm' := List.mem_append.mp hm'
        · exact hf m' hm'
        · obtain hf | ⟨_, _, hf, -⟩ := h _ hp
          · exact hf m' (List.mem_cons_of_mem _ hm')
          · cases hf
    | elsewhere graph =>
      have hkeep := hk graph rfl
      cases hc.takes with
      | elsewhere =>
        obtain hf | ⟨m, rest, hops, hrest, hb⟩ := h ops ht
        · exact .inl hf
        · have hm : m ∈ [Media.video, .audio] := by cases m <;> decide
          exact .inr ⟨m, rest, hops, hrest, hkeep m hm hb⟩
      | refused _ hn => exact absurd rfl (hn graph)
    | check => exact absurd rfl hne
    | _ =>
      cases hc.takes with
      | _ => cases ht

/-- Where every kind that a scan finds a pad of has its tee, every lookup finds it. -/
theorem never_misses {s₀ : State} {ls : List (Input × List Change)} (h₀ : Secure s₀)
    (hq : Each State.Step (fun s l => ∀ m, Scans m s l → s.Built m) s₀ ls) :
    Each State.Step (fun s l => ∀ m, ¬ Misses m s l) s₀ ls := by
  have halways := hq.always h₀ fun hj hq hs => step_secure hs hq hj
  rintro ls₁ l ls₂ s he hr m ⟨⟨-, ops, hp⟩, hn⟩
  obtain hf | ⟨m', rest, hops, -, hb⟩ := halways ls₁ (l :: ls₂) s he hr _ hp
  · exact hf m (List.mem_cons_self ..)
  · obtain ⟨hm, -⟩ := List.cons.inj hops
    rw [State.Built, AttachOp.find.inj hm] at hn
    exact hn hb

end Lookups

section Refusals

variable {s s₀ t : State} {l : Input × List Change} {ls : List (Input × List Change)}

/-- Every kind that is looked for or scanned with success has its tee then. -/
def Linkable (s : State) (l : Input × List Change) : Prop :=
  ∀ m, Checks m s l ∨ Scans m s l → s.Built m

def Refused (s : State) : Prop :=
  (s.call.phase = .checking ∧ ∃ hasAudio, s.reading = .videoTee hasAudio false) ∨
    s.call.phase = .returned (some (.error .notReady)) none

theorem checking_step {c c' : Creation.State} {i : Creation.Input} {cs : List Change}
    (hp : c.phase = .checking) (hn : i ≠ .check) (h : c.Step (i, cs) c') :
    ∃ graph, i = .elsewhere graph ∧ c' = { c with graph } := by
  obtain ⟨branch, decodeVideo, graph, phase⟩ := c
  cases hp
  cases i with
  | check => exact absurd rfl hn
  | elsewhere graph =>
    cases h.takes with
    | refused _ hn => exact absurd rfl (hn graph)
    | elsewhere => exact ⟨graph, rfl, rfl⟩
  | _ => cases h

theorem refused_step (hs : s.Step l t) (h : Refused s) : Refused t := by
  obtain ⟨i, cs⟩ := l
  cases State.Step.takes hs with
  | lacking hp hr | found hp hr | pads hp hr | videoTee hp hr | passed hp hr =>
    obtain ⟨-, a, ha⟩ | h := h
    · cases hr.symm.trans ha
    · cases hp.symm.trans h
  | unready => exact .inr rfl
  | other hne _ hc =>
    obtain ⟨hp, a, ha⟩ | hp := h
    · obtain ⟨graph, -, rfl⟩ := checking_step hp hne hc
      exact .inl ⟨hp, a, ha⟩
    · cases hc.takes with
      | refused h =>
        obtain h | h := h
        · cases hp.symm.trans h
        · cases hp.symm.trans h
      | elsewhere => exact .inr hp
      | _ h => cases hp.symm.trans h

theorem misread_refused {m : Media} (hs : s.Step l t) (hc : Checks m s l) (hb : ¬ s.Built m) :
    Refused t := by
  obtain ⟨i, cs⟩ := l
  obtain ⟨rfl, hp, ha⟩ := hc
  cases State.Step.takes hs with
  | lacking _ hr | found _ hr | pads _ hr =>
    rw [hr] at ha
    cases m <;> exact absurd ha not_false
  | @videoTee hasVideo hasAudio videoReady _ hr hv =>
    rw [hr] at ha
    cases m with
    | video =>
      cases videoReady with
      | false => exact .inl ⟨hp, hasAudio, rfl⟩
      | true => exact absurd (hv rfl ha) hb
    | audio => exact absurd ha not_false
  | passed _ hr hv =>
    rw [hr] at ha
    cases m with
    | video => exact absurd ha not_false
    | audio => exact absurd (hv ha) hb
  | unready => exact .inr rfl

/-- Where no scan finds a pad without its tee, a check that does refuses the viewer. -/
theorem linkable_or_refused (h : Run State.Step s₀ ls t)
    (hq : Each State.Step (fun s l => ∀ m, Scans m s l → s.Built m) s₀ ls) :
    Each State.Step Linkable s₀ ls ∨ Refused t := by
  refine (h.history (P := fun ls u => Run State.Step s₀ ls u ∧
    (Each State.Step (fun s l => ∀ m, Scans m s l → s.Built m) s₀ ls →
      Each State.Step Linkable s₀ ls ∨ Refused u)) ?_ ?_).2 hq
  · exact ⟨.nil s₀, fun _ => .inl fun ls₁ l ls₂ u he => by simp at he⟩
  · rintro ls u v l ⟨hr, ih⟩ hs
    refine ⟨hr.snoc hs, fun hq => ?_⟩
    obtain ⟨hq, hlast⟩ := (hr.each_snoc State.step_unique).mp hq
    obtain he | hu := ih hq
    · by_cases hl : Linkable u l
      · exact .inl ((hr.each_snoc State.step_unique).mpr ⟨he, hl⟩)
      · obtain ⟨m, hm, hb⟩ : ∃ m, (Checks m u l ∨ Scans m u l) ∧ ¬ u.Built m := by
          simpa [Linkable] using hl
        obtain hc | hsc := hm
        · exact .inr (misread_refused hs hc hb)
        · exact absurd (hlast m hsc) hb
    · exact .inr (refused_step hs hu)

end Refusals

section Links

variable {s s₀ t : State} {m : Media} {l : Input × List Change} {ls : List (Input × List Change)}

def Due (m : Media) (s : State) : Prop :=
  match s.call.phase with
  | .locking | .checking => False
  | .attaching ops => .link m.outputTee (s.queueName m) ∈ ops ∨ s.Linked m
  | .detaching _ _ => True
  | .returned (some (.ok ())) pending => pending = none ∧ s.Linked m
  | .returned _ _ => True

theorem owns_queueName : Owns s.call.branch.id (s.queueName m) := by
  cases m with
  | video => exact Branch.owns_names.2.1
  | audio => exact Branch.owns_names.2.2.1

theorem linked_iff_own : s.Linked m ↔
    (m.outputTee, s.queueName m) ∈ (s.call.graph.own s.call.branch.id).links ∨
      ⟨m.outputTee, s.queueName m, true⟩ ∈ (s.call.graph.own s.call.branch.id).teePads := by
  simp [State.Linked, Graph.own, owns_queueName]

theorem attachMedia_links {b : Branch} {decodeVideo : Bool} :
    .link outputTeeVideo b.videoQueueName ∈ b.attachMedia decodeVideo .video ∧
      .link outputTeeAudio b.audioQueueName ∈ b.attachMedia decodeVideo .audio := by
  cases decodeVideo <;> simp [Branch.attachMedia, Branch.linkMany]

theorem run_keeps {b : Branch} {decodeVideo : Bool} {g g' : Graph} {op : AttachOp}
    {ops ops' : List AttachOp} {cs : List Change} {verdict : Except String Unit}
    (h : op.run b decodeVideo g ops verdict = some (.ok (g', cs, ops'))) :
    g.links ⊆ g'.links ∧ g.teePads ⊆ g'.teePads ∧ ∀ source sink, op = .link source sink →
      (source, sink) ∈ g'.links ∨ ⟨source, sink, true⟩ ∈ g'.teePads := by
  have hd := AttachOp.run_done h
  cases op with
  | link source sink =>
    obtain ⟨-, -, -, -, ⟨-, -, hli, hpa⟩ | ⟨hli, hpa⟩⟩ := Graph.link_cases hd.1
    · refine ⟨by simp [hli], by simp [hpa], fun source sink he => .inr ?_⟩
      cases he
      simp [hpa]
    · refine ⟨by simp [hli], by simp [hpa], fun source sink he => .inl ?_⟩
      cases he
      simp [hli]
  | add e =>
    obtain ⟨-, -, hli, hpa, -⟩ := Graph.add_eq hd.1
    exact ⟨by simp [hli], by simp [hpa], by simp⟩
  | find | make | scan | sync =>
    obtain rfl : g' = g := hd.1
    exact ⟨List.Subset.refl _, List.Subset.refl _, by simp⟩

theorem due_step (hs : s.Step l t) (h : Due m s) : Due m t := by
  obtain ⟨i, cs⟩ := l
  cases State.Step.takes hs with
  | lacking hp | found hp | pads hp | videoTee hp | passed hp | unready hp =>
    simp [Due, hp] at h
  | @other i _ c hne _ hc =>
    cases i with
    | check => exact absurd rfl hne
    | attach verdict =>
      obtain ⟨op, ops, hp, ⟨message, rfl⟩ | ⟨graph, ops', rfl, hr⟩⟩ := attach_step hc
      · trivial
      · obtain ⟨hlinks, hpads, hnew⟩ := run_keeps hr
        have hsub : ops ⊆ ops' := by
          obtain ⟨rfl, -⟩ | ⟨m, -, -, -, -, rfl⟩ := run_ops hr
          · exact List.Subset.refl _
          · exact List.subset_append_right _ _
        simp only [Due, hp] at h
        obtain hin | hl := h
        · obtain rfl | hin := List.mem_cons.mp hin
          · exact .inr (hnew _ _ rfl)
          · exact .inl (hsub hin)
        · exact .inr (hl.imp (@hlinks _) (@hpads _))
    | elsewhere graph =>
      cases hc.takes with
      | refused _ hn => exact absurd rfl (hn graph)
      | elsewhere he =>
        have hl : State.Linked { s with call := { s.call with graph } } m ↔ s.Linked m := by
          rw [linked_iff_own, linked_iff_own]
          simp only [he]
          rfl
        unfold Due at h ⊢
        rw [hl]
        exact h
    | late verdict =>
      cases hc.takes with
      | refused hp => obtain hp | hp := hp <;> simp [Due, hp] at h
      | @late result op _ _ _ _ hp =>
        simp only [Due, hp] at h
        cases result with
        | none => trivial
        | some result =>
          cases result with
          | error => trivial
          | ok => cases h.1
    | finish =>
      cases hc.takes with
      | refused hp => obtain hp | hp := hp <;> simp [Due, hp] at h
      | complete hp =>
        simp only [Due, hp] at h
        obtain h | h := h
        · cases h
        · exact ⟨rfl, h⟩
      | cleaned => trivial
    | lock outcome =>
      cases hc.takes with
      | refused hp => obtain hp | hp := hp <;> simp [Due, hp] at h
      | locked hp => simp [Due, hp] at h
    | detach | timeout =>
      cases hc.takes with
      | refused hp => obtain hp | hp := hp <;> simp [Due, hp] at h
      | _ => trivial

theorem scans_due (hs : s.Step l t) (h : Scans m s l) : Due m t := by
  obtain ⟨i, cs⟩ := l
  obtain ⟨⟨rfl, ops, hp⟩, he⟩ := h
  cases State.Step.takes hs with
  | @other _ _ c _ _ hc =>
    obtain ⟨op, ops', hp', ⟨message, rfl⟩ | ⟨graph, ops'', rfl, hr⟩⟩ := attach_step hc
    · trivial
    · cases hp.symm.trans hp'
      obtain ⟨-, hn⟩ | ⟨m', hm, -, -, -, rfl⟩ := run_ops hr
      · exact absurd (he.symm.trans (hn m rfl)) (by simp)
      · cases hm
        have hlinks := @attachMedia_links s.call.branch s.call.decodeVideo
        left
        refine List.mem_append_left _ ?_
        cases m with
        | video => exact hlinks.1
        | audio => exact hlinks.2

theorem linked_or_unscanned (h : Run State.Step s₀ ls t) :
    Each State.Step (fun s l => ¬ Scans m s l) s₀ ls ∨ Due m t := by
  refine (h.history (P := fun ls u => Run State.Step s₀ ls u ∧
    (Each State.Step (fun s l => ¬ Scans m s l) s₀ ls ∨ Due m u)) ?_ ?_).2
  · exact ⟨.nil s₀, .inl fun ls₁ l ls₂ u he => by simp at he⟩
  · rintro ls u v l ⟨hr, ih⟩ hs
    refine ⟨hr.snoc hs, ?_⟩
    obtain he | hd := ih
    · by_cases hl : Scans m u l
      · exact .inr (scans_due hs hl)
      · exact .inl ((hr.each_snoc State.step_unique).mpr ⟨he, hl⟩)
    · exact .inr (due_step hs hd)

end Links

section Results

variable {s s₀ t : State} {l : Input × List Change} {ls : List (Input × List Change)}

def Admitted (s : State) : Prop :=
  match s.call.phase with
  | .locking | .checking => False
  | .attaching _ | .detaching _ _ => True
  | .returned result _ => result ≠ some (.error .notReady)

theorem admitted_step (hs : s.Step l t) (h : Admitted s) : Admitted t := by
  obtain ⟨i, cs⟩ := l
  cases State.Step.takes hs with
  | lacking hp | found hp | pads hp | videoTee hp | passed hp | unready hp =>
    simp [Admitted, hp] at h
  | other hne _ hc =>
    cases hc.takes with
    | locked hp | checked hp => simp [Admitted, hp] at h
    | refused hp => obtain hp | hp := hp <;> simp [Admitted, hp] at h
    | attached | broken | detached => trivial
    | complete | stuck | cleaned | waited | cut => simp [Admitted]
    | late hp =>
      simp only [Admitted, hp] at h
      exact h
    | elsewhere => exact h

theorem admitted_result {result : Except PipelineError Unit} {pending : Option DetachOp}
    (h : Run State.Step s ls t) (hs : Admitted s)
    (hr : t.call.phase = .returned (some result) pending) : result ≠ .error .notReady := by
  have ht := h.invariant hs fun hu hs => admitted_step hs hu
  simp only [Admitted, hr] at ht
  exact fun he => ht (congrArg some he)

/-- A run of `add_branch` beside the callbacks of the demux and whatever others do never
fails for want of a tee, returns that the input is not ready when the check or the scan
has a pad without its tee, and links every kind that it scanned when it succeeds, just
when no scan finds a pad whose tee is not built yet. -/
theorem retryable_iff {id : String} {decodeVideo : Bool} {g : Graph}
    {result : Except PipelineError Unit} {pending : Option DetachOp}
    (h : Run State.Step (.start id decodeVideo g) ls t)
    (hr : t.call.phase = .returned (some result) pending) :
    (Each State.Step (fun s l => ∀ m, ¬ Misses m s l) (.start id decodeVideo g) ls ∧
      (Each State.Step Linkable (.start id decodeVideo g) ls ∨ result = .error .notReady) ∧
      (result = .ok () → ∀ m,
        Each State.Step (fun s l => ¬ Scans m s l) (.start id decodeVideo g) ls ∨ t.Linked m)) ↔
      Each State.Step (fun s l => ∀ m, Scans m s l → s.Built m) (.start id decodeVideo g) ls := by
  constructor
  · rintro ⟨-, hl | rfl, -⟩ ls₁ l ls₂ u he hu m hm
    · exact hl ls₁ l ls₂ u he hu m (.inr hm)
    · -- A call whose scan has begun does not return this error.
      rw [he] at h
      obtain ⟨u', hu', hv⟩ := run_append.mp h
      obtain rfl := hu'.unique State.step_unique hu
      obtain ⟨⟨-, ops, hp⟩, -⟩ := hm
      have ha : Admitted u' := by simp [Admitted, hp]
      exact absurd rfl (admitted_result hv ha hr)
  · intro hq
    refine ⟨never_misses (fun ops hp => by cases hp) hq, ?_, ?_⟩
    · obtain hl | ⟨hp, -⟩ | hp := linkable_or_refused h hq
      · exact .inl hl
      · cases hp.symm.trans hr
      · cases hp.symm.trans hr
        exact .inr rfl
    · rintro rfl m
      obtain hn | hd := @linked_or_unscanned _ _ m _ h
      · exact .inl hn
      · simp only [Due, hr] at hd
        exact .inr hd.2

end Results

def scansBuilt (s : State) (i : Input) : Bool :=
  match i, s.call.phase with
  | .other (.attach (.ok ())), .attaching (.scan m :: _) =>
    !s.call.graph.exposes m || (s.call.graph.byName m.outputTee).isSome
  | _, _ => true

theorem scansBuilt_built {s : State} {i : Input} {cs : List Change} (h : scansBuilt s i = true) :
    ∀ m, Scans m s (i, cs) → s.Built m := by
  rintro m ⟨⟨rfl, ops, hp⟩, he⟩
  simpa [scansBuilt, hp, he, Graph.byName_isSome, State.Built] using h

set_option maxRecDepth 4000 in
theorem retryable_iff_video : ∃ ls t, Run State.Step (.start "a" false received) ls t ∧
    t.call.phase = .returned (some (.ok ())) none ∧
    Each State.Step (fun s l => ∀ m, ¬ Misses m s l) (.start "a" false received) ls ∧
    (Each State.Step (fun s l => ¬ Scans .video s l) (.start "a" false received) ls ∨
      t.Linked .video) := by
  let inputs : List Input := [.other (.lock .pipeline), .read, .read, .read, .read] ++
    List.replicate 14 (.other (.attach (.ok ()))) ++ [.other .finish]
  obtain ⟨ls, t, h, hin, hp⟩ := replayed State.next State.Step (fun _ _ _ _ h => h)
    (.start "a" false received) inputs (.returned (some (.ok ())) none)
    (fun r => r.1.call.phase) (by decide)
  have hq : Each State.Step (fun s l => ∀ m, Scans m s l → s.Built m) (.start "a" false received)
      ls := by
    refine each_of_checks (fun _ _ _ _ h => h) (fun _ _ _ h => scansBuilt_built h) ?_
    rw [hin]
    decide
  obtain ⟨hmiss, -, hlinked⟩ := (retryable_iff h hp).mpr hq
  exact ⟨ls, t, h, hp, hmiss, hlinked rfl .video⟩

def latePad : List Input :=
  [.other (.lock .pipeline), .read, .read, .read, .read,
    .other (.elsewhere { received with demuxPads := ["sink", "video_0", "audio_0"] })] ++
    List.replicate 13 (.other (.attach (.ok ()))) ++
    List.replicate 7 (.other (.detach (.ok ()))) ++ [.other .finish]

set_option maxRecDepth 4000 in
/-- The viewer is refused for good, with every call of GStreamer's succeeding. -/
theorem late_pad_fatal : ∃ ls t, Run State.Step (.start "a" false received) ls t ∧
    ls.map Prod.fst = latePad ∧ t.call.phase = .returned
      (some (.error (.fatal "Failed to find element: output_tee_audio"))) none ∧
    (SignalError.ofPipelineError
      (.fatal "Failed to find element: output_tee_audio")).httpContract =
        (.internalServerError, none) := by
  obtain ⟨ls, t, h, hin, hp⟩ := replayed State.next State.Step (fun _ _ _ _ h => h)
    (.start "a" false received) latePad
    (.returned (some (.error (.fatal "Failed to find element: output_tee_audio"))) none)
    (fun r => r.1.call.phase) (by decide)
  exact ⟨ls, t, h, hin, hp, rfl⟩

end SrtWhep.Stream.Readiness
