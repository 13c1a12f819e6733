import SrtWhep.Handshake.Legs

namespace SrtWhep.Handshake

open Library.Runs Library.Tables Moves Deliveries

/-- One incarnation of an id: `ls` ends with the creation that registered it,
`ms` are the steps since, and its entry has been in the map all along. -/
inductive Incarnation (config : CoordinatorConfig) (id : ConnectionId) (whep : OfferReply) :
    List (Event × List Effect) → List (Event × List Effect) → Coordinator → Prop
  | registered {ls c env os c'} : Run Coordinator.Step (.new config) ls c → id ∉ c.connections →
      c.Step (.command (.createConnection id whep) env, os) c' → id ∈ c'.connections →
      Incarnation config id whep (ls ++ [(.command (.createConnection id whep) env, os)]) [] c'
  | next {ls ms c l c'} : Incarnation config id whep ls ms c → c.Step l c' →
      id ∈ c'.connections → Incarnation config id whep ls (ms ++ [l]) c'

def acceptedIn (id : ConnectionId) (l : Event × List Effect) : Option SdpAnswer :=
  match l.1 with
  | .command (.answerReceived i sdp reply) _ =>
    if i = id ∧ (oks reply.channel l.2).any (·.1 = .unit) then some sdp else none
  | _ => none

def accepted (id : ConnectionId) (ms : List (Event × List Effect)) : List SdpAnswer :=
  ms.filterMap (acceptedIn id)

/-- Both SDPs went out in this order: the offer to the viewer, then the answer
to the whipsink that had sent that offer. -/
def Exchanged (id : ConnectionId) (whep : OfferReply) (ms : List (Event × List Effect))
    (o : SdpOffer) (a : SdpAnswer) : Prop :=
  ∃ ms₁ ms₂ whip, ms = ms₁ ++ ms₂ ∧ .offerReceived id o whip ∈ taken ms₁ ∧
    oks whep.channel (trace ms) = [(.offer o, true)] ∧
    oks whep.channel (trace ms₁) = [(.offer o, true)] ∧
    oks whip.channel (trace ms₁) = [] ∧ oks whip.channel (trace ms₂) = [(.answer a, true)]

inductive Stage (id : ConnectionId) (whep : OfferReply) (ms : List (Event × List Effect)) :
    ConnectionState → Prop
  | awaitingOffer {d} : oks whep.channel (trace ms) = [] →
      (∀ o whip, .offerReceived id o whip ∈ taken ms → oks whip.channel (trace ms) = []) →
      accepted id ms = [] → Stage id whep ms (.awaitingOffer whep d)
  | awaitingAnswer {o whip d} : .offerReceived id o whip ∈ taken ms →
      oks whep.channel (trace ms) = [(.offer o, true)] →
      (∀ o whip, .offerReceived id o whip ∈ taken ms → oks whip.channel (trace ms) = []) →
      accepted id ms = [] → Stage id whep ms (.awaitingAnswer whip d)
  | established {o a since} : Exchanged id whep ms o a → accepted id ms = [a] →
      Stage id whep ms (.established since)

section Stages

variable {id : ConnectionId} {whep : OfferReply} {ms : List (Event × List Effect)}
  {l : Event × List Effect} {state state' : ConnectionState}

theorem accepted_snoc : accepted id (ms ++ [l]) = accepted id ms ++ (acceptedIn id l).toList := by
  rw [accepted, List.filterMap_append]
  cases h : acceptedIn id l <;> simp [accepted, h]

structure Quiet (id : ConnectionId) (whep : OfferReply) (ms : List (Event × List Effect))
    (l : Event × List Effect) : Prop where
  viewer : oks whep.channel l.2 = []
  sinks : ∀ o whip, .offerReceived id o whip ∈ taken (ms ++ [l]) → oks whip.channel l.2 = []
  fresh : ∀ o whip, .offerReceived id o whip ∈ commands l.1 → oks whip.channel (trace ms) = []
  accepted : acceptedIn id l = none

theorem Quiet.sinks_nil (hq : Quiet id whep ms l)
    (h : ∀ o whip, .offerReceived id o whip ∈ taken ms → oks whip.channel (trace ms) = []) :
    ∀ o whip, .offerReceived id o whip ∈ taken (ms ++ [l]) →
      oks whip.channel (trace (ms ++ [l])) = [] := by
  intro o whip hm
  have hnew := hq.sinks o whip hm
  rw [taken_append, taken_single, List.mem_append] at hm
  obtain hm | hm := hm
  · simp [h o whip hm, hnew]
  · simp [hq.fresh o whip hm, hnew]

theorem Stage.keep (h : Stage id whep ms state) (hq : Quiet id whep ms l) :
    Stage id whep (ms ++ [l]) state := by
  have hacc : accepted id (ms ++ [l]) = accepted id ms := by simp [accepted_snoc, hq.accepted]
  cases h with
  | awaitingOffer ho hw ha =>
    exact .awaitingOffer (by simp [ho, hq.viewer]) (hq.sinks_nil hw) (hacc.trans ha)
  | @awaitingAnswer o whip d hm ho hw ha =>
    exact .awaitingAnswer (o := o) (by simp [hm]) (by simp [ho, hq.viewer]) (hq.sinks_nil hw)
      (hacc.trans ha)
  | @established o a since he ha =>
    obtain ⟨ms₁, ms₂, whip, rfl, hm, ho, ho₁, hw₁, hw₂⟩ := he
    have hw : oks whip.channel l.2 = [] := hq.sinks o whip (by simp [hm])
    have ho' : oks whep.channel (trace (ms₁ ++ ms₂ ++ [l])) = [(.offer o, true)] := by
      rw [trace_append, oks_append, ho, trace_single, hq.viewer, List.append_nil]
    exact .established ⟨ms₁, ms₂ ++ [l], whip, by simp, hm, ho', ho₁, hw₁, by simp [hw₂, hw]⟩
      (hacc.trans ha)

structure Distinct (id : ConnectionId) (whep : OfferReply) (ms : List (Event × List Effect))
    (cmd : Command) : Prop where
  viewer : cmd.channel ≠ whep.channel
  sinks : ∀ o whip, .offerReceived id o whip ∈ taken ms → cmd.channel ≠ whip.channel
  apart : ∀ o whip, .offerReceived id o whip ∈ taken ms → whip.channel ≠ whep.channel
  fresh : oks cmd.channel (trace ms) = []

theorem Stage.offer {env : Env} {o : SdpOffer} {whip : AnswerReply} {d d' : Instant}
    (h : Stage id whep ms (.awaitingOffer whep d))
    (hd : Distinct id whep ms (.offerReceived id o whip)) :
    Stage id whep (ms ++ [(.command (.offerReceived id o whip) env,
      [.send whep.channel (.ok (.offer o)) true])]) (.awaitingAnswer whip d') := by
  cases h with
  | awaitingOffer ho hw ha =>
    have hne : whep.channel ≠ whip.channel := Ne.symm hd.viewer
    refine .awaitingAnswer (o := o) (by simp [commands]) (by simp [ho]) ?_
      (by simp [accepted_snoc, ha, acceptedIn])
    intro o' whip' hm
    rw [taken_append, taken_single, List.mem_append] at hm
    obtain hm | hm := hm
    · have hap : whep.channel ≠ whip'.channel := Ne.symm (hd.apart o' whip' hm)
      simp [hw o' whip' hm, hap]
    · obtain ⟨-, -, rfl⟩ : True ∧ o' = o ∧ whip' = whip := by simpa [commands] using hm
      have hf : oks whip'.channel (trace ms) = [] := hd.fresh
      simp [hf, hne]

theorem Stage.answer {env : Env} {a : SdpAnswer} {reply : UnitReply} {whip : AnswerReply}
    {d since : Instant} {b : Bool} (h : Stage id whep ms (.awaitingAnswer whip d))
    (hd : Distinct id whep ms (.answerReceived id a reply)) :
    Stage id whep (ms ++ [(.command (.answerReceived id a reply) env,
      [.send whip.channel (.ok (.answer a)) true, .recordSuccess (some id),
        .send reply.channel (.ok .unit) b])]) (.established since) := by
  cases h with
  | @awaitingAnswer o whip d hm ho hw ha =>
    have hwhep : reply.channel ≠ whep.channel := hd.viewer
    have hwhip : reply.channel ≠ whip.channel := hd.sinks o whip hm
    have hap := hd.apart o whip hm
    refine .established (o := o) (a := a) ⟨ms, _, whip, rfl, hm, ?_, ho, hw o whip hm, ?_⟩ ?_
    · simp [ho, hwhep, hap]
    · simp [hwhip]
    · simp [accepted_snoc, ha, acceptedIn]

end Stages

section Incarnations

variable {config : CoordinatorConfig} {id : ConnectionId} {whep : OfferReply}
  {ls ms : List (Event × List Effect)} {c c' : Coordinator} {l : Event × List Effect}

theorem Incarnation.run (h : Incarnation config id whep ls ms c) :
    Run Coordinator.Step (.new config) (ls ++ ms) c := by
  induction h with
  | registered hr _ hs _ => simpa using hr.snoc hs
  | next _ hs _ ih =>
    rw [← List.append_assoc]
    exact ih.snoc hs

theorem Incarnation.created (h : Incarnation config id whep ls ms c) :
    .createConnection id whep ∈ taken ls := by
  induction h with
  | registered => simp [commands]
  | next _ _ _ ih => exact ih

theorem nodup_of_append {ls ms : List (Event × List Effect)}
    (h : ((taken (ls ++ ms)).map Command.channel).Nodup) :
    ((taken ls).map Command.channel).Nodup := by
  rw [taken_append, List.map_append] at h
  exact h.of_append_left

theorem channel_ne {cmds : List Command} (hn : (cmds.map Command.channel).Nodup)
    {cmd cmd' : Command} (hm : cmd ∈ cmds) (hm' : cmd' ∈ cmds) (hne : cmd ≠ cmd') :
    cmd.channel ≠ cmd'.channel :=
  fun he => hne (List.inj_on_of_nodup_map hn hm hm' he)

theorem Incarnation.distinct (h : Incarnation config id whep ls ms c) {cmd : Command}
    (hn : ((taken (ls ++ ms) ++ [cmd]).map Command.channel).Nodup) :
    Distinct id whep ms cmd := by
  have hc : .createConnection id whep ∈ taken (ls ++ ms) := by simp [h.created]
  have hold : ∀ cmd₀ ∈ taken (ls ++ ms), cmd.channel ≠ cmd₀.channel := by
    rw [List.map_append, List.nodup_append] at hn
    exact fun cmd₀ hm => Ne.symm (hn.2.2 _ (List.mem_map_of_mem hm) _ (by simp))
  have hin : ∀ o whip, .offerReceived id o whip ∈ taken ms →
      .offerReceived id o whip ∈ taken (ls ++ ms) := fun o whip hm => by simp [hm]
  refine ⟨hold _ hc, fun o whip hm => hold _ (hin o whip hm), fun o whip hm => ?_, ?_⟩
  · rw [List.map_append] at hn
    exact channel_ne hn.of_append_left (hin o whip hm) hc (by simp)
  · have hf := oks_fresh h.run hn
    rw [trace_append, oks_append] at hf
    exact (List.append_eq_nil_iff.mp hf).2

theorem Incarnation.quiet_of_silent (h : Incarnation config id whep ls ms c)
    (hn : ((taken (ls ++ ms ++ [l])).map Command.channel).Nodup)
    (hs : ∀ ch p b, .send ch (.ok p) b ∉ l.2) : Quiet id whep ms l := by
  have hnil : ∀ ch, oks ch l.2 = [] := fun ch => oks_eq_nil.mpr (hs ch)
  refine ⟨hnil _, fun o whip _ => hnil _, fun o whip hm => ?_, ?_⟩
  · obtain ⟨e, os⟩ := l
    cases e with
    | command cmd env =>
      obtain rfl : .offerReceived id o whip = cmd := by simpa [commands] using hm
      exact (h.distinct (by simpa [commands] using hn)).fresh
    | branchFailure => simp [commands] at hm
    | sweepTick => simp [commands] at hm
  · unfold acceptedIn
    split
    · simp [hnil]
    · rfl

theorem Incarnation.quiet_of_other (h : Incarnation config id whep ls ms c) {cmd : Command}
    {env : Env} {os : List Effect}
    (hn : ((taken (ls ++ ms) ++ [cmd]).map Command.channel).Nodup)
    (hm : Move c ([cmd], os) c') (hne : cmd.connection ≠ some id) :
    Quiet id whep ms (.command cmd env, os) := by
  have helse : ∀ cmd₀ ∈ taken (ls ++ ms), cmd₀.connection = some id →
      oks cmd₀.channel os = [] := by
    intro cmd₀ hm₀ hid
    rw [oks_eq_nil]
    intro p b ho
    exact delivers_elsewhere h.run hn hm₀ hid hne (move_delivers hm ho) rfl
  have hnew : ∀ o whip, .offerReceived id o whip ∉ [cmd] := by
    rintro o whip hmem
    obtain rfl := List.mem_singleton.mp hmem
    exact hne rfl
  refine ⟨helse (.createConnection id whep) (by simp [h.created]) rfl, fun o whip hmem => ?_,
    fun o whip hmem => ?_, ?_⟩
  · rw [taken_append, List.mem_append] at hmem
    obtain hmem | hmem := hmem
    · exact helse (.offerReceived id o whip) (by simp [hmem]) rfl
    · exact absurd (by simpa [commands] using hmem) (hnew o whip)
  · exact absurd hmem (hnew o whip)
  · cases cmd with
    | answerReceived i sdp reply =>
      have hi : i ≠ id := fun he => hne (congrArg some he)
      simp [acceptedIn, hi]
    | _ => rfl

theorem Incarnation.stage (h : Incarnation config id whep ls ms c)
    (hn : ((taken (ls ++ ms)).map Command.channel).Nodup) :
    ∃ state, c.connections.lookup id = some state ∧ Stage id whep ms state := by
  induction h with
  | @registered ls c env os c' hr habs hs hin =>
    obtain ⟨state, hl⟩ := Finmap.mem_iff.mp hin
    refine ⟨state, hl, ?_⟩
    obtain ⟨hnone, -⟩ | ⟨cmd, env', he, hm⟩ := step_entry hs hl
    · simp [commands] at hnone
    · cases he
      cases hm with
      | reject b hrej => exact absurd hin habs
      | register hl' hok hd =>
        rw [lookup_insert, if_pos rfl] at hl
        obtain rfl := Option.some.inj hl
        exact .awaitingOffer rfl (by simp [taken]) rfl
  | @next ls ms c l c' hinc hs hin ih =>
    rw [← List.append_assoc] at hn
    obtain ⟨state, hl, hst⟩ := ih (nodup_of_append hn)
    obtain ⟨state', hl'⟩ := Finmap.mem_iff.mp hin
    refine ⟨state', hl', ?_⟩
    obtain ⟨e, os⟩ := l
    obtain ⟨-, hl'', hsil⟩ | ⟨cmd, env, rfl, hm⟩ := step_entry hs hl'
    · obtain rfl := Option.some.inj (hl.symm.trans hl'')
      exact hst.keep (hinc.quiet_of_silent hn hsil)
    · have hn' : ((taken (ls ++ ms) ++ [cmd]).map Command.channel).Nodup := by
        simpa [commands] using hn
      cases move_leg hm hl hl' with
      | other hne => exact hst.keep (hinc.quiet_of_other hn' hm hne)
      | refused hsil => exact hst.keep (hinc.quiet_of_silent hn hsil)
      | @offer sdp whep' d whip d' hc ho =>
        subst hc ho
        obtain rfl : whep' = whep := by cases hst; rfl
        exact hst.offer (hinc.distinct hn')
      | answer hc ho =>
        subst hc ho
        exact hst.answer (hinc.distinct hn')

/-- Every entry of the map belongs to an incarnation. -/
theorem exists_incarnation (h : Run Coordinator.Step (.new config) ls c) :
    ∀ id ∈ c.connections, ∃ whep ls₀ ms, ls = ls₀ ++ ms ∧ Incarnation config id whep ls₀ ms c := by
  refine (h.history (P := fun ls c => Run Coordinator.Step (.new config) ls c ∧
    ∀ id ∈ c.connections, ∃ whep ls₀ ms, ls = ls₀ ++ ms ∧ Incarnation config id whep ls₀ ms c)
    ⟨.nil _, fun id hm => absurd hm Finmap.notMem_empty⟩ ?_).2
  rintro ls c c' ⟨e, os⟩ ⟨hr, hinc⟩ hs
  refine ⟨hr.snoc hs, fun id hm => ?_⟩
  by_cases hin : id ∈ c.connections
  · obtain ⟨whep, ls₀, ms, rfl, hi⟩ := hinc id hin
    exact ⟨whep, ls₀, ms ++ [(e, os)], by simp, hi.next hs hm⟩
  · obtain ⟨state, hl⟩ := Finmap.mem_iff.mp hm
    have hno : c.connections.lookup id = none := Finmap.lookup_eq_none.mpr hin
    obtain ⟨-, hl', -⟩ | ⟨cmd, env, rfl, hmv⟩ := step_entry hs hl
    · rw [hno] at hl'
      cases hl'
    · obtain ⟨reply, rfl⟩ := move_registers hmv hno hl
      exact ⟨reply, _, [], (List.append_nil _).symm, .registered hr hin hs hm⟩

end Incarnations

end SrtWhep.Handshake
