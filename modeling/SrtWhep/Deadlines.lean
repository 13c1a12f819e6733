import SrtWhep.Panics
import SrtWhep.Sweeps
import SrtWhep.WireContract

namespace SrtWhep.Deadlines

open Library.Runs Library.Tables Moves Waiters Sweeps WireContract

/-- A turn that may park the reply of the command it takes, and how long the
reply may stay parked: a viewer's from the return of its `add_branch`, a
whipsink's from the turn that takes its offer. -/
inductive Parks (config : CoordinatorConfig) : Event → Command → Instant → Prop
  | offer {id reply env} : (env.branch id).succeeded = true →
      Parks config (.command (.createConnection id reply) env) (.createConnection id reply)
        ((env.branch id).returned + config.offerTimeout)
  | answer {id sdp reply env} :
      Parks config (.command (.offerReceived id sdp reply) env) (.offerReceived id sdp reply)
        (env.now + config.answerTimeout)

section Turns

variable {c c' : Coordinator} {env : Env} {e : Event} {os : List Effect} {id : ConnectionId}
  {cmd : Command} {state : ConnectionState} {deadline : Instant}

theorem createConnection_deadline {reply : OfferReply}
    (h : c.createConnection id reply env = some (c', os))
    (hn : c.connections.lookup id = none) (hl : c'.connections.lookup id = some state) :
    (env.branch id).succeeded = true ∧
      state = .awaitingOffer reply ((env.branch id).returned + c.config.offerTimeout) := by
  have hk : c.containsKey id = false := by rw [Coordinator.containsKey, hn]; rfl
  simp only [Coordinator.createConnection, hk, Bool.false_eq_true, if_false] at h
  rcases hr : (env.branch id).result with _ | err | u
  · simp only [hr, Option.some.injEq, Prod.mk.injEq] at h
    rw [← h.1, hn] at hl
    cases hl
  · simp only [hr, Option.some.injEq, Prod.mk.injEq] at h
    rw [← h.1, hn] at hl
    cases hl
  · simp only [hr, Option.bind_eq_bind, Option.bind_eq_some_iff, Coordinator.insert,
      Option.some.injEq, Prod.mk.injEq] at h
    obtain ⟨deadline, hd, rfl, -⟩ := h
    obtain ⟨-, rfl⟩ := Instant.checkedAdd_eq_some.mp hd
    rw [lookup_insert, if_pos rfl] at hl
    cases hl
    exact ⟨by simp [BranchCall.succeeded, hr], rfl⟩

theorem offerReceived_deadline {sdp : SdpOffer} {reply : AnswerReply} {whep : OfferReply}
    {d : Instant} (hw : c.connections.lookup id = some (.awaitingOffer whep d))
    (h : c.offerReceived id sdp reply env =
      some (c', [.send whep.channel (.ok (.offer sdp)) true]))
    (hl : c'.connections.lookup id = some state) :
    state = .awaitingAnswer reply (env.now + c.config.answerTimeout) := by
  simp only [Coordinator.offerReceived, hw, ConnectionState.deliverOffer] at h
  cases hb : env.listening whep.channel with
  | true =>
    simp only [hb, if_true, Option.bind_eq_bind, Option.bind_eq_some_iff, Coordinator.insert,
      Coordinator.remove, Option.some.injEq, Prod.mk.injEq] at h
    obtain ⟨deadline, hd, rfl, -⟩ := h
    obtain ⟨-, rfl⟩ := Instant.checkedAdd_eq_some.mp hd
    rw [lookup_insert, if_pos rfl] at hl
    exact (Option.some.inj hl).symm
  | false =>
    simp only [hb, Bool.false_eq_true, if_false, Option.bind_eq_bind, Option.bind_eq_some_iff,
      Option.some.injEq, Prod.mk.injEq, Sender.send_offer] at h
    obtain ⟨-, -, -, ⟨⟩⟩ := h

theorem step_parks (h : c.Step (e, os) c') (hl : c'.connections.lookup id = some state)
    (hd : state.deadline = some deadline) : c.connections.lookup id = some state ∨
      ∃ cmd, Parks c.config e cmd deadline ∧ cmd.connection = some id ∧ ParksFor state cmd := by
  obtain ⟨-, hl, -⟩ | ⟨cmd, env, rfl, hm⟩ := Deliveries.step_entry h hl
  · exact .inl hl
  obtain hold | he := move_entry hm hl
  · exact .inl hold
  cases he with
  | @registered reply call d hn hs =>
    obtain ⟨hsucc, he⟩ := createConnection_deadline h.2 hn hl
    cases he
    cases hd
    exact .inr ⟨_, .offer hsucc, rfl, rfl⟩
  | @offered sdp reply whep d d' hw =>
    cases offerReceived_deadline hw h.2 hl
    cases hd
    exact .inr ⟨_, .answer, rfl, rfl⟩
  | established => cases hd

theorem sweep_leaves (h : c.Step (.sweepTick env, os) c')
    (hl : c'.connections.lookup id = some state) (hd : state.deadline = some deadline) :
    env.now < deadline ∧ c.connections.lookup id = some state := by
  obtain ⟨hc, ht⟩ := h
  have hout := sweepExpired_outcome hc ht
  by_cases htr : Tripped os
  · rw [hout.tripped htr] at hl
    cases hl
  obtain ⟨-, -, hlook⟩ := hout.untripped htr
  rw [hlook] at hl
  obtain ⟨hid, hl⟩ := Option.ite_none_left_eq_some.mp hl
  refine ⟨?_, hl⟩
  by_contra hle
  have hdue : state.deadline.any (· ≤ env.now) = true := by simpa [hd] using hle
  exact hid ((mem_expired hc).mpr ⟨state, hl, hdue⟩)

theorem step_expires {reason : TerminateReason} (h : c.Step (e, os) c')
    (ho : .ended id reason ∈ os) (hr : reason = .expired) : ∃ env, e = .sweepTick env := by
  subst hr
  cases e with
  | command cmd env =>
    obtain ⟨os₁, c₁, os₂, hm, hs, rfl⟩ := handle_move h.1 h.2
    obtain ho | ho := List.mem_append.mp ho
    · cases hm with
      | reject b hr => cases hr <;> simp at ho
      | delete env b hl hs => simp [ConnectionState.notify_eq] at ho
      | reset env b hc => simp [drain, ConnectionState.notify_eq] at ho
      | _ => simp at ho
    · cases hs with
      | calm => cases ho
      | trip env hf hc => simp [drain, ConnectionState.notify_eq] at ho
  | branchFailure branch env =>
    obtain ⟨-, -, rfl⟩ | ⟨state, -, -, rfl⟩ := reapBranch_move h.2
    · cases ho
    · simp [ConnectionState.notify_eq] at ho
  | sweepTick env => exact ⟨env, rfl⟩

theorem rejects_no_timeout {calls : List Effect} {err : SignalError} {leg : String}
    (h : Rejects c cmd calls err) : err ≠ .timeout leg := by
  cases h with
  | @attach id reply call hl hf =>
    unfold attachError
    split
    next e _ => cases e <;> simp [SignalError.ofPipelineError]
    next => simp
  | @detach id reply state call hl hf =>
    unfold detachError
    split
    next e _ => cases e <;> simp [SignalError.ofPipelineError]
    next => simp
  | _ => simp

theorem expired_timeouts {es : List (ConnectionId × ConnectionState)} {ch : Nat} {leg : String}
    {n : WaiterNotice} (h : (ch, .error (.timeout leg)) ∈ told n es) : n = .expiredLeg ∧
      ∃ e ∈ es, e.2.parked = some ch ∧ e.2.notice e.1 .expiredLeg = .timeout leg := by
  obtain ⟨⟨id, state⟩, he, hm⟩ := List.mem_flatMap.mp h
  obtain ⟨ch', hp, heq⟩ := List.mem_map.mp hm
  obtain ⟨rfl, herr⟩ := Prod.mk.inj heq
  have hnotice : state.notice id n = .timeout leg := by simpa using herr
  cases n with
  | expiredLeg => exact ⟨rfl, _, he, Option.mem_toList.mp hp, hnotice⟩
  | gone => cases hnotice
  | unavailable => cases hnotice

theorem step_timeout {ch : Nat} {b : Bool} {leg : String} (h : c.Step (e, os) c')
    (ho : .send ch (.error (.timeout leg)) b ∈ os) : ∃ env, e = .sweepTick env ∧
      ∃ id state deadline, c.connections.lookup id = some state ∧ state.parked = some ch ∧
        state.deadline = some deadline ∧ deadline ≤ env.now ∧
        state.notice id .expiredLeg = .timeout leg := by
  obtain he | hf := step_fails h ho
  · cases he
  have hsweep : ∃ env, e = .sweepTick env := by
    generalize herr : SignalError.timeout leg = err at hf
    cases hf with
    | refused _ _ hr => exact absurd herr.symm (rejects_no_timeout hr)
    | @noticed id state reason hl hp hn hend hr =>
      refine step_expires h hend ?_
      cases reason <;> first | rfl | cases herr
    | abandoned => cases herr
  obtain ⟨env, rfl⟩ := hsweep
  refine ⟨env, rfl, ?_⟩
  have hans : (ch, .error (.timeout leg)) ∈ answers os := List.mem_filterMap.mpr ⟨_, ho, rfl⟩
  have hdue : ∀ ids, (∀ id ∈ ids, id ∈ c.expired env) →
      (ch, .error (.timeout leg)) ∈ timeouts c ids → ∃ id state deadline,
        c.connections.lookup id = some state ∧ state.parked = some ch ∧
        state.deadline = some deadline ∧ deadline ≤ env.now ∧
        state.notice id .expiredLeg = .timeout leg := by
    intro ids hids hm
    obtain ⟨-, ⟨id, state⟩, hmem, hp, hn⟩ := expired_timeouts hm
    obtain ⟨hid, hl⟩ := (mem_walk id state).mp hmem
    obtain ⟨state', hl', hd⟩ := (mem_expired h.1).mp (hids id hid)
    cases hl.symm.trans hl'
    cases hdl : state.deadline with
    | none =>
      rw [hdl] at hd
      cases hd
    | some deadline =>
      rw [hdl] at hd
      exact ⟨id, state, deadline, hl, hp, hdl, of_decide_eq_true hd, hn⟩
  cases sweepExpired_outcome h.1 h.2 with
  | calm _ ha _ _ => exact hdue _ (fun _ hid => hid) (ha ▸ hans)
  | trip pre post _ hids _ ha _ _ =>
    rw [ha] at hans
    obtain hm | hm := List.mem_append.mp hans
    · exact hdue pre (fun id hid => hids ▸ List.mem_append_left _ hid) hm
    · cases (expired_timeouts hm).1

end Turns

section Runs

variable {config : CoordinatorConfig} {ls : List (Event × List Effect)} {c c' : Coordinator}
  {env : Env} {os : List Effect} {id : ConnectionId} {state : ConnectionState}
  {deadline : Instant} {cmd : Command}

theorem run_parks (h : Run Coordinator.Step (.new config) ls c) :
    ∀ id state deadline, c.connections.lookup id = some state → state.deadline = some deadline →
      ∃ l ∈ ls, ∃ cmd, Parks config l.1 cmd deadline ∧ cmd.connection = some id ∧
        ParksFor state cmd := by
  suffices hs : c.config = config ∧ ∀ id state deadline, c.connections.lookup id = some state →
      state.deadline = some deadline → ∃ l ∈ ls, ∃ cmd, Parks config l.1 cmd deadline ∧
        cmd.connection = some id ∧ ParksFor state cmd from hs.2
  refine h.history (P := fun ls c => c.config = config ∧ ∀ id state deadline,
    c.connections.lookup id = some state → state.deadline = some deadline →
      ∃ l ∈ ls, ∃ cmd, Parks config l.1 cmd deadline ∧ cmd.connection = some id ∧
        ParksFor state cmd) ⟨rfl, by simp [Coordinator.new]⟩ ?_
  rintro ls c c' ⟨e, os⟩ ⟨hc, hp⟩ hs
  refine ⟨(Panics.run_config (.single hs)).trans hc, fun id state deadline hl hd => ?_⟩
  obtain hl | ⟨cmd, hpk, hid, hf⟩ := step_parks hs hl hd
  · obtain ⟨l, hm, hcmd⟩ := hp id state deadline hl hd
    exact ⟨l, List.mem_append_left _ hm, hcmd⟩
  · exact ⟨(e, os), by simp, cmd, hc ▸ hpk, hid, hf⟩

theorem answered_or_parked (h : Run Coordinator.Step (.new config) ls c)
    (hn : ((taken ls).map Command.channel).Nodup) (hcmd : cmd ∈ taken ls) :
    sends (trace ls) cmd.channel = 1 ∨ sends (trace ls) cmd.channel = 0 ∧
      ∃ id state, c.connections.lookup id = some state ∧ cmd.connection = some id ∧
        ParksFor state cmd := by
  have hc := congrArg (Multiset.count cmd.channel) (run_conserves h)
  have hs : Multiset.count cmd.channel (sent (trace ls)) = sends (trace ls) cmd.channel :=
    Multiset.coe_count _ _
  rw [Multiset.count_add, Multiset.coe_count, hs,
    List.count_eq_one_of_mem hn (List.mem_map_of_mem hcmd)] at hc
  by_cases hg : cmd.channel ∈ gather held c.connections
  · have hpos := Multiset.count_pos.mpr hg
    obtain ⟨id, state, hl, hp⟩ := (mem_gather held _ _).mp hg
    obtain ⟨cmd', hm, hid, hf, hch⟩ := parked_by h hl (by simpa [held] using hp)
    obtain rfl : cmd' = cmd := List.inj_on_of_nodup_map hn hm hcmd hch
    exact .inr ⟨by omega, id, state, hl, hid, hf⟩
  · rw [Multiset.count_eq_zero.mpr hg] at hc
    exact .inl hc

theorem Parks.mem {e : Event} (h : Parks config e cmd deadline) (hm : (e, os) ∈ ls) :
    cmd ∈ taken ls := by
  refine List.mem_flatMap.mpr ⟨(e, os), hm, ?_⟩
  cases h <;> exact List.mem_singleton_self _

theorem parked_deadline (h : ParksFor state cmd) : ∃ d, state.deadline = some d := by
  cases state with
  | awaitingOffer whep d => exact ⟨d, rfl⟩
  | awaitingAnswer whip d => exact ⟨d, rfl⟩
  | established since => cases cmd <;> exact h.elim

/-- The turn that parked a command's reply also set the deadline found with it. -/
theorem parked_until (h : Run Coordinator.Step (.new config) ls c)
    (hn : ((taken ls).map Command.channel).Nodup) (hcmd : cmd ∈ taken ls)
    (hl : c.connections.lookup id = some state) (hp : state.parked = some cmd.channel)
    (hd : state.deadline = some deadline) : ∃ l ∈ ls, Parks config l.1 cmd deadline := by
  obtain ⟨⟨e, os⟩, hm, cmd', hpk, -, hf⟩ := run_parks h id state deadline hl hd
  have hch : cmd'.channel = cmd.channel := Option.some.inj (hf.channel.symm.trans hp)
  obtain rfl : cmd' = cmd := List.inj_on_of_nodup_map hn (hpk.mem hm) hcmd hch
  exact ⟨(e, os), hm, hpk⟩

end Runs

variable {config : CoordinatorConfig} {ls : List (Event × List Effect)} {c c' : Coordinator}
  {env : Env} {os : List Effect}

def awaits : Command → Option String
  | .createConnection _ _ => some "SDP offer"
  | .offerReceived _ _ _ => some "SDP answer"
  | _ => none

/-- A request that is sent nothing yet: its reply is parked, under the deadline of the
turn that parked it. -/
structure Pending (config : CoordinatorConfig) (ls : List (Event × List Effect))
    (c : Coordinator) (cmd : Command) (id : ConnectionId) (state : ConnectionState)
    (deadline : Instant) : Prop where
  named : cmd.connection = some id
  found : c.connections.lookup id = some state
  parked : ParksFor state cmd
  due : state.deadline = some deadline
  dated : ∃ l ∈ ls, Parks config l.1 cmd deadline

theorem sweep_answers_due (h : Run Coordinator.Step (.new config) ls c)
    (hs : c.Step (.sweepTick env, os) c') (hn : ((taken ls).map Command.channel).Nodup) :
    ∀ cmd ∈ taken ls, sends (trace ls ++ os) cmd.channel = 1 ∨
      sends (trace ls ++ os) cmd.channel = 0 ∧ ∃ id state deadline,
        Pending config ls c' cmd id state deadline ∧ env.now < deadline := by
  intro cmd hcmd
  have htaken : taken (ls ++ [(.sweepTick env, os)]) = taken ls := by simp [commands]
  have htrace : trace (ls ++ [(.sweepTick env, os)]) = trace ls ++ os := by simp
  rw [← htrace]
  obtain hone | ⟨hzero, id, state, hl, hid, hf⟩ :=
    answered_or_parked (h.snoc hs) (htaken ▸ hn) (htaken ▸ hcmd)
  · exact .inl hone
  · obtain ⟨deadline, hd⟩ := parked_deadline hf
    obtain ⟨hlt, hold⟩ := sweep_leaves hs hl hd
    have hdated := parked_until h hn hcmd hold hf.channel hd
    exact .inr ⟨hzero, id, state, deadline, ⟨hid, hl, hf, hd, hdated⟩, hlt⟩

theorem sweep_answers_due_viewer : ∃ ls c env os c', Run Coordinator.Step (.new {}) ls c ∧
    c.Step (.sweepTick env, os) c' ∧
    taken ls = [.createConnection "a" ⟨0⟩, .createConnection "b" ⟨1⟩] ∧
    (∀ cmd ∈ taken ls, sends (trace ls ++ os) cmd.channel = 1 ∨
      sends (trace ls ++ os) cmd.channel = 0 ∧ ∃ id state deadline,
        Pending {} ls c' cmd id state deadline ∧ env.now < deadline) ∧
    sends (trace ls ++ os) 0 = 1 ∧ sends (trace ls ++ os) 1 = 0 := by
  let env : Env := .calm (Duration.fromSecs 12) ["a", "b"]
  obtain ⟨ls, c, h, -, hv⟩ := replayed Coordinator.next Coordinator.Step
    (fun _ _ _ _ => Coordinator.next_eq_some.mp) (.new {})
    [.command (.createConnection "a" ⟨0⟩) (.calm 0 []),
      .command (.createConnection "b" ⟨1⟩) (.calm (Duration.fromSecs 5) ["a"])]
    ([.createConnection "a" ⟨0⟩, .createConnection "b" ⟨1⟩], some (1, 0))
    (fun r => (taken r.2, (r.1.next (.sweepTick env)).map fun t =>
      (sends (trace r.2 ++ t.2) 0, sends (trace r.2 ++ t.2) 1))) (by decide)
  obtain ⟨htaken, hsends⟩ := Prod.mk.inj hv
  obtain ⟨⟨c', os⟩, hn, ht⟩ := Option.map_eq_some_iff.mp hsends
  obtain ⟨hone, hzero⟩ := Prod.mk.inj ht
  have hs : c.Step (.sweepTick env, os) c' := Coordinator.next_eq_some.mp hn
  have hnodup : ((taken ls).map Command.channel).Nodup := by
    rw [htaken]
    decide
  exact ⟨ls, c, env, os, c', h, hs, htaken, sweep_answers_due h hs hnodup, hone, hzero⟩

/-- A request is told `Timeout` at no sweep before its time, and the error names
what it was waiting for. -/
theorem timeouts_not_early {e : Event} {ch : Nat} {b : Bool} {leg : String}
    (h : Run Coordinator.Step (.new config) ls c) (hs : c.Step (e, os) c')
    (ho : .send ch (.error (.timeout leg)) b ∈ os) : ∃ env, e = .sweepTick env ∧
      ∃ l ∈ ls, ∃ cmd deadline, Parks config l.1 cmd deadline ∧ cmd.channel = ch ∧
        deadline ≤ env.now ∧ awaits cmd = some leg := by
  obtain ⟨env, he, id, state, deadline, hl, hp, hd, hle, hn⟩ := step_timeout hs ho
  obtain ⟨l, hm, cmd, hpk, -, hf⟩ := run_parks h id state deadline hl hd
  refine ⟨env, he, l, hm, cmd, deadline, hpk, ?_, hle, ?_⟩
  · exact Option.some.inj (hf.channel.symm.trans hp)
  · cases state with
    | awaitingOffer whep d =>
      cases hn
      cases cmd with
      | createConnection => rfl
      | _ => exact hf.elim
    | awaitingAnswer whip d =>
      cases hn
      cases cmd with
      | offerReceived => rfl
      | _ => exact hf.elim
    | established since => cases hd

/-- A whipsink whose answer does not come in time is told so by the sweep that
finds its ten seconds over, not by the one at five. -/
theorem timeouts_not_early_whipsink : ∃ ls c e os c' b, Run Coordinator.Step (.new {}) ls c ∧
    c.Step (e, os) c' ∧ .send 1 (.error (.timeout "SDP answer")) b ∈ os ∧
    ∃ env, e = .sweepTick env ∧ ∃ l ∈ ls, ∃ cmd deadline, Parks {} l.1 cmd deadline ∧
      cmd.channel = 1 ∧ deadline ≤ env.now ∧ awaits cmd = some "SDP answer" := by
  let e : Event := .sweepTick (.calm (Duration.fromSecs 40) ["a"])
  obtain ⟨ls, c, h, -, hv⟩ := replayed Coordinator.next Coordinator.Step
    (fun _ _ _ _ => Coordinator.next_eq_some.mp) (.new {})
    [.command (.createConnection "a" ⟨0⟩) (.calm 0 []),
      .command (.offerReceived "a" default ⟨1⟩) (.calm 0 ["a"]),
      .sweepTick (.calm (Duration.fromSecs 5) ["a"])]
    (some true) (fun r => (r.1.next e).map fun t : Coordinator × List Effect =>
      decide (.send 1 (.error (.timeout "SDP answer")) true ∈ t.2)) (by decide)
  obtain ⟨⟨c', os⟩, hn, ht⟩ := Option.map_eq_some_iff.mp hv
  have hs : c.Step (e, os) c' := Coordinator.next_eq_some.mp hn
  have ho := of_decide_eq_true ht
  exact ⟨ls, c, e, os, c', true, h, hs, ho, timeouts_not_early h hs ho⟩

end SrtWhep.Deadlines
