import SrtWhep.WireContract

namespace SrtWhep.Results

open Library.Runs Library.Tables Moves Waiters WireContract

inductive Failure : Command → SignalError → Prop
  | createTaken {id reply} : Failure (.createConnection id reply) (.wrongState id)
  | createFailed {id reply} (e : PipelineError) :
      Failure (.createConnection id reply) (.ofPipelineError e)
  | createCutOff {id reply} :
      Failure (.createConnection id reply) (.pipelineBusy "branch attach/cleanup timed out")
  | createExpired {id reply} : Failure (.createConnection id reply) (.timeout "SDP offer")
  | createGone {id reply} : Failure (.createConnection id reply) (.gone id)
  | createWiped {id reply} : Failure (.createConnection id reply) .unavailable
  | offerUnknown {id sdp reply} : Failure (.offerReceived id sdp reply) (.notFound id)
  | offerWrong {id sdp reply} : Failure (.offerReceived id sdp reply) (.wrongState id)
  | offerExpired {id sdp reply} : Failure (.offerReceived id sdp reply) (.timeout "SDP answer")
  | offerGone {id sdp reply} : Failure (.offerReceived id sdp reply) (.gone id)
  | offerWiped {id sdp reply} : Failure (.offerReceived id sdp reply) .unavailable
  | answerUnknown {id sdp reply} : Failure (.answerReceived id sdp reply) (.notFound id)
  | answerWrong {id sdp reply} : Failure (.answerReceived id sdp reply) (.wrongState id)
  | answerGone {id sdp reply} : Failure (.answerReceived id sdp reply) (.gone id)
  | removeUnknown {id reply} : Failure (.removeConnection id reply) (.notFound id)
  | removeFailed {id reply} (e : PipelineError) :
      Failure (.removeConnection id reply) (.ofPipelineError e)
  | removeCutOff {id reply} :
      Failure (.removeConnection id reply) (.pipelineBusy "branch teardown timed out")

/-- What a command that succeeds is sent, and what else has come of it: the
offer or answer it waited for has been brought, the one it brought delivered.
Who has brought an answer that is received is told so. -/
inductive Success (cs : List Command) (os : List Effect) : Bool → Command → Payload → Prop
  | created {b id reply o whip} : .offerReceived id o whip ∈ cs →
      Success cs os b (.createConnection id reply) (.offer o)
  | answered {b id o reply a r} : .answerReceived id a r ∈ cs →
      (b = true → ∃ b', .send r.channel (.ok .unit) b' ∈ os) →
      Success cs os b (.offerReceived id o reply) (.answer a)
  | established {b id a reply o whip} : .offerReceived id o whip ∈ cs →
      .send whip.channel (.ok (.answer a)) true ∈ os →
      Success cs os b (.answerReceived id a reply) .unit
  | removed {b id reply} : Success cs os b (.removeConnection id reply) .unit
  | listed {b reply} (infos : List ConnectionInfo) :
      Success cs os b (.listConnections reply) (.snapshot infos)
  | reset {b reply} : Success cs os b (.reset reply) .unit

theorem Success.mono {cs cs' : List Command} {os os' : List Effect} {b : Bool} {cmd : Command}
    {p : Payload} (h : Success cs os b cmd p) (hc : ∀ c ∈ cs, c ∈ cs') (ho : ∀ o ∈ os, o ∈ os') :
    Success cs' os' b cmd p := by
  cases h with
  | created hm => exact .created (hc _ hm)
  | answered hm hs =>
    refine .answered (hc _ hm) fun hb => ?_
    obtain ⟨b', hb'⟩ := hs hb
    exact ⟨b', ho _ hb'⟩
  | established hm hs => exact .established (hc _ hm) (ho _ hs)
  | removed => exact .removed
  | listed infos => exact .listed infos
  | reset => exact .reset

section Moves

variable {c c' : Coordinator} {cs cs' : List Command} {os os' : List Effect} {ch : Nat} {b : Bool}
  {cmd : Command} {err : SignalError} {id : ConnectionId} {state : ConnectionState}

theorem attach_failure (call : BranchCall) (reply : OfferReply) :
    Failure (.createConnection id reply) (attachError call) := by
  unfold attachError
  split
  · exact .createFailed _
  · exact .createCutOff

theorem detach_failure (call : BranchCall) (reply : UnitReply) :
    Failure (.removeConnection id reply) (detachError call) := by
  unfold detachError
  split
  · exact .removeFailed _
  · exact .removeCutOff

theorem rejects_failure (h : Rejects c cmd os err) : Failure cmd err := by
  cases h with
  | duplicate _ => exact .createTaken
  | attach _ _ => exact attach_failure _ _
  | unknownOffer _ => exact .offerUnknown
  | wrongOffer _ _ => exact .offerWrong
  | unknownAnswer _ => exact .answerUnknown
  | wrongAnswer _ _ => exact .answerWrong
  | unknownRemove _ => exact .removeUnknown
  | detach _ _ => exact detach_failure _ _

theorem notice_failure (h : ParksFor state cmd) (hid : cmd.connection = some id)
    (n : WaiterNotice) : Failure cmd (state.notice id n) := by
  cases state with
  | awaitingOffer whep d =>
    cases cmd with
    | createConnection i reply =>
      cases hid
      cases n with
      | gone => exact .createGone
      | expiredLeg => exact .createExpired
      | unavailable => exact .createWiped
    | _ => exact h.elim
  | awaitingAnswer whip d =>
    cases cmd with
    | offerReceived i sdp reply =>
      cases hid
      cases n with
      | gone => exact .offerGone
      | expiredLeg => exact .offerExpired
      | unavailable => exact .offerWiped
    | _ => exact h.elim
  | established since => cases cmd <;> exact h.elim

theorem abandoned_failure (hm : Move c ([cmd], os) c') (hi : byId cmd = some id)
    (ho : .ended id .peerGone ∈ os) : Failure cmd (.gone id) := by
  cases cmd with
  | offerReceived i sdp reply =>
    cases hi
    exact .offerGone
  | answerReceived i sdp reply =>
    cases hi
    exact .answerGone
  | removeConnection i reply =>
    cases hm with
    | reject b hr => cases hr <;> simp at ho
    | delete env b hl hs => simp [ConnectionState.notify_eq] at ho
  | _ => cases hi

theorem move_failures (hm : Move c (cs', os') c')
    (hp : ∀ id state, c.connections.lookup id = some state → Placed cs id state)
    (ho : .send ch (.error err) b ∈ os') :
    ∃ cmd ∈ cs ++ cs', cmd.channel = ch ∧ Failure cmd err := by
  have hf := move_fails hm ho
  cases hf with
  | @refused cmd calls err hcs hch hr =>
    exact ⟨cmd, by simp [hcs], hch, rejects_failure hr⟩
  | @noticed id state reason hl hpk _ _ _ =>
    obtain hn | ⟨cmd, hin, hid, hf⟩ := hp id state hl
    · cases hn.symm.trans hpk
    · refine ⟨cmd, List.mem_append_left _ hin, ?_, notice_failure hf hid _⟩
      exact Option.some.inj (hf.channel.symm.trans hpk)
  | @abandoned id cmd hcs hch hi _ _ hend =>
    subst hcs
    exact ⟨cmd, by simp, hch, abandoned_failure hm hi hend⟩

theorem placed_offer {whep : OfferReply} {d : Instant} (h : Placed cs id (.awaitingOffer whep d)) :
    .createConnection id whep ∈ cs := by
  obtain hn | ⟨cmd, hm, hid, hf⟩ := h
  · cases hn
  · cases cmd with
    | createConnection i reply =>
      cases hid
      cases hf
      exact hm
    | _ => exact hf.elim

theorem placed_answer {whip : AnswerReply} {d : Instant}
    (h : Placed cs id (.awaitingAnswer whip d)) : ∃ o, .offerReceived id o whip ∈ cs := by
  obtain hn | ⟨cmd, hm, hid, hf⟩ := h
  · cases hn
  · cases cmd with
    | offerReceived i o reply =>
      cases hid
      cases hf
      exact ⟨o, hm⟩
    | _ => exact hf.elim

theorem move_successes {p : Payload} (hm : Move c (cs', os') c')
    (hp : ∀ id state, c.connections.lookup id = some state → Placed cs id state)
    (ho : .send ch (.ok p) b ∈ os') :
    ∃ cmd ∈ cs ++ cs', cmd.channel = ch ∧ Success (cs ++ cs') (os ++ os') b cmd p := by
  have hnew : ∀ cmd : Command, cmd ∈ cs ++ [cmd] := fun cmd => by simp
  cases hm with
  | @list reply infos b' =>
    simp only [List.mem_singleton, Effect.send.injEq, Except.ok.injEq] at ho
    obtain ⟨rfl, rfl, -⟩ := ho
    exact ⟨_, hnew _, rfl, .listed infos⟩
  | @offer id sdp reply whep d now deadline hl hd =>
    simp only [List.mem_singleton, Effect.send.injEq, Except.ok.injEq] at ho
    obtain ⟨rfl, rfl, -⟩ := ho
    exact ⟨_, List.mem_append_left _ (placed_offer (hp _ _ hl)), rfl, .created (hnew _)⟩
  | @establish id sdp reply whip d since b' hl =>
    obtain ⟨o, hin⟩ := placed_answer (hp _ _ hl)
    have hin : .offerReceived id o whip ∈ cs ++ [.answerReceived id sdp reply] :=
      List.mem_append_left _ hin
    simp only [List.mem_cons, Effect.send.injEq, Except.ok.injEq, reduceCtorEq, List.not_mem_nil,
      or_false, false_or] at ho
    obtain ⟨rfl, rfl, -⟩ | ⟨rfl, rfl, -⟩ := ho
    · exact ⟨_, hin, rfl, .answered (hnew _) fun _ => ⟨b', by simp⟩⟩
    · exact ⟨_, hnew _, rfl, .established hin (List.mem_append_right _ List.mem_cons_self)⟩
  | @abandonOffer id sdp reply whep d call tripped w b' hl hw =>
    simp only [List.mem_cons, Effect.send.injEq, Except.ok.injEq, reduceCtorEq, List.not_mem_nil,
      or_false, false_and, and_false] at ho
    obtain ⟨rfl, rfl, -⟩ := ho
    exact ⟨_, List.mem_append_left _ (placed_offer (hp _ _ hl)), rfl, .created (hnew _)⟩
  | @abandonAnswer id sdp reply whip d call tripped w b' hl hw =>
    obtain ⟨o, hin⟩ := placed_answer (hp _ _ hl)
    simp only [List.mem_cons, Effect.send.injEq, Except.ok.injEq, reduceCtorEq, List.not_mem_nil,
      or_false, false_and, and_false] at ho
    obtain ⟨rfl, rfl, rfl⟩ := ho
    exact ⟨_, List.mem_append_left _ hin, rfl, .answered (hnew _) (by simp)⟩
  | @delete id reply state call env b' hl hs =>
    simp [ConnectionState.notify_eq] at ho
    obtain ⟨rfl, rfl, -⟩ := ho
    exact ⟨_, hnew _, rfl, .removed⟩
  | @reset reply env b' hc =>
    have hd := @Deliveries.drain_sends_errors c ch p b env
    simp only [List.mem_append, hd, List.mem_cons, Effect.send.injEq, Except.ok.injEq,
      reduceCtorEq, List.not_mem_nil, or_false, false_or] at ho
    obtain ⟨rfl, rfl, -⟩ := ho
    exact ⟨_, hnew _, rfl, .reset⟩
  | reject b' hr => cases hr <;> simp at ho
  | register hl hs hd => simp at ho
  | expire env hl hd hw => simp [ConnectionState.notify_eq] at ho
  | reap env hl => simp [ConnectionState.notify_eq] at ho
  | trip env hc => simp [drain, ConnectionState.notify_eq] at ho

end Moves

def Result (cs : List Command) (os : List Effect) (b : Bool) (cmd : Command) :
    Except SignalError Payload → Prop
  | .ok p => Success cs os b cmd p
  | .error err => Failure cmd err

variable {config : CoordinatorConfig} {ls : List (Event × List Effect)} {c : Coordinator} {ch : Nat}
  {r : Except SignalError Payload} {b : Bool}

/-- Whatever is sent in a run is a result of the command that expects it. -/
theorem run_results (h : Run Coordinator.Step (.new config) ls c) (ho : .send ch r b ∈ trace ls) :
    ∃ cmd ∈ taken ls, cmd.channel = ch ∧ Result (taken ls) (trace ls) b cmd r := by
  have hinv : (∀ id state, c.connections.lookup id = some state → Placed (taken ls) id state) ∧
      ∀ ch r b, .send ch r b ∈ trace ls →
        ∃ cmd ∈ taken ls, cmd.channel = ch ∧ Result (taken ls) (trace ls) b cmd r := by
    refine move_history (P := fun cs os d =>
      (∀ id state, d.connections.lookup id = some state → Placed cs id state) ∧
        ∀ ch r b, .send ch r b ∈ os →
          ∃ cmd ∈ cs, cmd.channel = ch ∧ Result cs os b cmd r) h ?_ ?_
    · exact ⟨fun id state hl => (by cases hl), fun _ _ _ ho => (by cases ho)⟩
    rintro cs os d cs' os' d' ⟨hp, hf⟩ hm
    refine ⟨fun id state hl => ?_, fun ch r b ho => ?_⟩
    · obtain hl | hq := move_placed hm hl
      · exact (hp id state hl).mono fun _ hc => List.mem_append_left _ hc
      · exact hq.mono fun _ hc => List.mem_append_right _ hc
    · obtain ho | ho := List.mem_append.mp ho
      · obtain ⟨cmd, hin, hch, hres⟩ := hf ch r b ho
        refine ⟨cmd, List.mem_append_left _ hin, hch, ?_⟩
        cases r with
        | error err => exact hres
        | ok p =>
          exact Success.mono hres (fun _ => List.mem_append_left _) fun _ =>
            List.mem_append_left _
      · cases r with
        | error err => exact move_failures hm hp ho
        | ok p => exact move_successes hm hp ho
  exact hinv.2 ch r b ho

end SrtWhep.Results
