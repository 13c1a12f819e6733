import SrtWhep.Coordinator
import SrtWhep.Library.Runs

namespace SrtWhep.Moves

open Library.Runs Library.Tables

def attachError (call : BranchCall) : SignalError :=
  match call.result with
  | some (.error e) => .ofPipelineError e
  | _ => .pipelineBusy "branch attach/cleanup timed out"

def detachError (call : BranchCall) : SignalError :=
  match call.result with
  | some (.error e) => .ofPipelineError e
  | _ => .pipelineBusy "branch teardown timed out"

def drain (c : Coordinator) (env : Env) : List Effect :=
  (walk c.connections env.order).flatMap fun e =>
    e.2.notify env .unavailable e.1 ++ [.ended e.1 .reset]

/-- The ways a command is refused, with the branch calls made on the way and
the error its sender gets. -/
inductive Rejects (c : Coordinator) : Command → List Effect → SignalError → Prop
  | duplicate {id reply state} : c.connections.lookup id = some state →
      Rejects c (.createConnection id reply) [] (.wrongState id)
  | attach {id reply call} : c.connections.lookup id = none → call.succeeded = false →
      Rejects c (.createConnection id reply) [.addBranch id call] (attachError call)
  | unknownOffer {id sdp reply} : c.connections.lookup id = none →
      Rejects c (.offerReceived id sdp reply) [] (.notFound id)
  | wrongOffer {id sdp reply state} : c.connections.lookup id = some state →
      (∀ whep d, state ≠ .awaitingOffer whep d) →
      Rejects c (.offerReceived id sdp reply) [] (.wrongState id)
  | unknownAnswer {id sdp reply} : c.connections.lookup id = none →
      Rejects c (.answerReceived id sdp reply) [] (.notFound id)
  | wrongAnswer {id sdp reply state} : c.connections.lookup id = some state →
      (∀ whip d, state ≠ .awaitingAnswer whip d) →
      Rejects c (.answerReceived id sdp reply) [] (.wrongState id)
  | unknownRemove {id reply} : c.connections.lookup id = none →
      Rejects c (.removeConnection id reply) [] (.notFound id)
  | detach {id reply state call} : c.connections.lookup id = some state →
      call.succeeded = false →
      Rejects c (.removeConnection id reply) [.removeBranch id call] (detachError call)

/-- The protocol the coordinator runs, one atomic move at a time. The label
holds the command a move answers or parks, if any, and its effects. -/
inductive Move : Coordinator → List Command × List Effect → Coordinator → Prop
  | reject {c cmd calls err} (b : Bool) : Rejects c cmd calls err →
      Move c ([cmd], calls ++ [.send cmd.channel (.error err) b]) c
  | list {c reply} (infos : List ConnectionInfo) (b : Bool) :
      Move c ([.listConnections reply], [.send reply.channel (.ok (.snapshot infos)) b]) c
  | register {c id reply call deadline} : c.connections.lookup id = none →
      call.succeeded = true → call.returned.checkedAdd c.config.offerTimeout = some deadline →
      Move c ([.createConnection id reply], [.addBranch id call])
        { c with connections := c.connections.insert id (.awaitingOffer reply deadline) }
  | offer {c id sdp reply whep d now deadline} :
      c.connections.lookup id = some (.awaitingOffer whep d) →
      Instant.checkedAdd now c.config.answerTimeout = some deadline →
      Move c ([.offerReceived id sdp reply], [.send whep.channel (.ok (.offer sdp)) true])
        { c with connections :=
            (c.connections.erase id).insert id (.awaitingAnswer reply deadline) }
  | establish {c id sdp reply whip d} (since : Instant) (b : Bool) :
      c.connections.lookup id = some (.awaitingAnswer whip d) →
      Move c ([.answerReceived id sdp reply], [.send whip.channel (.ok (.answer sdp)) true,
          .recordSuccess (some id), .send reply.channel (.ok .unit) b])
        { c with
          connections := (c.connections.erase id).insert id (.established since)
          watchdog := c.watchdog.recordSuccess }
  | abandonOffer {c id sdp reply whep d call tripped w} (b : Bool) :
      c.connections.lookup id = some (.awaitingOffer whep d) →
      c.watchdog.recordFailure call.returned = some (tripped, w) →
      Move c ([.offerReceived id sdp reply], [.send whep.channel (.ok (.offer sdp)) false,
          .send reply.channel (.error (.gone id)) b, .ended id .peerGone, .removeBranch id call,
          .recordFailure id tripped])
        { c with connections := c.connections.erase id, watchdog := w }
  | abandonAnswer {c id sdp reply whip d call tripped w} (b : Bool) :
      c.connections.lookup id = some (.awaitingAnswer whip d) →
      c.watchdog.recordFailure call.returned = some (tripped, w) →
      Move c ([.answerReceived id sdp reply], [.send whip.channel (.ok (.answer sdp)) false,
          .send reply.channel (.error (.gone id)) b, .ended id .peerGone, .removeBranch id call,
          .recordFailure id tripped])
        { c with connections := c.connections.erase id, watchdog := w }
  | delete {c id reply state call} (env : Env) (b : Bool) :
      c.connections.lookup id = some state → call.succeeded = true →
      Move c ([.removeConnection id reply], .removeBranch id call ::
          (state.notify env .gone id ++ [.ended id .deleted, .send reply.channel (.ok .unit) b]))
        { c with connections := c.connections.erase id }
  | expire {c id state call tripped w} (env : Env) :
      c.connections.lookup id = some state → state.deadline.any (· ≤ env.now) = true →
      c.watchdog.recordFailure call.returned = some (tripped, w) →
      Move c ([], state.notify env .expiredLeg id ++
          [.ended id .expired, .removeBranch id call, .recordFailure id tripped])
        { c with connections := c.connections.erase id, watchdog := w }
  | reap {c id state call} (env : Env) : c.connections.lookup id = some state →
      Move c ([], state.notify env .gone id ++ [.ended id .reaped, .removeBranch id call])
        { c with connections := c.connections.erase id }
  | trip {c} (env : Env) : Covers env.order c.connections →
      Move c ([], drain c env ++ [.requestRestart]) { c with connections := ∅ }
  | reset {c reply} (env : Env) (b : Bool) : Covers env.order c.connections →
      Move c ([.reset reply],
          drain c env ++ [.recordSuccess none, .send reply.channel (.ok .unit) b])
        { c with connections := ∅, watchdog := c.watchdog.recordSuccess }

/-- A wipe follows a move exactly when the failure it recorded tripped. -/
inductive Settles : Coordinator → List Effect → List Effect → Coordinator → Prop
  | calm {c os} : (∀ id, .recordFailure id true ∉ os) → Settles c os [] c
  | trip {c os id} (env : Env) : .recordFailure id true ∈ os → Covers env.order c.connections →
      Settles c os (drain c env ++ [.requestRestart]) { c with connections := ∅ }

inductive Enters (c : Coordinator) (id : ConnectionId) :
    List Command → List Effect → ConnectionState → Prop
  | registered {reply call} (deadline) : c.connections.lookup id = none → call.succeeded = true →
      Enters c id [.createConnection id reply] [.addBranch id call] (.awaitingOffer reply deadline)
  | offered {sdp reply whep d} (deadline) :
      c.connections.lookup id = some (.awaitingOffer whep d) →
      Enters c id [.offerReceived id sdp reply] [.send whep.channel (.ok (.offer sdp)) true]
        (.awaitingAnswer reply deadline)
  | established {sdp reply whip d} (since) (b : Bool) :
      c.connections.lookup id = some (.awaitingAnswer whip d) →
      Enters c id [.answerReceived id sdp reply] [.send whip.channel (.ok (.answer sdp)) true,
        .recordSuccess (some id), .send reply.channel (.ok .unit) b] (.established since)

theorem move_entry {c c' : Coordinator} {cs : List Command} {os : List Effect}
    {id : ConnectionId} {state : ConnectionState} (h : Move c (cs, os) c')
    (hl : c'.connections.lookup id = some state) :
    c.connections.lookup id = some state ∨ Enters c id cs os state := by
  cases h with
  | reject b hr => exact .inl hl
  | list infos b => exact .inl hl
  | register hn hs hd =>
    rw [lookup_insert] at hl
    split at hl
    next he =>
      subst he
      cases hl
      exact .inr (.registered _ hn hs)
    · exact .inl hl
  | offer hn hd =>
    rw [lookup_insert, lookup_erase] at hl
    split at hl
    next he =>
      subst he
      cases hl
      exact .inr (.offered _ hn)
    · exact .inl hl
  | establish since b hn =>
    rw [lookup_insert, lookup_erase] at hl
    split at hl
    next he =>
      subst he
      cases hl
      exact .inr (.established since b hn)
    · exact .inl hl
  | trip env hc => cases hl
  | reset env b hc => cases hl
  | _ =>
    rw [lookup_erase] at hl
    split at hl
    · cases hl
    · exact .inl hl

section Inversion

variable {c c' : Coordinator} {env : Env} {id : ConnectionId} {os : List Effect}

theorem removeBranch_result (id : ConnectionId) (env : Env) :
    Coordinator.removeBranchBounded id env =
      (if (env.branch id).succeeded then .ok () else .error (detachError (env.branch id)),
        .removeBranch id (env.branch id)) := by
  unfold Coordinator.removeBranchBounded BranchCall.succeeded detachError
  rcases h : (env.branch id).result with _ | _ | _ <;> simp [h]

/-- Recording a failure never panics; a trip wipes whatever is left in the map. -/
theorem feedWatchdog_cases (h : c.feedWatchdog id env = some (c', os)) :
    ∃ tripped w, c.watchdog.recordFailure (env.branch id).returned = some (tripped, w) ∧
      (tripped = false ∧ c' = { c with watchdog := w } ∧ os = [.recordFailure id false] ∨
        tripped = true ∧ c' = { c with watchdog := w, connections := ∅ } ∧
          os = .recordFailure id true :: (drain c env ++ [.requestRestart])) := by
  obtain ⟨tripped, w, hw⟩ := c.watchdog.recordFailure_isSome (env.branch id).returned
  refine ⟨tripped, w, hw, ?_⟩
  cases tripped with
  | false =>
    simp only [Coordinator.feedWatchdog, hw, Option.bind_eq_bind, Option.bind_some,
      Bool.false_eq_true, if_false, Option.some.injEq, Prod.mk.injEq] at h
    exact .inl ⟨rfl, h.1.symm, h.2.symm⟩
  | true =>
    simp only [Coordinator.feedWatchdog, hw, Option.bind_eq_bind, Option.bind_some, if_true,
      Option.some.injEq, Prod.mk.injEq] at h
    exact .inr ⟨rfl, h.1.symm, h.2.symm⟩

theorem terminate_deleted_absent (h : c.connections.lookup id = none) :
    c.terminate id .deleted env = some (.error (.notFound id), c, []) := by
  simp [Coordinator.terminate, h, TerminateReason.policy]

theorem terminate_deleted_failed {state : ConnectionState}
    (h : c.connections.lookup id = some state) (hf : (env.branch id).succeeded = false) :
    c.terminate id .deleted env =
      some (.error (detachError (env.branch id)), c, [.removeBranch id (env.branch id)]) := by
  simp [Coordinator.terminate, Coordinator.teardown, h, TerminateReason.policy, hf,
    removeBranch_result, Coordinator.insert, Coordinator.remove, insert_erase h]

theorem terminate_deleted {state : ConnectionState}
    (h : c.connections.lookup id = some state) (hs : (env.branch id).succeeded = true) :
    c.terminate id .deleted env = some (.ok (), c.remove id,
      .removeBranch id (env.branch id) :: (state.notify env .gone id ++ [.ended id .deleted])) := by
  simp [Coordinator.terminate, Coordinator.teardown, h, TerminateReason.policy, hs,
    removeBranch_result]

theorem terminate_reaped {state : ConnectionState} (h : c.connections.lookup id = some state) :
    c.terminate id .reaped env = some (.ok (), c.remove id,
      state.notify env .gone id ++ [.ended id .reaped, .removeBranch id (env.branch id)]) := by
  simp [Coordinator.terminate, Coordinator.teardown, h, TerminateReason.policy,
    removeBranch_result]

theorem terminate_expired_absent (h : c.connections.lookup id = none) :
    c.terminate id .expired env = some (.ok (), c, []) := by
  simp [Coordinator.terminate, h, TerminateReason.policy]

theorem terminate_expired {state : ConnectionState} (h : c.connections.lookup id = some state) :
    c.terminate id .expired env =
      ((c.remove id).feedWatchdog id env).bind fun r => some (.ok (), r.1,
        state.notify env .expiredLeg id ++
          [.ended id .expired, .removeBranch id (env.branch id)] ++ r.2) := by
  simp [Coordinator.terminate, Coordinator.teardown, h, TerminateReason.policy,
    removeBranch_result]

/-- The entry is already consumed: only the branch and the watchdog are left. -/
theorem terminate_peerGone (h : c.connections.lookup id = none) :
    c.terminate id .peerGone env =
      (c.feedWatchdog id env).bind fun r => some (.ok (), r.1,
        [.ended id .peerGone, .removeBranch id (env.branch id)] ++ r.2) := by
  simp [Coordinator.terminate, Coordinator.teardown, h, TerminateReason.policy,
    removeBranch_result, Coordinator.remove, erase_absent h]

theorem feedWatchdog_settles (hc : Covers env.order c.connections)
    (h : c.feedWatchdog id env = some (c', os)) :
    ∃ tripped w, c.watchdog.recordFailure (env.branch id).returned = some (tripped, w) ∧
      ∃ os₂, os = .recordFailure id tripped :: os₂ ∧
        ∀ os₁, (∀ i, .recordFailure i true ∉ os₁) →
          Settles { c with watchdog := w } (os₁ ++ [.recordFailure id tripped]) os₂ c' := by
  obtain ⟨tripped, w, hw, ⟨rfl, rfl, rfl⟩ | ⟨rfl, rfl, rfl⟩⟩ := feedWatchdog_cases h
  · exact ⟨false, w, hw, [], rfl, fun os₁ hos => .calm (by simpa using hos)⟩
  · exact ⟨true, w, hw, _, rfl, fun os₁ _ =>
      @Settles.trip { c with watchdog := w } _ id env (by simp) hc⟩

theorem createConnection_move {reply : OfferReply}
    (h : c.createConnection id reply env = some (c', os)) :
    Move c ([.createConnection id reply], os) c' ∧ ∀ i, .recordFailure i true ∉ os := by
  unfold Coordinator.createConnection Coordinator.containsKey at h
  cases hl : c.connections.lookup id with
  | some state =>
    simp only [hl, Option.isSome_some, if_true, Option.some.injEq, Prod.mk.injEq] at h
    obtain ⟨rfl, rfl⟩ := h
    exact ⟨.reject _ (.duplicate hl), by simp [Sender.send]⟩
  | none =>
    simp only [hl, Option.isSome_none, Bool.false_eq_true, if_false] at h
    rcases hr : (env.branch id).result with _ | e | u
    · have hs : (env.branch id).succeeded = false := by simp [BranchCall.succeeded, hr]
      have he : attachError (env.branch id) = .pipelineBusy "branch attach/cleanup timed out" := by
        simp [attachError, hr]
      simp only [hr, Option.some.injEq, Prod.mk.injEq] at h
      obtain ⟨rfl, rfl⟩ := h
      exact ⟨he ▸ .reject _ (.attach hl hs), by simp [Sender.send]⟩
    · have hs : (env.branch id).succeeded = false := by simp [BranchCall.succeeded, hr]
      have he : attachError (env.branch id) = .ofPipelineError e := by simp [attachError, hr]
      simp only [hr, Option.some.injEq, Prod.mk.injEq] at h
      obtain ⟨rfl, rfl⟩ := h
      exact ⟨he ▸ .reject _ (.attach hl hs), by simp [Sender.send]⟩
    · have hs : (env.branch id).succeeded = true := by simp [BranchCall.succeeded, hr]
      simp only [hr, Option.bind_eq_bind, Option.bind_eq_some_iff, Coordinator.insert, hl,
        Option.some.injEq, Prod.mk.injEq] at h
      obtain ⟨deadline, hd, rfl, rfl⟩ := h
      exact ⟨.register hl hs hd, by simp⟩

theorem peerGone_settles {r : Except SignalError Unit} (hc : Covers env.order c.connections)
    (h : (c.remove id).terminate id .peerGone env = some (r, c', os)) :
    ∃ tripped w, c.watchdog.recordFailure (env.branch id).returned = some (tripped, w) ∧
      ∃ os₂, os = [.ended id .peerGone, .removeBranch id (env.branch id),
          .recordFailure id tripped] ++ os₂ ∧
        ∀ os₁, (∀ i, .recordFailure i true ∉ os₁) →
          Settles { c with connections := c.connections.erase id, watchdog := w }
            (os₁ ++ [.ended id .peerGone, .removeBranch id (env.branch id),
              .recordFailure id tripped]) os₂ c' := by
  rw [terminate_peerGone (by simp [Coordinator.remove])] at h
  obtain ⟨⟨d, os'⟩, hf, h⟩ := Option.bind_eq_some_iff.mp h
  simp only [Option.some.injEq, Prod.mk.injEq] at h
  obtain ⟨-, rfl, rfl⟩ := h
  obtain ⟨tripped, w, hw, os₂, rfl, hs⟩ := feedWatchdog_settles (c := c.remove id)
    (hc.erase id) hf
  refine ⟨tripped, w, hw, os₂, rfl, fun os₁ hos => ?_⟩
  have ht := hs (os₁ ++ [.ended id .peerGone, .removeBranch id (env.branch id)])
    (by simpa using hos)
  simpa [Coordinator.remove] using ht

theorem offerReceived_move {sdp : SdpOffer} {reply : AnswerReply}
    (hc : Covers env.order c.connections)
    (h : c.offerReceived id sdp reply env = some (c', os)) :
    ∃ os₁ c₁ os₂, Move c ([.offerReceived id sdp reply], os₁) c₁ ∧ Settles c₁ os₁ os₂ c' ∧
      os = os₁ ++ os₂ := by
  unfold Coordinator.offerReceived at h
  cases hl : c.connections.lookup id with
  | none =>
    simp only [hl, Option.some.injEq, Prod.mk.injEq] at h
    obtain ⟨rfl, rfl⟩ := h
    exact ⟨_, _, [], .reject (env.listening reply.channel) (.unknownOffer hl), .calm (by simp), rfl⟩
  | some state =>
    simp only [hl] at h
    cases state with
    | awaitingOffer whep d =>
      cases hb : env.listening whep.channel with
      | true =>
        simp only [ConnectionState.deliverOffer, hb, if_true, Option.bind_eq_bind,
          Option.bind_eq_some_iff, Coordinator.insert, Coordinator.remove, Finmap.lookup_erase,
          Option.some.injEq, Prod.mk.injEq] at h
        obtain ⟨deadline, hd, rfl, rfl⟩ := h
        exact ⟨_, _, [], .offer hl hd, .calm (by simp), by simp [hb]⟩
      | false =>
        simp only [ConnectionState.deliverOffer, hb, Bool.false_eq_true, if_false,
          Option.bind_eq_bind, Option.bind_eq_some_iff, Option.some.injEq, Prod.mk.injEq] at h
        obtain ⟨⟨r, d', os'⟩, ht, rfl, rfl⟩ := h
        obtain ⟨tripped, w, hw, os₂, rfl, hs⟩ := peerGone_settles hc ht
        have hs' := hs [.send whep.channel (.ok (.offer sdp)) false,
          .send reply.channel (.error (.gone id)) (env.listening reply.channel)] (by simp)
        exact ⟨_, _, os₂, .abandonOffer _ hl hw, hs', by simp [hb]⟩
    | awaitingAnswer whip d =>
      simp only [ConnectionState.deliverOffer, Coordinator.insert, Coordinator.remove,
        Finmap.lookup_erase, insert_erase hl, Option.some.injEq, Prod.mk.injEq] at h
      obtain ⟨rfl, rfl⟩ := h
      exact ⟨_, _, [], .reject (env.listening reply.channel) (.wrongOffer hl (by simp)),
        .calm (by simp), rfl⟩
    | established since =>
      simp only [ConnectionState.deliverOffer, Coordinator.insert, Coordinator.remove,
        Finmap.lookup_erase, insert_erase hl, Option.some.injEq, Prod.mk.injEq] at h
      obtain ⟨rfl, rfl⟩ := h
      exact ⟨_, _, [], .reject (env.listening reply.channel) (.wrongOffer hl (by simp)),
        .calm (by simp), rfl⟩

theorem answerReceived_move {sdp : SdpAnswer} {reply : UnitReply}
    (hc : Covers env.order c.connections)
    (h : c.answerReceived id sdp reply env = some (c', os)) :
    ∃ os₁ c₁ os₂, Move c ([.answerReceived id sdp reply], os₁) c₁ ∧ Settles c₁ os₁ os₂ c' ∧
      os = os₁ ++ os₂ := by
  unfold Coordinator.answerReceived at h
  cases hl : c.connections.lookup id with
  | none =>
    simp only [hl, Option.some.injEq, Prod.mk.injEq] at h
    obtain ⟨rfl, rfl⟩ := h
    exact ⟨_, _, [], .reject (env.listening reply.channel) (.unknownAnswer hl),
      .calm (by simp), rfl⟩
  | some state =>
    simp only [hl] at h
    cases state with
    | awaitingOffer whep d =>
      simp only [ConnectionState.deliverAnswer, Coordinator.insert, Coordinator.remove,
        Finmap.lookup_erase, insert_erase hl, Option.some.injEq, Prod.mk.injEq] at h
      obtain ⟨rfl, rfl⟩ := h
      exact ⟨_, _, [], .reject (env.listening reply.channel) (.wrongAnswer hl (by simp)),
        .calm (by simp), rfl⟩
    | awaitingAnswer whip d =>
      cases hb : env.listening whip.channel with
      | true =>
        simp only [ConnectionState.deliverAnswer, hb, if_true, Coordinator.insert,
          Coordinator.remove, Finmap.lookup_erase, Option.some.injEq, Prod.mk.injEq] at h
        obtain ⟨rfl, rfl⟩ := h
        exact ⟨_, _, [], .establish env.now (env.listening reply.channel) hl, .calm (by simp),
          by simp [hb]⟩
      | false =>
        simp only [ConnectionState.deliverAnswer, hb, Bool.false_eq_true, if_false,
          Option.bind_eq_bind, Option.bind_eq_some_iff, Option.some.injEq, Prod.mk.injEq] at h
        obtain ⟨⟨r, d', os'⟩, ht, rfl, rfl⟩ := h
        obtain ⟨tripped, w, hw, os₂, rfl, hs⟩ := peerGone_settles hc ht
        have hs' := hs [.send whip.channel (.ok (.answer sdp)) false,
          .send reply.channel (.error (.gone id)) (env.listening reply.channel)] (by simp)
        exact ⟨_, _, os₂, .abandonAnswer _ hl hw, hs', by simp [hb]⟩
    | established since =>
      simp only [ConnectionState.deliverAnswer, Coordinator.insert, Coordinator.remove,
        Finmap.lookup_erase, insert_erase hl, Option.some.injEq, Prod.mk.injEq] at h
      obtain ⟨rfl, rfl⟩ := h
      exact ⟨_, _, [], .reject (env.listening reply.channel) (.wrongAnswer hl (by simp)),
        .calm (by simp), rfl⟩

theorem removeConnection_move {reply : UnitReply}
    (h : c.removeConnection id reply env = some (c', os)) :
    Move c ([.removeConnection id reply], os) c' ∧ ∀ i, .recordFailure i true ∉ os := by
  simp only [Coordinator.removeConnection, Option.bind_eq_bind, Option.bind_eq_some_iff,
    Option.some.injEq, Prod.mk.injEq] at h
  obtain ⟨⟨r, d, os'⟩, ht, rfl, rfl⟩ := h
  cases hl : c.connections.lookup id with
  | none =>
    simp only [terminate_deleted_absent hl, Option.some.injEq, Prod.mk.injEq] at ht
    obtain ⟨rfl, rfl, rfl⟩ := ht
    exact ⟨.reject _ (.unknownRemove hl), by simp⟩
  | some state =>
    cases hs : (env.branch id).succeeded with
    | false =>
      simp only [terminate_deleted_failed hl hs, Option.some.injEq, Prod.mk.injEq] at ht
      obtain ⟨rfl, rfl, rfl⟩ := ht
      exact ⟨.reject _ (.detach hl hs), by simp⟩
    | true =>
      simp only [terminate_deleted hl hs, Option.some.injEq, Prod.mk.injEq] at ht
      obtain ⟨rfl, rfl, rfl⟩ := ht
      have hm := @Move.delete c id reply state _ env (env.listening reply.channel) hl hs
      exact ⟨by simpa [Coordinator.remove] using hm, by simp [ConnectionState.notify_eq]⟩

/-- Handling a command is one move that answers it or parks its reply,
followed by a wipe if that move tripped the watchdog. -/
theorem handle_move {cmd : Command} (hc : Covers env.order c.connections)
    (h : c.handle cmd env = some (c', os)) :
    ∃ os₁ c₁ os₂, Move c ([cmd], os₁) c₁ ∧ Settles c₁ os₁ os₂ c' ∧ os = os₁ ++ os₂ := by
  cases cmd with
  | createConnection id reply =>
    obtain ⟨hm, ht⟩ := createConnection_move h
    exact ⟨os, c', [], hm, .calm ht, by simp⟩
  | offerReceived id sdp reply => exact offerReceived_move hc h
  | answerReceived id sdp reply => exact answerReceived_move hc h
  | removeConnection id reply =>
    obtain ⟨hm, ht⟩ := removeConnection_move h
    exact ⟨os, c', [], hm, .calm ht, by simp⟩
  | listConnections reply =>
    simp only [Coordinator.handle, Option.some.injEq, Prod.mk.injEq] at h
    obtain ⟨rfl, rfl⟩ := h
    exact ⟨_, _, [], .list (c.listConnections env) (env.listening reply.channel),
      .calm (by simp), rfl⟩
  | reset reply =>
    simp only [Coordinator.handle, Coordinator.reset, Coordinator.resetAll, Option.some.injEq,
      Prod.mk.injEq] at h
    obtain ⟨rfl, rfl⟩ := h
    refine ⟨_, _, [], .reset env (env.listening reply.channel) hc, .calm ?_, ?_⟩
    · simp [drain, ConnectionState.notify_eq]
    · simp [drain, TerminateReason.policy]

theorem reapBranch_move (h : c.reapBranch id env = some (c', os)) :
    (c.connections.lookup id = none ∧ c' = c ∧ os = []) ∨
      (∃ state, c.connections.lookup id = some state ∧ c' = c.remove id ∧
        os = state.notify env .gone id ++
          [.ended id .reaped, .removeBranch id (env.branch id)]) := by
  unfold Coordinator.reapBranch Coordinator.containsKey at h
  cases hl : c.connections.lookup id with
  | none =>
    simp only [hl, Option.isSome_none, Bool.false_eq_true, if_false, Option.some.injEq,
      Prod.mk.injEq] at h
    exact .inl ⟨rfl, h.1.symm, h.2.symm⟩
  | some state =>
    simp only [hl, Option.isSome_some, if_true, terminate_reaped hl, Option.bind_eq_bind,
      Option.bind_some, Option.some.injEq, Prod.mk.injEq] at h
    exact .inr ⟨state, rfl, h.1.symm, h.2.symm⟩

theorem mem_expired (hc : Covers env.order c.connections) :
    id ∈ c.expired env ↔
      ∃ state, c.connections.lookup id = some state ∧ state.deadline.any (· ≤ env.now) = true := by
  simp only [Coordinator.expired, List.mem_map, List.mem_filter, Prod.exists, exists_and_right,
    exists_eq_right]
  simp only [hc.mem_walk]

theorem expired_nodup (hc : Covers env.order c.connections) : (c.expired env).Nodup := by
  refine (walk_keys_nodup c.connections hc.1).sublist ?_
  exact List.filter_sublist.map Prod.fst

theorem expired_present (hc : Covers env.order c.connections) :
    ∀ id ∈ c.expired env, id ∈ c.connections := by
  intro id hid
  obtain ⟨state, hl, -⟩ := (mem_expired hc).mp hid
  exact Finmap.mem_of_lookup_eq_some hl

theorem terminate_expired_cases {state : ConnectionState} {r : Except SignalError Unit}
    (hl : c.connections.lookup id = some state)
    (h : c.terminate id .expired env = some (r, c', os)) :
    ∃ tripped w, c.watchdog.recordFailure (env.branch id).returned = some (tripped, w) ∧
      (tripped = false ∧ c' = { c with connections := c.connections.erase id, watchdog := w } ∧
          os = state.notify env .expiredLeg id ++ [.ended id .expired,
            .removeBranch id (env.branch id), .recordFailure id false] ∨
        tripped = true ∧ c' = { c with connections := ∅, watchdog := w } ∧
          os = state.notify env .expiredLeg id ++ [.ended id .expired,
            .removeBranch id (env.branch id), .recordFailure id true] ++
              (drain (c.remove id) env ++ [.requestRestart])) := by
  rw [terminate_expired hl] at h
  obtain ⟨⟨d, os'⟩, hf, h⟩ := Option.bind_eq_some_iff.mp h
  simp only [Option.some.injEq, Prod.mk.injEq] at h
  obtain ⟨-, rfl, rfl⟩ := h
  obtain ⟨tripped, w, hw, ⟨rfl, rfl, rfl⟩ | ⟨rfl, rfl, rfl⟩⟩ := feedWatchdog_cases hf
  · exact ⟨false, w, hw, .inl ⟨rfl, rfl, by simp⟩⟩
  · exact ⟨true, w, hw, .inr ⟨rfl, rfl, by simp⟩⟩

theorem terminate_expired_move {state : ConnectionState} {r : Except SignalError Unit}
    (hc : Covers env.order c.connections) (hl : c.connections.lookup id = some state)
    (hd : state.deadline.any (· ≤ env.now) = true)
    (h : c.terminate id .expired env = some (r, c', os)) :
    ∃ os₁ c₁ os₂, Move c ([], os₁) c₁ ∧ Settles c₁ os₁ os₂ c' ∧ os = os₁ ++ os₂ ∧
      c₁.connections = c.connections.erase id := by
  rw [terminate_expired hl] at h
  obtain ⟨⟨d, os'⟩, hf, h⟩ := Option.bind_eq_some_iff.mp h
  simp only [Option.some.injEq, Prod.mk.injEq] at h
  obtain ⟨-, rfl, rfl⟩ := h
  obtain ⟨tripped, w, hw, os₂, rfl, hs⟩ := feedWatchdog_settles (c := c.remove id)
    (hc.erase id) hf
  have ht := hs (state.notify env .expiredLeg id ++
    [.ended id .expired, .removeBranch id (env.branch id)]) (by simp [ConnectionState.notify_eq])
  have hm := @Move.expire c id state (env.branch id) tripped w env hl hd hw
  exact ⟨_, _, os₂, hm, by simpa [Coordinator.remove] using ht, by simp, rfl⟩

theorem Settles.run {os₁ os₂ : List Effect} (h : Settles c os₁ os₂ c') :
    ∃ ms, Run Move c ms c' ∧ ms.flatMap Prod.fst = [] ∧ ms.flatMap Prod.snd = os₂ := by
  cases h with
  | calm => exact ⟨[], .nil _, rfl, rfl⟩
  | trip env _ hc => exact ⟨[_], .single (.trip env hc), rfl, by simp⟩

theorem Settles.of_calm {os₁ os₂ : List Effect} (h : Settles c os₁ os₂ c')
    (hn : ∀ id, .recordFailure id true ∉ os₁) : os₂ = [] ∧ c' = c := by
  cases h with
  | calm => exact ⟨rfl, rfl⟩
  | trip env ht hc => exact absurd ht (hn _)

theorem Settles.lookup {os₁ os₂ : List Effect} (h : Settles c os₁ os₂ c') (id : ConnectionId) :
    c'.connections.lookup id = c.connections.lookup id ∨ c'.connections.lookup id = none := by
  cases h with
  | calm => exact .inl rfl
  | trip => exact .inr rfl

/-- A sweep goes on over the ids that have left the map without a trace. -/
theorem terminateExpired_absent {ids : List ConnectionId}
    (h : ∀ id ∈ ids, c.connections.lookup id = none) :
    Coordinator.terminateExpired env ids c = some (c, []) := by
  induction ids with
  | nil => rfl
  | cons id ids ih =>
    simp [Coordinator.terminateExpired, terminate_expired_absent (h id (by simp)),
      ih fun i hi => h i (by simp [hi])]

theorem terminateExpired_cons {ids : List ConnectionId}
    (h : Coordinator.terminateExpired env (id :: ids) c = some (c', os)) :
    ∃ r d os₁ os₂, c.terminate id .expired env = some (r, d, os₁) ∧
      Coordinator.terminateExpired env ids d = some (c', os₂) ∧ os = os₁ ++ os₂ := by
  simp only [Coordinator.terminateExpired, Option.bind_eq_bind, Option.bind_eq_some_iff,
    Option.some.injEq, Prod.mk.injEq] at h
  obtain ⟨⟨r, d, os₁⟩, ht, ⟨d', os₂⟩, hr, rfl, rfl⟩ := h
  exact ⟨r, d, os₁, os₂, ht, hr, rfl⟩

/-- The first of some handshakes to expire: the sweep goes on without its entry,
or has nothing left to do after a trip. -/
theorem terminateExpired_first {ids : List ConnectionId} (hn : (id :: ids).Nodup)
    (hin : ∀ i ∈ id :: ids, i ∈ c.connections)
    (h : Coordinator.terminateExpired env (id :: ids) c = some (c', os)) :
    ∃ state tripped w os', c.connections.lookup id = some state ∧
      c.watchdog.recordFailure (env.branch id).returned = some (tripped, w) ∧
      os = state.notify env .expiredLeg id ++ [.ended id .expired,
        .removeBranch id (env.branch id), .recordFailure id tripped] ++ os' ∧
      (tripped = false ∧ (∀ i ∈ ids, i ∈ c.connections.erase id) ∧
          Coordinator.terminateExpired env ids
            { c with connections := c.connections.erase id, watchdog := w } = some (c', os') ∨
        tripped = true ∧ c' = { c with connections := ∅, watchdog := w } ∧
          os' = drain (c.remove id) env ++ [.requestRestart]) := by
  obtain ⟨state, hl⟩ := Finmap.mem_iff.mp (hin id (by simp))
  obtain ⟨r, d, os₁, os₂, ht, hr, rfl⟩ := terminateExpired_cons h
  have hid : id ∉ ids := (List.nodup_cons.mp hn).1
  obtain ⟨tripped, w, hw, ⟨rfl, rfl, rfl⟩ | ⟨rfl, rfl, rfl⟩⟩ := terminate_expired_cases hl ht
  · refine ⟨state, false, w, os₂, hl, hw, rfl, .inl ⟨rfl, fun i hi => ?_, hr⟩⟩
    exact Finmap.mem_erase.mpr ⟨fun he => hid (he ▸ hi), hin i (by simp [hi])⟩
  · rw [terminateExpired_absent (by simp)] at hr
    cases hr
    exact ⟨state, true, w, _, hl, hw, by simp, .inr ⟨rfl, rfl, rfl⟩⟩

theorem terminateExpired_moves {ids : List ConnectionId} (hc : Covers env.order c.connections)
    (hd : ∀ id ∈ ids, ∀ state, c.connections.lookup id = some state →
      state.deadline.any (· ≤ env.now) = true)
    (h : Coordinator.terminateExpired env ids c = some (c', os)) :
    ∃ ms, Run Move c ms c' ∧ ms.flatMap Prod.fst = [] ∧ ms.flatMap Prod.snd = os := by
  induction ids generalizing c os with
  | nil =>
    simp only [Coordinator.terminateExpired, Option.some.injEq, Prod.mk.injEq] at h
    obtain ⟨rfl, rfl⟩ := h
    exact ⟨[], .nil _, rfl, rfl⟩
  | cons id ids ih =>
    obtain ⟨r, d, os₀, os', ht, hr, rfl⟩ := terminateExpired_cons h
    have hds : ∀ i ∈ ids, ∀ state, c.connections.lookup i = some state →
        state.deadline.any (· ≤ env.now) = true := fun i hi => hd i (by simp [hi])
    cases hl : c.connections.lookup id with
    | none =>
      simp only [terminate_expired_absent hl, Option.some.injEq, Prod.mk.injEq] at ht
      obtain ⟨-, rfl, rfl⟩ := ht
      simpa using ih hc hds hr
    | some state =>
      obtain ⟨os₁, c₁, os₂, hm, hs, rfl, he⟩ :=
        terminate_expired_move hc hl (hd id (by simp) state hl) ht
      -- Ending one entry only shrinks the map, so the rest of the list is still due.
      have hsub : ∀ i state, d.connections.lookup i = some state →
          c.connections.lookup i = some state := by
        intro i state hi
        have hi' := (hs.lookup i).resolve_right (by simp [hi])
        rw [hi, he, lookup_erase] at hi'
        split at hi'
        · cases hi'
        · exact hi'.symm
      have hcd : Covers env.order d.connections := hc.mono fun i hi => by
        obtain ⟨state, hi⟩ := Finmap.mem_iff.mp hi
        exact Finmap.mem_of_lookup_eq_some (hsub i state hi)
      obtain ⟨ms, hms, hcmd, hos⟩ := hs.run
      obtain ⟨ns, hns, hcmd', hos'⟩ := ih hcd
        (fun i hi state his => hds i hi state (hsub i state his)) hr
      exact ⟨([], os₁) :: (ms ++ ns), .cons hm (hms.append hns), by simp [hcmd, hcmd'],
        by simp [hos, hos']⟩

end Inversion

def commands : Event → List Command
  | .command cmd _ => [cmd]
  | _ => []

/-- Every turn of the loop is a run of moves that answers or parks exactly
the commands it took, with exactly its effects. -/
theorem step_moves {c c' : Coordinator} {l : Event × List Effect} (h : c.Step l c') :
    ∃ ms, Run Move c ms c' ∧ ms.flatMap Prod.fst = commands l.1 ∧ ms.flatMap Prod.snd = l.2 := by
  obtain ⟨e, os⟩ := l
  obtain ⟨hc, ht⟩ := h
  cases e with
  | command cmd env =>
    obtain ⟨os₁, c₁, os₂, hm, hs, rfl⟩ := handle_move hc ht
    obtain ⟨ms, hms, hcmd, hos⟩ := hs.run
    exact ⟨_ :: ms, .cons hm hms, by simp [hcmd, commands], by simp [hos]⟩
  | branchFailure branch env =>
    obtain ⟨-, rfl, rfl⟩ | ⟨state, hl, rfl, rfl⟩ := reapBranch_move ht
    · exact ⟨[], .nil _, rfl, rfl⟩
    · have hm := @Move.reap c _ state (env.branch branch.intoString) env hl
      exact ⟨[_], .single hm, rfl, by simp⟩
  | sweepTick env =>
    refine terminateExpired_moves hc ?_ ht
    intro id hid state hl
    obtain ⟨state', hl', hd⟩ := (mem_expired hc).mp hid
    rw [hl] at hl'
    cases hl'
    exact hd

/-- The commands taken and the effects made in a run, in order. -/
def taken (ls : List (Event × List Effect)) : List Command := ls.flatMap fun l => commands l.1

def trace (ls : List (Event × List Effect)) : List Effect := ls.flatMap Prod.snd

@[simp] theorem taken_append (ls ms : List (Event × List Effect)) :
    taken (ls ++ ms) = taken ls ++ taken ms := List.flatMap_append

@[simp] theorem trace_append (ls ms : List (Event × List Effect)) :
    trace (ls ++ ms) = trace ls ++ trace ms := List.flatMap_append

@[simp] theorem taken_single (l : Event × List Effect) : taken [l] = commands l.1 := by
  simp [taken]

@[simp] theorem trace_single (l : Event × List Effect) : trace [l] = l.2 := by
  simp [trace]

/-- A property of the commands taken, the effects made and the state reached
holds after every run if each move extends it. -/
theorem move_history {P : List Command → List Effect → Coordinator → Prop} {c c' : Coordinator}
    {ls : List (Event × List Effect)} (h : Run Coordinator.Step c ls c') (start : P [] [] c)
    (next : ∀ {cs os d cs' os' d'}, P cs os d → Move d (cs', os') d' →
      P (cs ++ cs') (os ++ os') d') :
    P (taken ls) (trace ls) c' := by
  refine h.history (P := fun ls d => P (taken ls) (trace ls) d) start ?_
  intro ls d d' l hp hs
  obtain ⟨ms, hm, hcmd, hos⟩ := step_moves hs
  have hr := hm.history (P := fun ms e => P (taken ls ++ ms.flatMap Prod.fst)
    (trace ls ++ ms.flatMap Prod.snd) e) (by simpa using hp) fun hq hmv => by
      simpa [List.append_assoc] using next hq hmv
  rw [hcmd, hos] at hr
  simpa [taken, trace] using hr

theorem run_unique {c d d' : Coordinator} {ls ms : List (Event × List Effect)}
    (h : Run Coordinator.Step c ls d) (g : Run Coordinator.Step c ms d')
    (he : ls.map Prod.fst = ms.map Prod.fst) : ls = ms ∧ d = d' := by
  induction h generalizing ms with
  | nil c =>
    obtain rfl : ms = [] := List.map_eq_nil_iff.mp he.symm
    exact ⟨rfl, run_nil.mp g⟩
  | @cons c u d l ls hs _ ih =>
    obtain ⟨m, ms, rfl, hm, he'⟩ := List.map_eq_cons_iff.mp he.symm
    obtain ⟨v, hs', g'⟩ := run_cons.mp g
    obtain ⟨e, os⟩ := l
    obtain ⟨e', os'⟩ := m
    obtain rfl : e' = e := hm
    obtain ⟨rfl, rfl⟩ := Prod.mk.inj (Option.some.inj (hs.2.symm.trans hs'.2))
    obtain ⟨hls, rfl⟩ := ih g' he'.symm
    exact ⟨by rw [hls], rfl⟩

end SrtWhep.Moves
