import SrtWhep.Coordinator

namespace SrtWhep.Receivers

variable {c c' : Coordinator} {env : Env} {e : Event} {os os' : List Effect} {id : ConnectionId}

def Heard (env : Env) (os : List Effect) : Prop :=
  ∀ ch r b, .send ch r b ∈ os → b = env.listening ch

@[simp] theorem heard_nil : Heard env [] := fun _ _ _ h => by cases h

@[simp] theorem heard_cons {o : Effect} : Heard env (o :: os) ↔
    (∀ ch r b, o = .send ch r b → b = env.listening ch) ∧ Heard env os := by
  constructor
  · intro h
    exact ⟨fun ch r b ho => h ch r b (by simp [ho]), fun ch r b ho => h ch r b (by simp [ho])⟩
  · rintro ⟨ho, hos⟩ ch r b hm
    obtain he | hm := List.mem_cons.mp hm
    · exact ho ch r b he.symm
    · exact hos ch r b hm

@[simp] theorem heard_append : Heard env (os ++ os') ↔ Heard env os ∧ Heard env os' := by
  induction os with
  | nil => simp
  | cons o os ih => simp [ih, and_assoc]

theorem heard_notify (state : ConnectionState) (n : WaiterNotice) :
    Heard env (state.notify env n id) := by
  rw [ConnectionState.notify_eq]
  cases state.parked <;> simp

theorem heard_insert {state : ConnectionState} : Heard env (c.insert id state).2 := by
  rw [Coordinator.insert]
  cases c.connections.lookup id <;> simp

theorem heard_resetAll : Heard env (c.resetAll env).2 := by
  intro ch r b h
  obtain ⟨⟨i, state⟩, -, h⟩ := List.mem_flatMap.mp h
  obtain h | h := List.mem_append.mp h
  · exact heard_notify state _ ch r b h
  · simp at h

theorem heard_teardown {state : Option ConnectionState} {reason : TerminateReason} :
    Heard env (c.teardown id state reason env).2.2 := by
  have hnotice :
      Heard env (state.toList.flatMap fun s => s.notify env reason.policy.waiter id) := by
    cases state with
    | none => simp
    | some s => simpa using heard_notify s _
  have hcall : ∀ ch r b, (Coordinator.removeBranchBounded id env).2 = .send ch r b →
      b = env.listening ch := by
    intro ch r b h
    cases h
  unfold Coordinator.teardown
  dsimp only
  split
  · exact heard_cons.mpr ⟨hcall, heard_insert⟩
  · simpa using hcall
  · simpa [hnotice] using hcall
  · simpa [hnotice] using hcall
  · simp [hnotice]

theorem heard_feedWatchdog (h : c.feedWatchdog id env = some (c', os)) : Heard env os := by
  simp only [Coordinator.feedWatchdog, Option.bind_eq_bind, Option.bind_eq_some_iff] at h
  obtain ⟨⟨tripped, w⟩, -, h⟩ := h
  cases tripped with
  | true =>
    obtain ⟨-, rfl⟩ := Prod.mk.inj (Option.some.inj h)
    simpa using heard_resetAll
  | false =>
    obtain ⟨-, rfl⟩ := Prod.mk.inj (Option.some.inj h)
    simp

theorem heard_terminate {reason : TerminateReason} {r : Except SignalError Unit}
    (h : c.terminate id reason env = some (r, c', os)) : Heard env os := by
  unfold Coordinator.terminate at h
  split at h
  · cases h
    simp
  · cases h
    simp
  · have ht := @heard_teardown (c.remove id) env id (c.connections.lookup id) reason
    revert h ht
    rcases (c.remove id).teardown id (c.connections.lookup id) reason env with ⟨_ | u, d, os₁⟩
    · intro h ht
      cases h
      exact ht
    · intro h ht
      by_cases hf : reason.policy.feedsWatchdog = true
      · simp only [hf, if_true, Option.bind_eq_bind, Option.bind_eq_some_iff, Option.some.injEq,
          Prod.mk.injEq] at h
        obtain ⟨⟨d', os₂⟩, hw, -, -, rfl⟩ := h
        exact heard_append.mpr ⟨ht, heard_feedWatchdog hw⟩
      · simp only [hf, Bool.false_eq_true, if_false, Option.some.injEq, Prod.mk.injEq] at h
        obtain ⟨-, -, rfl⟩ := h
        exact ht

theorem heard_terminateExpired {ids : List ConnectionId}
    (h : Coordinator.terminateExpired env ids c = some (c', os)) : Heard env os := by
  induction ids generalizing c os with
  | nil =>
    cases h
    simp
  | cons id ids ih =>
    simp only [Coordinator.terminateExpired, Option.bind_eq_bind, Option.bind_eq_some_iff,
      Option.some.injEq, Prod.mk.injEq] at h
    obtain ⟨⟨r, d, os₁⟩, ht, ⟨d', os₂⟩, hr, rfl, rfl⟩ := h
    exact heard_append.mpr ⟨heard_terminate ht, ih hr⟩

@[simp] theorem heard_send {T : Type} [Carried T] (s : Sender T) (r : Except SignalError T) :
    Heard env [s.send env r] := by
  rintro ch r' b h
  obtain h := List.mem_singleton.mp h
  cases h
  rfl

theorem heard_deliverOffer {state : ConnectionState} {sdp : SdpOffer} :
    Heard env (state.deliverOffer env sdp).2 := by
  cases state <;> simp [ConnectionState.deliverOffer]

theorem heard_deliverAnswer {state : ConnectionState} {sdp : SdpAnswer} :
    Heard env (state.deliverAnswer env sdp).2 := by
  cases state <;> simp [ConnectionState.deliverAnswer]

theorem heard_offerReceived {sdp : SdpOffer} {reply : AnswerReply}
    (h : c.offerReceived id sdp reply env = some (c', os)) : Heard env os := by
  unfold Coordinator.offerReceived at h
  cases hl : c.connections.lookup id with
  | none =>
    simp only [hl] at h
    cases h
    exact heard_send reply (.error (.notFound id))
  | some state =>
    simp only [hl] at h
    have hsent := @heard_deliverOffer env state sdp
    revert h hsent
    rcases state.deliverOffer env sdp with ⟨other | _ | _, sent⟩
    · intro h hsent
      cases h
      simpa [hsent] using heard_insert
    · intro h hsent
      simp only [Option.bind_eq_bind, Option.bind_eq_some_iff, Option.some.injEq,
        Prod.mk.injEq] at h
      obtain ⟨deadline, -, -, rfl⟩ := h
      exact heard_append.mpr ⟨hsent, heard_insert⟩
    · intro h hsent
      simp only [Option.bind_eq_bind, Option.bind_eq_some_iff, Option.some.injEq,
        Prod.mk.injEq] at h
      obtain ⟨⟨r, d, os₁⟩, ht, -, rfl⟩ := h
      simpa [hsent] using heard_terminate ht

theorem heard_answerReceived {sdp : SdpAnswer} {reply : UnitReply}
    (h : c.answerReceived id sdp reply env = some (c', os)) : Heard env os := by
  unfold Coordinator.answerReceived at h
  cases hl : c.connections.lookup id with
  | none =>
    simp only [hl] at h
    cases h
    exact heard_send reply (.error (.notFound id))
  | some state =>
    simp only [hl] at h
    have hsent := @heard_deliverAnswer env state sdp
    revert h hsent
    rcases state.deliverAnswer env sdp with ⟨other | _ | _, sent⟩
    · intro h hsent
      cases h
      simpa [hsent] using heard_insert
    · intro h hsent
      cases h
      simpa [hsent] using heard_insert
    · intro h hsent
      simp only [Option.bind_eq_bind, Option.bind_eq_some_iff, Option.some.injEq,
        Prod.mk.injEq] at h
      obtain ⟨⟨r, d, os₁⟩, ht, -, rfl⟩ := h
      simpa [hsent] using heard_terminate ht

theorem heard_createConnection {reply : OfferReply}
    (h : c.createConnection id reply env = some (c', os)) : Heard env os := by
  unfold Coordinator.createConnection at h
  split at h
  · cases h
    simp
  · rcases hr : (env.branch id).result with _ | err | u
    · simp only [hr] at h
      cases h
      simp
    · simp only [hr] at h
      cases h
      simp
    · simp only [hr, Option.bind_eq_bind, Option.bind_eq_some_iff, Option.some.injEq,
        Prod.mk.injEq] at h
      obtain ⟨deadline, -, -, rfl⟩ := h
      simpa using heard_insert

theorem step_heard (h : c.Step (e, os) c') : Heard e.env os := by
  have ht := h.2
  cases e with
  | command cmd env =>
    cases cmd with
    | createConnection id reply => exact heard_createConnection ht
    | offerReceived id sdp reply => exact heard_offerReceived ht
    | answerReceived id sdp reply => exact heard_answerReceived ht
    | removeConnection id reply =>
      simp only [Coordinator.turn, Coordinator.handle, Coordinator.removeConnection,
        Option.bind_eq_bind, Option.bind_eq_some_iff, Option.some.injEq, Prod.mk.injEq] at ht
      obtain ⟨⟨r, d, os₁⟩, ht, -, rfl⟩ := ht
      exact heard_append.mpr ⟨heard_terminate ht, heard_send reply r⟩
    | listConnections reply =>
      cases ht
      exact heard_send reply _
    | reset reply =>
      cases ht
      refine heard_append.mpr ⟨heard_append.mpr ⟨heard_resetAll, ?_⟩, heard_send reply _⟩
      simp
  | branchFailure branch env =>
    change c.reapBranch branch.intoString env = some (c', os) at ht
    unfold Coordinator.reapBranch at ht
    split at ht
    · simp only [Option.bind_eq_bind, Option.bind_eq_some_iff, Option.some.injEq,
        Prod.mk.injEq] at ht
      obtain ⟨⟨r, d, os₁⟩, ht, -, rfl⟩ := ht
      exact heard_terminate ht
    · cases ht
      simp
  | sweepTick env => exact heard_terminateExpired ht

end SrtWhep.Receivers
