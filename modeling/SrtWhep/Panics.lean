import SrtWhep.Moves

namespace SrtWhep.Panics

open Library.Runs Library.Tables Moves

/-- The event's clock readings, its own and those of its branch calls, are
no later than a given one. -/
def Timely (latest : Instant) (e : Event) : Prop :=
  e.env.now ≤ latest ∧ ∀ id, (e.env.branch id).returned ≤ latest

/-- The loop starts, and no event that it can meet in any run makes a turn
panic, as long as the clock reads at most `latest`. -/
def NeverPanics (config : CoordinatorConfig) (latest : Instant) : Prop :=
  ∃ c₀, Coordinator.start config = some c₀ ∧
    ∀ ls c, Run Coordinator.Step c₀ ls c → (∀ l ∈ ls, Timely latest l.1) →
      ∀ e, Covers e.env.order c.connections → Timely latest e → (c.turn e).isSome = true

def Representable (config : CoordinatorConfig) (latest : Instant) : Prop :=
  latest + config.offerTimeout < Instant.horizon ∧ latest + config.answerTimeout < Instant.horizon

section Turns

variable {c : Coordinator} {env : Env} {id : ConnectionId}

theorem checkedAdd_isSome {t : Instant} {latest : Instant} {d : Duration} (ht : t ≤ latest)
    (hd : latest + d < Instant.horizon) : ∃ u, t.checkedAdd d = some u :=
  ⟨t + d, Instant.checkedAdd_eq_some.mpr ⟨lt_of_le_of_lt (Nat.add_le_add_right ht d) hd, rfl⟩⟩

theorem feedWatchdog_isSome : (c.feedWatchdog id env).isSome = true := by
  obtain ⟨tripped, w, hw⟩ := c.watchdog.recordFailure_isSome (env.branch id).returned
  cases tripped <;> simp [Coordinator.feedWatchdog, hw]

theorem terminate_isSome (reason : TerminateReason) :
    (c.terminate id reason env).isSome = true := by
  unfold Coordinator.terminate
  split
  · rfl
  · rfl
  · split
    · rfl
    · rename_i d os _
      obtain ⟨r, hr⟩ := Option.isSome_iff_exists.mp
        (@feedWatchdog_isSome d env id)
      simp only [hr, Option.bind_eq_bind, Option.bind_some]
      split <;> rfl

theorem terminateExpired_isSome (ids : List ConnectionId) :
    (Coordinator.terminateExpired env ids c).isSome = true := by
  induction ids generalizing c with
  | nil => rfl
  | cons id ids ih =>
    obtain ⟨⟨r, d, os⟩, ht⟩ := Option.isSome_iff_exists.mp (terminate_isSome (c := c) .expired)
    obtain ⟨⟨d', os'⟩, hr⟩ := Option.isSome_iff_exists.mp (ih (c := d))
    rw [Coordinator.terminateExpired, ht]
    simp only [Option.bind_eq_bind, Option.bind_some, hr, Option.isSome_some]

theorem answerReceived_isSome {sdp : SdpAnswer} {reply : UnitReply} :
    (c.answerReceived id sdp reply env).isSome = true := by
  unfold Coordinator.answerReceived
  split
  · rfl
  · simp only [Coordinator.remove, Option.bind_eq_bind]
    split
    · rfl
    · obtain ⟨r, hr⟩ := Option.isSome_iff_exists.mp (@terminate_isSome
        { c with connections := c.connections.erase id } env id .peerGone)
      simp only [hr, Option.bind_some, Option.isSome_some]
    · rfl

theorem createConnection_eq_none {reply : OfferReply} : c.createConnection id reply env = none ↔
    c.containsKey id = false ∧ (env.branch id).result = some (.ok ()) ∧
      (env.branch id).returned.checkedAdd c.config.offerTimeout = none := by
  unfold Coordinator.createConnection
  split
  · simp_all
  · rename_i hk
    obtain ⟨result, returned⟩ := env.branch id
    obtain _ | e | _ := result
    · simp
    · simp
    · cases hd : returned.checkedAdd c.config.offerTimeout <;> simp [hk, hd]

theorem offerReceived_eq_none {sdp : SdpOffer} {reply : AnswerReply} :
    c.offerReceived id sdp reply env = none ↔
      ∃ state sent, c.connections.lookup id = some state ∧
        state.deliverOffer env sdp = (.ok .delivered, sent) ∧
        env.now.checkedAdd c.config.answerTimeout = none := by
  unfold Coordinator.offerReceived
  split
  · simp_all
  · rename_i state hl
    split
    · rename_i sent hs
      cases hd : env.now.checkedAdd c.config.answerTimeout <;> simp [Coordinator.remove, hl, hs, hd]
    · rename_i sent hs
      obtain ⟨r, hr⟩ :=
        Option.isSome_iff_exists.mp (@terminate_isSome (c.remove id) env id .peerGone)
      simp [hl, hs, hr]
    · rename_i other sent hs
      simp [hl, hs]

theorem panicked_offer {sdp : SdpOffer} {reply : AnswerReply} {os : List Effect} :
    c.panicked (.command (.offerReceived id sdp reply) env) = some os ↔
      ∃ state, c.connections.lookup id = some state ∧
        state.deliverOffer env sdp = (.ok .delivered, os) ∧
        env.now.checkedAdd c.config.answerTimeout = none := by
  simp only [Coordinator.panicked, Option.bind_eq_bind, Option.bind_eq_some_iff]
  refine exists_congr fun state => and_congr_right fun _ => ?_
  split
  · rename_i sent hs
    simp [hs, and_comm]
  · rename_i hs
    exact iff_of_false (by simp) fun ⟨ho, _⟩ => hs _ ho

theorem panicked_cases {e : Event} {os : List Effect} (h : c.panicked e = some os) :
    (∃ id reply env, e = .command (.createConnection id reply) env ∧
        os = [.addBranch id (env.branch id)]) ∨
      ∃ id sdp reply env whep deadline, e = .command (.offerReceived id sdp reply) env ∧
        c.connections.lookup id = some (.awaitingOffer whep deadline) ∧
        env.listening whep.channel = true ∧ os = [.send whep.channel (.ok (.offer sdp)) true] := by
  cases e with
  | command cmd env =>
    cases cmd with
    | createConnection id reply =>
      obtain ⟨-, h⟩ := Option.ite_none_right_eq_some.mp h
      exact .inl ⟨id, reply, env, rfl, (Option.some.inj h).symm⟩
    | offerReceived id sdp reply =>
      obtain ⟨state, hl, hd, -⟩ := panicked_offer.mp h
      cases state with
      | awaitingOffer whep deadline =>
        cases hb : env.listening whep.channel with
        | true =>
          simp only [ConnectionState.deliverOffer, hb, Sender.send_offer, Prod.mk.injEq] at hd
          exact .inr ⟨id, sdp, reply, env, whep, deadline, rfl, hl, hb, hd.2.symm⟩
        | false => simp [ConnectionState.deliverOffer, hb] at hd
      | _ => cases hd
    | _ => cases h
  | _ => cases h

/-- Deadlines are the only arithmetic of a turn that can fail. -/
theorem turn_eq_none {e : Event} : c.turn e = none ↔ ∃ os, c.panicked e = some os := by
  have hnever : ∀ {o : Option (Coordinator × List Effect)}, o.isSome = true → o ≠ none := by
    rintro o h rfl
    cases h
  cases e with
  | command cmd env =>
    cases cmd with
    | createConnection id reply =>
      rw [Coordinator.turn, Coordinator.handle, createConnection_eq_none]
      simp [Coordinator.panicked]
    | offerReceived id sdp reply =>
      rw [Coordinator.turn, Coordinator.handle, offerReceived_eq_none, exists_comm]
      exact exists_congr fun os => panicked_offer.symm
    | answerReceived id sdp reply =>
      simpa [Coordinator.panicked, Coordinator.turn, Coordinator.handle] using
        hnever answerReceived_isSome
    | removeConnection id reply =>
      obtain ⟨r, hr⟩ := Option.isSome_iff_exists.mp (@terminate_isSome c env id .deleted)
      simp [Coordinator.panicked, Coordinator.turn, Coordinator.handle,
        Coordinator.removeConnection, hr]
    | listConnections reply => simp [Coordinator.panicked, Coordinator.turn, Coordinator.handle]
    | reset reply => simp [Coordinator.panicked, Coordinator.turn, Coordinator.handle]
  | branchFailure branch env =>
    obtain ⟨r, hr⟩ := Option.isSome_iff_exists.mp
      (@terminate_isSome c env branch.intoString .reaped)
    simp only [Coordinator.panicked, Coordinator.turn, Coordinator.reapBranch, hr,
      Option.bind_eq_bind, Option.bind_some]
    split <;> simp
  | sweepTick env =>
    simpa [Coordinator.panicked, Coordinator.turn, Coordinator.sweepExpired] using
      hnever (terminateExpired_isSome (c.expired env))

theorem turn_isSome {e : Event} {latest : Instant} (ht : Timely latest e)
    (hd : Representable c.config latest) : (c.turn e).isSome = true := by
  by_contra hn
  obtain ⟨os, ho⟩ := turn_eq_none.mp (Option.not_isSome_iff_eq_none.mp hn)
  cases e with
  | command cmd env =>
    cases cmd with
    | createConnection id reply =>
      obtain ⟨u, hu⟩ := checkedAdd_isSome (ht.2 id) hd.1
      obtain ⟨⟨-, -, hno⟩, -⟩ := Option.ite_none_right_eq_some.mp ho
      cases hu.symm.trans hno
    | offerReceived id sdp reply =>
      obtain ⟨u, hu⟩ := checkedAdd_isSome ht.1 hd.2
      obtain ⟨state, -, -, hno⟩ := panicked_offer.mp ho
      cases hu.symm.trans hno
    | _ => cases ho
  | _ => cases ho

end Turns

theorem move_config {c c' : Coordinator} {l : List Command × List Effect} (h : Move c l c') :
    c'.config = c.config := by
  cases h <;> rfl

theorem run_config {c c' : Coordinator} {ls : List (Event × List Effect)}
    (h : Run Coordinator.Step c ls c') : c'.config = c.config :=
  move_history (P := fun _ _ d => d.config = c.config) h rfl fun hp hm => (move_config hm).trans hp

theorem start_eq_some {config : CoordinatorConfig} {c : Coordinator} :
    Coordinator.start config = some c ↔ config.sweepInterval ≠ 0 ∧ c = .new config := by
  by_cases h : config.sweepInterval = 0 <;> simp [Coordinator.start, h, eq_comm]

theorem offer_deadline {config : CoordinatorConfig} {latest : Instant}
    (h : NeverPanics config latest) : latest + config.offerTimeout < Instant.horizon := by
  obtain ⟨c₀, hs, hn⟩ := h
  obtain rfl := (start_eq_some.mp hs).2
  have ht := hn [] _ (.nil _) (by simp) (.command (.createConnection "a" ⟨0⟩) (.calm latest []))
    (.empty .nil) ⟨le_refl latest, fun _ => le_refl latest⟩
  by_contra hlt
  have hno : latest.checkedAdd config.offerTimeout = none := if_neg hlt
  simp [Coordinator.turn, Coordinator.handle, Coordinator.createConnection,
    Coordinator.containsKey, Coordinator.new, Env.calm, hno] at ht

theorem answer_deadline {config : CoordinatorConfig} {latest : Instant}
    (h : NeverPanics config latest) : latest + config.answerTimeout < Instant.horizon := by
  have hoff := offer_deadline h
  obtain ⟨c₀, hs, hn⟩ := h
  obtain rfl := (start_eq_some.mp hs).2
  have hd : Instant.checkedAdd 0 config.offerTimeout = some (0 + config.offerTimeout) :=
    if_pos (lt_of_le_of_lt (Nat.add_le_add_right (Nat.zero_le latest) _) hoff)
  have hr : Coordinator.Step (.new config)
      (.command (.createConnection "a" ⟨0⟩) (.calm 0 []), [.addBranch "a" ⟨some (.ok ()), 0⟩])
      (Coordinator.insert (.new config) "a" (.awaitingOffer ⟨0⟩ (0 + config.offerTimeout))).1 := by
    refine ⟨.empty .nil, ?_⟩
    simp [Coordinator.turn, Coordinator.handle, Coordinator.createConnection,
      Coordinator.containsKey, Coordinator.new, Coordinator.insert, Env.calm, hd]
  have ht := hn _ _ (.single hr) (by simp [Timely, Event.env, Env.calm])
    (.command (.offerReceived "a" default ⟨1⟩) (.calm latest ["a"]))
    (Covers.insert (.empty (List.nodup_singleton "a")) (List.mem_singleton_self "a") _)
    ⟨le_refl latest, fun _ => le_refl latest⟩
  by_contra hlt
  have hno : latest.checkedAdd config.answerTimeout = none := if_neg hlt
  simp [Coordinator.turn, Coordinator.handle, Coordinator.offerReceived, Coordinator.insert,
    Coordinator.new, ConnectionState.deliverOffer, Coordinator.remove, Env.calm, hno] at ht

/-- The coordinator never panics exactly when the sweep has a period and both
timeouts fit behind the latest clock reading. -/
theorem never_panics_iff (args : CoordinatorArgs) (latest : Instant) :
    NeverPanics args.toConfig latest ↔
      args.sweepIntervalMs ≠ 0 ∧ Representable args.toConfig latest := by
  constructor
  · intro h
    refine ⟨?_, offer_deadline h, answer_deadline h⟩
    obtain ⟨c₀, hs, -⟩ := h
    exact mt args.sweepInterval_eq_zero.mpr (start_eq_some.mp hs).1
  · rintro ⟨hi, hd⟩
    refine ⟨_, start_eq_some.mpr ⟨mt args.sweepInterval_eq_zero.mp hi, rfl⟩, ?_⟩
    intro ls c hr _ e _ ht
    have hc : c.config = args.toConfig := run_config hr
    exact turn_isSome ht (by rwa [hc])

/-- Accepted values panic at start-up, on the first viewer, and on the first
viewer's offer. -/
theorem knobs_panic :
    ¬ NeverPanics ({ sweepIntervalMs := 0 } : CoordinatorArgs).toConfig 0 ∧
      ¬ NeverPanics ({ offerTimeoutSec := 0xffffffffffffffff } : CoordinatorArgs).toConfig 0 ∧
      ¬ NeverPanics ({ answerTimeoutSec := 0xffffffffffffffff } : CoordinatorArgs).toConfig 0 := by
  refine ⟨fun ⟨c₀, hs, _⟩ => (start_eq_some.mp hs).1 (by decide), fun h => ?_, fun h => ?_⟩
  · exact absurd (offer_deadline h) (by decide)
  · exact absurd (answer_deadline h) (by decide)

end SrtWhep.Panics
