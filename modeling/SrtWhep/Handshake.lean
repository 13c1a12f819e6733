import SrtWhep.Handshake.Incarnations

namespace SrtWhep.Handshake

open Library.Runs Library.Tables Moves Deliveries

/-- What the two sides of a viewer know, as its entry shows it. -/
structure Agreement (id : ConnectionId) (whep : OfferReply) (ms : List (Event × List Effect))
    (state : ConnectionState) : Prop where
  waiting : ∀ w d, state = .awaitingOffer w d → w = whep ∧ oks whep.channel (trace ms) = []
  offered : (∃ o whip, .offerReceived id o whip ∈ taken ms ∧
      oks whep.channel (trace ms) = [(.offer o, true)]) ↔ ∀ w d, state ≠ .awaitingOffer w d
  parked : ∀ whip d, state = .awaitingAnswer whip d → ∃ o, .offerReceived id o whip ∈ taken ms ∧
      oks whep.channel (trace ms) = [(.offer o, true)]
  established : (∃ o a, Exchanged id whep ms o a) ↔ ∃ since, state = .established since
  accepted : ∀ as, accepted id ms = as → as = [] ∧ (∀ since, state ≠ .established since) ∨
      ∃ o a, as = [a] ∧ Exchanged id whep ms o a

theorem Exchanged.offered {id : ConnectionId} {whep : OfferReply}
    {ms : List (Event × List Effect)} {o : SdpOffer} {a : SdpAnswer}
    (h : Exchanged id whep ms o a) : ∃ o whip, .offerReceived id o whip ∈ taken ms ∧
      oks whep.channel (trace ms) = [(.offer o, true)] := by
  obtain ⟨ms₁, ms₂, whip, rfl, hm, ho, -⟩ := h
  exact ⟨o, whip, by simp [hm], ho⟩

theorem not_exchanged {id : ConnectionId} {whep : OfferReply} {ms : List (Event × List Effect)}
    {o : SdpOffer} {a : SdpAnswer}
    (hw : ∀ o whip, .offerReceived id o whip ∈ taken ms → oks whip.channel (trace ms) = []) :
    ¬ Exchanged id whep ms o a := by
  rintro ⟨ms₁, ms₂, whip, rfl, hm, -, -, -, hw₂⟩
  have hnil := hw o whip (by simp [hm])
  simp [hw₂] at hnil

theorem Stage.agreement {id : ConnectionId} {whep : OfferReply}
    {ms : List (Event × List Effect)} {state : ConnectionState} (h : Stage id whep ms state) :
    Agreement id whep ms state := by
  cases h with
  | @awaitingOffer d ho hw ha =>
    refine ⟨?_, ?_, by simp, ?_, ?_⟩
    · rintro w d' ⟨⟩
      exact ⟨rfl, ho⟩
    · simp [ho]
    · exact ⟨fun ⟨o, a, he⟩ => absurd he (not_exchanged hw), by simp⟩
    · rintro as rfl
      exact .inl ⟨ha, by simp⟩
  | @awaitingAnswer o whip d hm ho hw ha =>
    refine ⟨by simp, ⟨by simp, fun _ => ⟨o, whip, hm, ho⟩⟩, ?_, ?_, ?_⟩
    · rintro whip' d' ⟨⟩
      exact ⟨o, hm, ho⟩
    · exact ⟨fun ⟨o, a, he⟩ => absurd he (not_exchanged hw), by simp⟩
    · rintro as rfl
      exact .inl ⟨ha, by simp⟩
  | @established o a since he ha =>
    refine ⟨by simp, ⟨by simp, fun _ => he.offered⟩, by simp, ⟨by simp, fun _ => ⟨o, a, he⟩⟩, ?_⟩
    rintro as rfl
    exact .inr ⟨o, a, ha, he⟩

/-- What one more turn of the loop may send, and to whom. -/
structure TurnAgreement (config : CoordinatorConfig) (ls : List (Event × List Effect))
    (c : Coordinator) (l : Event × List Effect) (c' : Coordinator) : Prop where
  advances : ∀ id state state', c.connections.lookup id = some state →
    c'.connections.lookup id = some state' → Advances state state'
  offers : ∀ ch o b, .send ch (.ok (.offer o)) b ∈ l.2 → ∃ id whip env whep ls₀ ms,
    l.1 = .command (.offerReceived id o whip) env ∧ ls = ls₀ ++ ms ∧
      Incarnation config id whep ls₀ ms c ∧ ch = whep.channel
  answers : ∀ ch a b, .send ch (.ok (.answer a)) b ∈ l.2 → ∃ id reply env whep ls₀ ms o whip,
    l.1 = .command (.answerReceived id a reply) env ∧ ls = ls₀ ++ ms ∧
      Incarnation config id whep ls₀ ms c ∧ .offerReceived id o whip ∈ taken ms ∧
      ch = whip.channel
  created : ∀ id whep p b, .createConnection id whep ∈ taken ls →
    .send whep.channel (.ok p) b ∈ l.2 →
    ∃ o whip env, p = .offer o ∧ l.1 = .command (.offerReceived id o whip) env
  accepted : ∀ id a reply env, l.1 = .command (.answerReceived id a reply) env →
    ((∃ b, .send reply.channel (.ok .unit) b ∈ l.2) ↔ ∃ whip d,
      c.connections.lookup id = some (.awaitingAnswer whip d) ∧
        .send whip.channel (.ok (.answer a)) true ∈ l.2)

section Turns

variable {config : CoordinatorConfig} {ls : List (Event × List Effect)} {c c' : Coordinator}
  {e : Event} {os : List Effect}

/-- The browser's 204 and the whipsink's answer come in the same turn. -/
theorem turn_accepted {id : ConnectionId} {a : SdpAnswer} {reply : UnitReply} {env : Env}
    (h : c.Step (.command (.answerReceived id a reply) env, os) c') :
    (∃ b, .send reply.channel (.ok .unit) b ∈ os) ↔ ∃ whip d,
      c.connections.lookup id = some (.awaitingAnswer whip d) ∧
        .send whip.channel (.ok (.answer a)) true ∈ os := by
  have ht : c.handle (.answerReceived id a reply) env = some (c', os) := h.2
  obtain ⟨os₁, c₁, os₂, hm, hs, rfl⟩ := handle_move h.1 ht
  have herr : ∀ ch p b, .send ch (.ok p) b ∉ os₂ := fun _ _ _ => settles_sends_errors hs
  simp only [List.mem_append, herr, or_false]
  cases hm with
  | reject b hr => cases hr <;> simp
  | establish since b hl => simp [hl]
  | abandonAnswer b hl hw => simp [hl]

theorem turn_offers (h : Run Coordinator.Step (.new config) ls c)
    (hn : ((taken ls).map Command.channel).Nodup) (hs : c.Step (e, os) c') {ch : Nat}
    {o : SdpOffer} {b : Bool} (ho : .send ch (.ok (.offer o)) b ∈ os) :
    ∃ id whip env whep ls₀ ms, e = .command (.offerReceived id o whip) env ∧ ls = ls₀ ++ ms ∧
      Incarnation config id whep ls₀ ms c ∧ ch = whep.channel := by
  obtain ⟨cmd, env, rfl, hd⟩ := step_delivers hs ho
  cases hd with
  | @offer id sdp reply whep d hl =>
    obtain ⟨w, ls₀, ms, rfl, hi⟩ := exists_incarnation h id (Finmap.mem_of_lookup_eq_some hl)
    obtain ⟨state, hl', hst⟩ := hi.stage hn
    obtain rfl := Option.some.inj (hl.symm.trans hl')
    obtain ⟨rfl, -⟩ := hst.agreement.waiting whep d rfl
    exact ⟨id, reply, env, whep, ls₀, ms, rfl, rfl, hi, rfl⟩
  | own hp => simp at hp

theorem turn_answers (h : Run Coordinator.Step (.new config) ls c)
    (hn : ((taken ls).map Command.channel).Nodup) (hs : c.Step (e, os) c') {ch : Nat}
    {a : SdpAnswer} {b : Bool} (ho : .send ch (.ok (.answer a)) b ∈ os) :
    ∃ id reply env whep ls₀ ms o whip, e = .command (.answerReceived id a reply) env ∧
      ls = ls₀ ++ ms ∧ Incarnation config id whep ls₀ ms c ∧
      .offerReceived id o whip ∈ taken ms ∧ ch = whip.channel := by
  obtain ⟨cmd, env, rfl, hd⟩ := step_delivers hs ho
  cases hd with
  | @answer id sdp reply whip d hl =>
    obtain ⟨w, ls₀, ms, rfl, hi⟩ := exists_incarnation h id (Finmap.mem_of_lookup_eq_some hl)
    obtain ⟨state, hl', hst⟩ := hi.stage hn
    obtain rfl := Option.some.inj (hl.symm.trans hl')
    obtain ⟨o, hm, -⟩ := hst.agreement.parked whip d rfl
    exact ⟨id, reply, env, w, ls₀, ms, o, whip, rfl, rfl, hi, hm, rfl⟩
  | own hp => simp at hp

/-- A viewer's own request is answered with a result only by an offer that
named its id. -/
theorem turn_created (h : Run Coordinator.Step (.new config) ls c)
    (hn : ((taken ls ++ commands e).map Command.channel).Nodup) (hs : c.Step (e, os) c')
    {id : ConnectionId} {whep : OfferReply} {p : Payload} {b : Bool}
    (hm : .createConnection id whep ∈ taken ls) (ho : .send whep.channel (.ok p) b ∈ os) :
    ∃ o whip env, p = .offer o ∧ e = .command (.offerReceived id o whip) env := by
  obtain ⟨cmd, env, rfl, hd⟩ := step_delivers hs ho
  have hn' : ((taken ls ++ [cmd]).map Command.channel).Nodup := hn
  by_cases hid : cmd.connection = some id
  · generalize hch : whep.channel = ch at hd
    cases hd with
    | @offer i sdp reply w d hl =>
      obtain rfl : i = id := Option.some.inj hid
      exact ⟨sdp, reply, env, rfl, rfl⟩
    | @answer i sdp reply whip d hl =>
      obtain hq | ⟨cmd', hm', -, hf⟩ := Waiters.run_placed h i _ hl
      · cases hq
      · have he : cmd'.channel = whep.channel := (Option.some.inj hf.channel).symm.trans hch.symm
        rw [List.map_append] at hn'
        obtain rfl : cmd' = .createConnection id whep :=
          List.inj_on_of_nodup_map hn'.of_append_left hm' hm he
        exact hf.elim
    | own _ _ _ =>
      rw [List.map_append, List.nodup_append] at hn'
      exact absurd hch (hn'.2.2 _ (List.mem_map_of_mem hm) _ (by simp))
  · exact absurd rfl (delivers_elsewhere h hn' hm rfl hid hd)

end Turns

/-- The two sides of every viewer agree, in every run: each entry shows what
its incarnation has exchanged, and no SDP goes anywhere else. -/
theorem handshake_agreement {config : CoordinatorConfig} {ls : List (Event × List Effect)}
    {c : Coordinator} (h : Run Coordinator.Step (.new config) ls c)
    (hn : ((taken ls).map Command.channel).Nodup) :
    (∀ id ∈ c.connections, ∃ whep ls₀ ms, ls = ls₀ ++ ms ∧ Incarnation config id whep ls₀ ms c) ∧
      (∀ id whep ls₀ ms, ls = ls₀ ++ ms → Incarnation config id whep ls₀ ms c →
        ∃ state, c.connections.lookup id = some state ∧ Agreement id whep ms state) ∧
      ∀ l c', c.Step l c' → ((taken (ls ++ [l])).map Command.channel).Nodup →
        TurnAgreement config ls c l c' := by
  refine ⟨exists_incarnation h, ?_, ?_⟩
  · rintro id whep ls₀ ms rfl hi
    obtain ⟨state, hl, hst⟩ := hi.stage hn
    exact ⟨state, hl, hst.agreement⟩
  · rintro ⟨e, os⟩ c' hs hn'
    rw [taken_append, taken_single] at hn'
    refine ⟨fun id state state' => step_advances hs, fun ch o b ho => turn_offers h hn hs ho,
      fun ch a b ho => turn_answers h hn hs ho,
      fun id whep p b hm ho => turn_created h hn' hs hm ho, ?_⟩
    rintro id a reply env rfl
    exact turn_accepted hs

theorem handshake_agreement_legs : ∃ ls c, Run Coordinator.Step (.new {}) ls c ∧
    taken ls = [.createConnection "a" ⟨0⟩, .offerReceived "a" default ⟨1⟩,
      .answerReceived "a" default ⟨2⟩] ∧
    c.connections.lookup "a" = some (.established 2) ∧
    (∀ id ∈ c.connections, ∃ whep ls₀ ms, ls = ls₀ ++ ms ∧ Incarnation {} id whep ls₀ ms c) ∧
      (∀ id whep ls₀ ms, ls = ls₀ ++ ms → Incarnation {} id whep ls₀ ms c →
        ∃ state, c.connections.lookup id = some state ∧ Agreement id whep ms state) ∧
      ∀ l c', c.Step l c' → ((taken (ls ++ [l])).map Command.channel).Nodup →
        TurnAgreement {} ls c l c' := by
  obtain ⟨ls, c, h, -, hv⟩ := replayed Coordinator.next Coordinator.Step
    (fun _ _ _ _ => Coordinator.next_eq_some.mp) (.new {})
    [.command (.createConnection "a" ⟨0⟩) (.calm 0 []),
      .command (.offerReceived "a" default ⟨1⟩) (.calm 1 ["a"]),
      .command (.answerReceived "a" default ⟨2⟩) (.calm 2 ["a"])]
    ([.createConnection "a" ⟨0⟩, .offerReceived "a" default ⟨1⟩, .answerReceived "a" default ⟨2⟩],
      some (.established 2)) (fun r => (taken r.2, r.1.connections.lookup "a")) (by decide)
  obtain ⟨ht, hl⟩ := Prod.mk.inj hv
  exact ⟨ls, c, h, ht, hl, handshake_agreement h (by rw [show taken ls = _ from ht]; decide)⟩

end SrtWhep.Handshake
