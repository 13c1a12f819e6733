import SrtWhep.Deliveries

namespace SrtWhep.Handshake

open Library.Runs Library.Tables Moves Deliveries

inductive Advances : ConnectionState → ConnectionState → Prop
  | same (state) : Advances state state
  | offered (whep d whip d') : Advances (.awaitingOffer whep d) (.awaitingAnswer whip d')
  | established (whip d since) : Advances (.awaitingAnswer whip d) (.established since)

inductive Leg (id : ConnectionId) (cmd : Command) (os : List Effect) :
    ConnectionState → ConnectionState → Prop
  | other {state} : cmd.connection ≠ some id → Leg id cmd os state state
  | refused {state} : (∀ ch p b, .send ch (.ok p) b ∉ os) → Leg id cmd os state state
  | offer {sdp whep d whip d'} : cmd = .offerReceived id sdp whip →
      os = [.send whep.channel (.ok (.offer sdp)) true] →
      Leg id cmd os (.awaitingOffer whep d) (.awaitingAnswer whip d')
  | answer {sdp whip d reply b since} : cmd = .answerReceived id sdp reply →
      os = [.send whip.channel (.ok (.answer sdp)) true, .recordSuccess (some id),
        .send reply.channel (.ok .unit) b] →
      Leg id cmd os (.awaitingAnswer whip d) (.established since)

section Moves

variable {c c' : Coordinator} {cmd : Command} {os : List Effect} {id : ConnectionId}
  {state state' : ConnectionState}

theorem erase_leg {i : ConnectionId} (hi : cmd.connection = some i)
    (hl : c.connections.lookup id = some state)
    (hl' : (c.connections.erase i).lookup id = some state') : Leg id cmd os state state' := by
  rw [lookup_erase] at hl'
  split at hl'
  · cases hl'
  · rename_i hne
    obtain rfl := Option.some.inj (hl.symm.trans hl')
    exact .other (by simpa [hi] using Ne.symm hne)

theorem move_leg (h : Move c ([cmd], os) c') (hl : c.connections.lookup id = some state)
    (hl' : c'.connections.lookup id = some state') : Leg id cmd os state state' := by
  cases h with
  | reject b hr =>
    obtain rfl := Option.some.inj (hl.symm.trans hl')
    refine .refused fun ch p b => ?_
    cases hr <;> simp
  | list infos b =>
    obtain rfl := Option.some.inj (hl.symm.trans hl')
    exact .other (by simp [Command.connection])
  | @register i reply call deadline hn hs hd =>
    rw [lookup_insert] at hl'
    split at hl'
    · subst id
      simp [hn] at hl
    · rename_i hne
      obtain rfl := Option.some.inj (hl.symm.trans hl')
      exact .other (by simpa [Command.connection] using Ne.symm hne)
  | @offer i sdp reply whep d now deadline hn hd =>
    rw [lookup_insert, lookup_erase] at hl'
    split at hl'
    · subst id
      obtain rfl := Option.some.inj (hl.symm.trans hn)
      obtain rfl := Option.some.inj hl'
      exact .offer rfl rfl
    · rename_i hne
      obtain rfl := Option.some.inj (hl.symm.trans hl')
      exact .other (by simpa [Command.connection] using Ne.symm hne)
  | @establish i sdp reply whip d since b hn =>
    rw [lookup_insert, lookup_erase] at hl'
    split at hl'
    · subst id
      obtain rfl := Option.some.inj (hl.symm.trans hn)
      obtain rfl := Option.some.inj hl'
      exact .answer rfl rfl
    · rename_i hne
      obtain rfl := Option.some.inj (hl.symm.trans hl')
      exact .other (by simpa [Command.connection] using Ne.symm hne)
  | abandonOffer b hn hw => exact erase_leg rfl hl hl'
  | abandonAnswer b hn hw => exact erase_leg rfl hl hl'
  | delete env b hn hs => exact erase_leg rfl hl hl'
  | reset env b hc => cases hl'

theorem move_registers (h : Move c ([cmd], os) c') (hl : c.connections.lookup id = none)
    (hl' : c'.connections.lookup id = some state') : ∃ reply, cmd = .createConnection id reply := by
  obtain he | he := move_entry h hl'
  · cases hl.symm.trans he
  cases he with
  | registered _ _ _ => exact ⟨_, rfl⟩
  | offered _ ho => cases hl.symm.trans ho
  | established _ _ ho => cases hl.symm.trans ho

theorem Leg.advances (h : Leg id cmd os state state') : Advances state state' := by
  cases h with
  | other | refused => exact .same _
  | offer => exact .offered _ _ _ _
  | answer => exact .established _ _ _

theorem step_advances {l : Event × List Effect} (h : c.Step l c')
    (hl : c.connections.lookup id = some state) (hl' : c'.connections.lookup id = some state') :
    Advances state state' := by
  obtain ⟨-, he, -⟩ | ⟨cmd, env, -, hm⟩ := step_entry h hl'
  · obtain rfl := Option.some.inj (hl.symm.trans he)
    exact .same _
  · exact (move_leg hm hl hl').advances

end Moves

end SrtWhep.Handshake
