import SrtWhep.Moves

namespace SrtWhep.Waiters

open Library.Runs Library.Tables Moves

@[simp] def channel : Effect → Option Nat
  | .send ch _ _ => some ch
  | _ => none

def sent (os : List Effect) : Multiset Nat := os.filterMap channel

def sends (os : List Effect) (ch : Nat) : Nat := (os.filterMap channel).count ch

def held (state : ConnectionState) : Multiset Nat := state.parked.toList

@[simp] theorem sent_nil : sent [] = 0 := rfl

@[simp] theorem sent_cons (o : Effect) (os : List Effect) :
    sent (o :: os) = (channel o).elim 0 singleton + sent os := by
  cases o with
  | send ch r b => rfl
  | _ => exact (zero_add _).symm

@[simp] theorem sent_append (os os' : List Effect) : sent (os ++ os') = sent os + sent os' := by
  simp [sent]

@[simp] theorem sent_notify (state : ConnectionState) (env : Env) (n : WaiterNotice)
    (id : ConnectionId) : sent (state.notify env n id) = held state := by
  rw [ConnectionState.notify_eq, held]
  cases state.parked <;> rfl

theorem sent_drain {c : Coordinator} {env : Env} (hc : Covers env.order c.connections) :
    sent (drain c env) = gather held c.connections := by
  rw [← hc.gather_walk held, drain]
  induction walk c.connections env.order with
  | nil => rfl
  | cons e es ih =>
    rw [List.flatMap_cons, sent_append, ih, ← Multiset.cons_coe, Multiset.cons_bind]
    simp

theorem rejects_sends_nothing {c : Coordinator} {cmd : Command} {calls : List Effect}
    {err : SignalError} (h : Rejects c cmd calls err) : sent calls = 0 := by
  cases h <;> rfl

/-- Replies are a conserved resource: what a move sends and what it leaves
parked is what was parked before and the reply of the command it took. -/
theorem move_conserves {c c' : Coordinator} {cs : List Command} {os : List Effect}
    (h : Move c (cs, os) c') :
    sent os + gather held c'.connections =
      gather held c.connections + (cs.map Command.channel : Multiset Nat) := by
  cases h with
  | reject b hr =>
    simp [rejects_sends_nothing hr, add_comm]
  | list infos b =>
    simp [Command.channel, add_comm]
  | register hl hs hd =>
    simp [gather_insert held _ hl, Command.channel, held, ConnectionState.parked, add_comm]
  | offer hl hd =>
    rw [gather_replace, gather_erase held hl]
    simpa [Command.channel, held, ConnectionState.parked, add_comm] using Multiset.cons_swap _ _ _
  | establish since b hl =>
    rw [gather_replace, gather_erase held hl]
    simpa [Command.channel, held, ConnectionState.parked, add_comm] using Multiset.cons_swap _ _ _
  | abandonOffer b hl hw =>
    rw [gather_erase held hl]
    simpa [Command.channel, held, ConnectionState.parked, add_comm] using Multiset.cons_swap _ _ _
  | abandonAnswer b hl hw =>
    rw [gather_erase held hl]
    simpa [Command.channel, held, ConnectionState.parked, add_comm] using Multiset.cons_swap _ _ _
  | delete env b hl hs =>
    rw [gather_erase held hl]
    simp [Command.channel, add_comm]
  | expire env hl hd hw =>
    rw [gather_erase held hl]
    simp
  | reap env hl =>
    rw [gather_erase held hl]
    simp
  | trip env hc =>
    rw [← sent_drain hc]
    simp
  | reset env b hc =>
    rw [← sent_drain hc]
    simp [Command.channel]

theorem moves_conserve {c c' : Coordinator} {ms : List (List Command × List Effect)}
    (h : Run Move c ms c') :
    sent (ms.flatMap Prod.snd) + gather held c'.connections =
      gather held c.connections + ((ms.flatMap Prod.fst).map Command.channel : Multiset Nat) := by
  induction h with
  | nil c => simp
  | @cons c d c' m ms hm _ ih =>
    rw [List.flatMap_cons, List.flatMap_cons, sent_append, List.map_append, ← Multiset.coe_add,
      add_assoc, ih, ← add_assoc, ← add_assoc, move_conserves hm]

theorem move_displaces_nothing {c c' : Coordinator} {cs : List Command} {os : List Effect}
    (h : Move c (cs, os) c') (id : ConnectionId) (state : ConnectionState) :
    .displaced id state ∉ os := by
  cases h with
  | reject b hr => cases hr <;> simp
  | trip env hc => simp [drain, ConnectionState.notify_eq]
  | reset env b hc => simp [drain, ConnectionState.notify_eq]
  | _ => simp [ConnectionState.notify_eq]

def ParksFor : ConnectionState → Command → Prop
  | .awaitingOffer whep _, .createConnection _ reply => whep = reply
  | .awaitingAnswer whip _, .offerReceived _ _ reply => whip = reply
  | _, _ => False

def Placed (cs : List Command) (id : ConnectionId) (state : ConnectionState) : Prop :=
  state.parked = none ∨ ∃ cmd ∈ cs, cmd.connection = some id ∧ ParksFor state cmd

theorem ParksFor.channel {state : ConnectionState} {cmd : Command} (h : ParksFor state cmd) :
    state.parked = some cmd.channel := by
  cases state with
  | awaitingOffer => cases cmd <;> simp_all [ParksFor, ConnectionState.parked, Command.channel]
  | awaitingAnswer => cases cmd <;> simp_all [ParksFor, ConnectionState.parked, Command.channel]
  | established => cases cmd <;> simp [ParksFor] at h

theorem Placed.mono {cs cs' : List Command} {id : ConnectionId} {state : ConnectionState}
    (h : Placed cs id state) (hs : ∀ cmd ∈ cs, cmd ∈ cs') : Placed cs' id state :=
  h.imp_right fun ⟨cmd, hm, hp⟩ => ⟨cmd, hs cmd hm, hp⟩

theorem move_placed {c c' : Coordinator} {cs : List Command} {os : List Effect}
    (h : Move c (cs, os) c') {id : ConnectionId} {state : ConnectionState}
    (hl : c'.connections.lookup id = some state) :
    c.connections.lookup id = some state ∨ Placed cs id state := by
  obtain hl | he := move_entry h hl
  · exact .inl hl
  cases he with
  | registered _ _ _ =>
    exact .inr (.inr ⟨.createConnection id _, List.mem_singleton_self _, rfl, rfl⟩)
  | offered _ _ =>
    exact .inr (.inr ⟨.offerReceived id _ _, List.mem_singleton_self _, rfl, rfl⟩)
  | established _ _ _ => exact .inr (.inl rfl)

variable {config : CoordinatorConfig} {ls : List (Event × List Effect)} {c : Coordinator}

theorem run_conserves (h : Run Coordinator.Step (.new config) ls c) :
    sent (trace ls) + gather held c.connections =
      ((taken ls).map Command.channel : Multiset Nat) := by
  refine move_history (P := fun cs os d => sent os + gather held d.connections =
    (cs.map Command.channel : Multiset Nat)) h rfl ?_
  intro cs os d cs' os' d' hp hm
  rw [sent_append, List.map_append, ← Multiset.coe_add, ← hp, add_assoc, add_assoc,
    move_conserves hm]

theorem run_displaces_nothing (h : Run Coordinator.Step (.new config) ls c) :
    ∀ id state, .displaced id state ∉ trace ls := by
  refine move_history (P := fun _ os _ => ∀ id state, .displaced id state ∉ os) h (by simp) ?_
  intro cs os d cs' os' d' hp hm id state
  simp [hp id state, move_displaces_nothing hm]

theorem run_placed (h : Run Coordinator.Step (.new config) ls c) :
    ∀ id state, c.connections.lookup id = some state → Placed (taken ls) id state := by
  refine move_history (P := fun cs _ d => ∀ id state, d.connections.lookup id = some state →
    Placed cs id state) h (by simp [Coordinator.new]) ?_
  intro cs os d cs' os' d' hp hm id state hl
  cases move_placed hm hl with
  | inl hl => exact (hp id state hl).mono (by simp_all)
  | inr hq => exact hq.mono (by simp_all)

theorem step_conserves {c c' : Coordinator} {l : Event × List Effect} (h : c.Step l c') :
    sent l.2 + gather held c'.connections =
      gather held c.connections + ((commands l.1).map Command.channel : Multiset Nat) := by
  obtain ⟨ms, hm, hcmd, hos⟩ := step_moves h
  rw [← hcmd, ← hos]
  exact moves_conserve hm

section Parked

variable {id : ConnectionId} {state : ConnectionState} {ch : Nat}

theorem parked_by (h : Run Coordinator.Step (.new config) ls c)
    (hl : c.connections.lookup id = some state) (hp : state.parked = some ch) :
    ∃ cmd ∈ taken ls, cmd.connection = some id ∧ ParksFor state cmd ∧ cmd.channel = ch := by
  obtain hq | ⟨cmd, hm, hid, hf⟩ := run_placed h id state hl
  · cases hq.symm.trans hp
  · exact ⟨cmd, hm, hid, hf, Option.some.inj (hf.channel.symm.trans hp)⟩

theorem parked_apart {id' : ConnectionId} {state' : ConnectionState}
    (h : Run Coordinator.Step (.new config) ls c) (hn : ((taken ls).map Command.channel).Nodup)
    (hl : c.connections.lookup id = some state) (hp : state.parked = some ch)
    (hl' : c.connections.lookup id' = some state') (hp' : state'.parked = some ch) : id' = id := by
  obtain ⟨cmd, hm, hid, -, hch⟩ := parked_by h hl hp
  obtain ⟨cmd', hm', hid', -, hch'⟩ := parked_by h hl' hp'
  obtain rfl : cmd' = cmd := List.inj_on_of_nodup_map hn hm' hm (hch'.trans hch.symm)
  exact Option.some.inj (hid'.symm.trans hid)

theorem wipe_answers {l : Event × List Effect} {c' : Coordinator}
    (h : Run Coordinator.Step (.new config) ls c) (hs : c.Step l c')
    (hn : ((taken (ls ++ [l])).map Command.channel).Nodup) (he : c'.connections = ∅)
    (hl : c.connections.lookup id = some state) (hp : state.parked = some ch) :
    sends l.2 ch = 1 := by
  have hheld : 1 ≤ Multiset.count ch (gather held c.connections) := by
    refine Multiset.count_pos.mpr ((mem_gather held _ _).mpr ⟨id, state, hl, ?_⟩)
    simp [held, hp]
  have hrun := congrArg (Multiset.count ch) (run_conserves (h.snoc hs))
  have hone := List.nodup_iff_count_le_one.mp hn ch
  have hstep := congrArg (Multiset.count ch) (step_conserves hs)
  have hsent : Multiset.count ch (sent l.2) = sends l.2 ch := Multiset.coe_count _ _
  simp only [he, gather_empty, add_zero, trace_append, trace_single, sent_append,
    Multiset.count_add, hsent, Multiset.coe_count] at hrun hstep
  omega

end Parked

/-- The fate of a command's reply: answered once and parked nowhere, or
still unanswered and parked in its own entry only. -/
def Answered (c : Coordinator) (os : List Effect) (cmd : Command) : Prop :=
  sends os cmd.channel = 1 ∧
    ∀ id state, c.connections.lookup id = some state → state.parked ≠ some cmd.channel

def Waiting (c : Coordinator) (os : List Effect) (cmd : Command) : Prop :=
  sends os cmd.channel = 0 ∧
    ∃ id state, cmd.connection = some id ∧ c.connections.lookup id = some state ∧
      ParksFor state cmd ∧
      ∀ id' state', c.connections.lookup id' = some state' →
        state'.parked = some cmd.channel → id' = id

theorem waiters_conserved (h : Run Coordinator.Step (.new config) ls c)
    (hn : ((taken ls).map Command.channel).Nodup) :
    (∀ cmd ∈ taken ls, Answered c (trace ls) cmd ∨ Waiting c (trace ls) cmd) ∧
      ∀ id state, .displaced id state ∉ trace ls := by
  refine ⟨fun cmd hcmd => ?_, run_displaces_nothing h⟩
  have hone : ∀ id state cmd', c.connections.lookup id = some state →
      state.parked = some cmd'.channel → cmd' ∈ taken ls →
      cmd'.connection = some id ∧ ParksFor state cmd' := by
    intro id state cmd' hl hp hm
    obtain ⟨cmd'', hm', hid, hf, he⟩ := parked_by h hl hp
    have : cmd'' = cmd' := List.inj_on_of_nodup_map hn hm' hm he
    subst this
    exact ⟨hid, hf⟩
  have hc := congrArg (Multiset.count cmd.channel) (run_conserves h)
  rw [Multiset.count_add, Multiset.coe_count,
    List.count_eq_one_of_mem hn (List.mem_map_of_mem hcmd)] at hc
  have hs : Multiset.count cmd.channel (sent (trace ls)) = sends (trace ls) cmd.channel :=
    Multiset.coe_count _ _
  rw [hs] at hc
  cases hg : Multiset.count cmd.channel (gather held c.connections) with
  | zero =>
    refine .inl ⟨by omega, fun id state hl hp => ?_⟩
    refine Multiset.count_eq_zero.mp hg ((mem_gather held _ _).mpr ⟨id, state, hl, ?_⟩)
    simp [held, hp]
  | succ n =>
    have hm : cmd.channel ∈ gather held c.connections := Multiset.count_pos.mp (by omega)
    obtain ⟨id, state, hl, hp⟩ := (mem_gather held _ _).mp hm
    have hp' : state.parked = some cmd.channel := by simpa [held] using hp
    obtain ⟨hid, hf⟩ := hone id state cmd hl hp' hcmd
    refine .inr ⟨by omega, id, state, hid, hl, hf, fun id' state' hl' hp'' => ?_⟩
    have hid' := (hone id' state' cmd hl' hp'' hcmd).1
    exact Option.some.inj (hid'.symm.trans hid)

/-- A viewer waits for its offer while the list request behind it is answered. -/
theorem waiters_conserved_listing : ∃ ls c, Run Coordinator.Step (.new {}) ls c ∧
    taken ls = [.createConnection "a" ⟨0⟩, .listConnections ⟨1⟩] ∧
    (∀ cmd ∈ taken ls, Answered c (trace ls) cmd ∨ Waiting c (trace ls) cmd) ∧
      ∀ id state, .displaced id state ∉ trace ls := by
  obtain ⟨ls, c, h, -, ht⟩ := replayed Coordinator.next Coordinator.Step
    (fun _ _ _ _ => Coordinator.next_eq_some.mp) (.new {})
    [.command (.createConnection "a" ⟨0⟩) (.calm 0 []),
      .command (.listConnections ⟨1⟩) (.calm 1 ["a"])]
    [.createConnection "a" ⟨0⟩, .listConnections ⟨1⟩] (fun r => taken r.2) (by decide)
  exact ⟨ls, c, h, ht, waiters_conserved h (by rw [show taken ls = _ from ht]; decide)⟩

end SrtWhep.Waiters
