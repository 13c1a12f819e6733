import SrtWhep.Waiters

namespace SrtWhep.Rejections

open Library.Runs Library.Tables Moves

def Fresh (c : Coordinator) (ch : Nat) : Prop :=
  ∀ id state, c.connections.lookup id = some state → state.parked ≠ some ch

theorem Fresh.erase {c : Coordinator} {ch : Nat} (h : Fresh c ch) (id : ConnectionId)
    (w : Watchdog) :
    Fresh { c with connections := c.connections.erase id, watchdog := w } ch := by
  intro i state hl
  rw [lookup_erase] at hl
  split at hl
  · cases hl
  · exact h i state hl

theorem fresh_of_run {config : CoordinatorConfig} {ls : List (Event × List Effect)}
    {c : Coordinator} {cmd : Command} (h : Run Coordinator.Step (.new config) ls c)
    (hn : ((taken ls ++ [cmd]).map Command.channel).Nodup) : Fresh c cmd.channel := by
  intro id state hl hp
  obtain hq | ⟨cmd', hm, -, hf⟩ := Waiters.run_placed h id state hl
  · rw [hq] at hp
    cases hp
  · have he : cmd'.channel = cmd.channel := Option.some.inj (hf.channel.symm.trans hp)
    rw [List.map_append, List.nodup_append] at hn
    exact hn.2.2 _ (List.mem_map_of_mem hm) _ (by simp) he

theorem Fresh.drain {c : Coordinator} {ch : Nat} (h : Fresh c ch) (env : Env)
    (reply : Except SignalError Payload) (b : Bool) : .send ch reply b ∉ drain c env := by
  intro hm
  obtain ⟨⟨id, state⟩, he, ho⟩ := List.mem_flatMap.mp hm
  have hl := ((mem_walk id state).mp he).2
  rw [ConnectionState.notify_eq] at ho
  simp only [List.mem_append, List.mem_map, Option.mem_toList,
    Effect.send.injEq, List.mem_singleton, reduceCtorEq, or_false] at ho
  obtain ⟨ch', hp, rfl, -⟩ := ho
  exact h id state hl hp

theorem settles_fresh {c c' : Coordinator} {os os' : List Effect} {ch : Nat}
    (h : Settles c os os' c') (hf : Fresh c ch) (reply : Except SignalError Payload) (b : Bool) :
    .send ch reply b ∉ os' := by
  cases h with
  | calm => simp
  | trip env ht hc => simp [hf.drain env reply b]

/-- The only move that answers its command with an error other than `gone`
is the one that refuses it. -/
theorem move_rejects {c c' d : Coordinator} {cmd : Command} {os os' : List Effect}
    {err : SignalError} {b : Bool} (hf : Fresh c cmd.channel) (hm : Move c ([cmd], os) d)
    (hs : Settles d os os' c') (hr : .send cmd.channel (.error err) b ∈ os ++ os')
    (hg : ∀ id, err ≠ .gone id) :
    d = c ∧ ∃ calls err' b', Rejects c cmd calls err' ∧
      os = calls ++ [.send cmd.channel (.error err') b'] := by
  cases hm with
  | reject b' hrej => exact ⟨rfl, _, _, b', hrej, rfl⟩
  | list infos b' =>
    obtain ⟨rfl, rfl⟩ := hs.of_calm (by simp)
    simp at hr
  | register hl hok hd =>
    obtain ⟨rfl, rfl⟩ := hs.of_calm (by simp)
    simp at hr
  | offer hl hd =>
    obtain ⟨rfl, rfl⟩ := hs.of_calm (by simp)
    simp at hr
  | establish since b' hl =>
    obtain ⟨rfl, rfl⟩ := hs.of_calm (by simp)
    simp at hr
  | abandonOffer b' hl hw =>
    have hn := settles_fresh hs (hf.erase _ _) (.error err) b
    simp_all [Command.channel]
  | abandonAnswer b' hl hw =>
    have hn := settles_fresh hs (hf.erase _ _) (.error err) b
    simp_all [Command.channel]
  | @delete id reply state call env b' hl hok =>
    have hn : ∀ i, .recordFailure i true ∉ .removeBranch id call ::
        (state.notify env .gone id ++
          [.ended id .deleted, .send reply.channel (.ok .unit) b']) := by
      simp [ConnectionState.notify_eq]
    obtain ⟨rfl, rfl⟩ := hs.of_calm hn
    simp only [ConnectionState.notify_eq, ConnectionState.notice, List.append_nil, List.mem_cons,
      List.mem_append, List.mem_map, Effect.send.injEq, Except.error.injEq, reduceCtorEq,
      List.not_mem_nil, or_false, false_or, and_false, false_and] at hr
    obtain ⟨ch, -, -, he, -⟩ := hr
    exact absurd he.symm (hg id)
  | reset env b' hc =>
    have hn : ∀ i, .recordFailure i true ∉ drain c env := by
      simp [drain, ConnectionState.notify_eq]
    obtain ⟨rfl, rfl⟩ := hs.of_calm (by simp [hn])
    have hd := hf.drain env (.error err) b
    simp_all [Command.channel]

theorem rejects_sends {c : Coordinator} {cmd : Command} {calls : List Effect} {err : SignalError}
    (h : Rejects c cmd calls err) :
    (∀ ch reply b, .send ch reply b ∉ calls) ∧ .requestRestart ∉ calls ∧
      ∀ id, .recordFailure id true ∉ calls := by
  cases h <;> simp

/-- A command refused with any error but `gone` leaves the coordinator as it
was, and nobody but its own sender hears of it. -/
theorem rejected_command_is_noop {config : CoordinatorConfig} {ls : List (Event × List Effect)}
    {c c' : Coordinator} {cmd : Command} {env : Env} {os : List Effect} {err : SignalError}
    {b : Bool} (h : Run Coordinator.Step (.new config) ls c)
    (hn : ((taken ls ++ [cmd]).map Command.channel).Nodup)
    (hs : c.Step (.command cmd env, os) c')
    (hr : .send cmd.channel (.error err) b ∈ os) (hg : ∀ id, err ≠ .gone id) :
    c' = c ∧ (∀ ch reply b', .send ch reply b' ∈ os → ch = cmd.channel) ∧ .requestRestart ∉ os := by
  obtain ⟨os₁, c₁, os₂, hm, hset, rfl⟩ := handle_move hs.1 hs.2
  obtain ⟨rfl, calls, err', b', hrej, rfl⟩ := move_rejects (fresh_of_run h hn) hm hset hr hg
  obtain ⟨hsend, hreq, htrip⟩ := rejects_sends hrej
  obtain ⟨rfl, rfl⟩ := hset.of_calm (by simpa using htrip)
  refine ⟨rfl, ?_, by simpa using hreq⟩
  intro ch reply b'' ho
  rw [List.append_nil] at ho
  obtain hc | he := List.mem_append.mp ho
  · exact absurd hc (hsend ch reply b'')
  · exact (Effect.send.inj (List.mem_singleton.mp he)).1

/-- A DELETE cut off by the teardown bound keeps the viewer and its waiter. -/
theorem rejected_command_is_noop_delete : ∃ ls c c' os,
    Run Coordinator.Step (.new {}) ls c ∧
    c.Step (.command (.removeConnection "a" ⟨1⟩)
      { Env.calm 1 ["a"] with branch := fun _ => ⟨none, 5⟩ }, os) c' ∧
    c.connections.lookup "a" = some (.awaitingOffer ⟨0⟩ 10000000000) ∧
    c' = c ∧ (∀ ch reply b', .send ch reply b' ∈ os → ch = 1) ∧ .requestRestart ∉ os := by
  have h : Run Coordinator.Step (.new {}) [(.command (.createConnection "a" ⟨0⟩) (.calm 0 []),
      [.addBranch "a" ⟨some (.ok ()), 0⟩])]
      (Coordinator.insert (.new {}) "a" (.awaitingOffer ⟨0⟩ 10000000000)).1 :=
    .single ⟨by decide, by decide⟩
  have hs : Coordinator.Step (Coordinator.insert (.new {}) "a" (.awaitingOffer ⟨0⟩ 10000000000)).1
      (.command (.removeConnection "a" ⟨1⟩) { Env.calm 1 ["a"] with branch := fun _ => ⟨none, 5⟩ },
        [.removeBranch "a" ⟨none, 5⟩,
          .send 1 (.error (.pipelineBusy "branch teardown timed out")) true])
      (Coordinator.insert (.new {}) "a" (.awaitingOffer ⟨0⟩ 10000000000)).1 :=
    ⟨by decide, by decide⟩
  have hr : .send 1 (.error (.pipelineBusy "branch teardown timed out")) true ∈
      [Effect.removeBranch "a" ⟨none, 5⟩,
        .send 1 (.error (.pipelineBusy "branch teardown timed out")) true] := by decide
  exact ⟨_, _, _, _, h, hs, by decide, rejected_command_is_noop h (by decide) hs hr (by simp)⟩

end SrtWhep.Rejections
