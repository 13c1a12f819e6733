import SrtWhep.Waiters

namespace SrtWhep.Deliveries

open Library.Runs Library.Tables Moves

@[simp] def okOn (ch : Nat) : Effect → Option (Payload × Bool)
  | .send ch' (.ok p) received => if ch' = ch then some (p, received) else none
  | _ => none

def oks (ch : Nat) (os : List Effect) : List (Payload × Bool) := os.filterMap (okOn ch)

section Lists

variable {ch : Nat} {os os' : List Effect}

@[simp] theorem oks_nil : oks ch [] = [] := rfl

@[simp] theorem oks_cons (o : Effect) : oks ch (o :: os) = (okOn ch o).toList ++ oks ch os := by
  cases h : okOn ch o with
  | none => exact List.filterMap_cons_none h
  | some r => exact List.filterMap_cons_some h

@[simp] theorem oks_append : oks ch (os ++ os') = oks ch os ++ oks ch os' :=
  List.filterMap_append

theorem mem_oks {p : Payload} {b : Bool} : (p, b) ∈ oks ch os ↔ .send ch (.ok p) b ∈ os := by
  rw [oks, List.mem_filterMap]
  constructor
  · rintro ⟨o, ho, h⟩
    unfold okOn at h
    split at h
    · split at h
      · cases h
        subst ch
        exact ho
      · cases h
    · cases h
  · intro ho
    exact ⟨_, ho, if_pos rfl⟩

theorem oks_eq_nil : oks ch os = [] ↔ ∀ p b, .send ch (.ok p) b ∉ os := by
  rw [List.eq_nil_iff_forall_not_mem]
  exact ⟨fun h p b ho => h (p, b) (mem_oks.mpr ho), fun h r hr => h r.1 r.2 (mem_oks.mp hr)⟩

theorem oks_of_not_sent (h : ch ∉ Waiters.sent os) : oks ch os = [] := by
  rw [oks_eq_nil]
  intro p b ho
  exact h (Multiset.mem_coe.mpr (List.mem_filterMap.mpr ⟨_, ho, rfl⟩))

end Lists

/-- The only results a command makes the coordinator send: the two SDPs, to
the waiter parked under the id it names, and its own reply. -/
inductive Delivers (c : Coordinator) : Command → Nat → Payload → Prop
  | offer {id sdp reply whep d} : c.connections.lookup id = some (.awaitingOffer whep d) →
      Delivers c (.offerReceived id sdp reply) whep.channel (.offer sdp)
  | answer {id sdp reply whip d} : c.connections.lookup id = some (.awaitingAnswer whip d) →
      Delivers c (.answerReceived id sdp reply) whip.channel (.answer sdp)
  | own {cmd p} : (p = .unit ∨ ∃ infos, p = .snapshot infos) →
      (∀ id reply, cmd ≠ .createConnection id reply) →
      (∀ id sdp reply, cmd ≠ .offerReceived id sdp reply) → Delivers c cmd cmd.channel p

section Moves

variable {c c' : Coordinator} {os : List Effect} {ch : Nat} {p : Payload} {b : Bool}

theorem drain_sends_errors (env : Env) : .send ch (.ok p) b ∉ drain c env := by
  simp [drain, ConnectionState.notify_eq]

theorem settles_sends_errors {os' : List Effect} (h : Settles c os os' c') :
    .send ch (.ok p) b ∉ os' := by
  cases h with
  | calm => simp
  | trip env ht hc => simp [drain_sends_errors env]

theorem uncommanded_sends_errors (h : Move c ([], os) c') : .send ch (.ok p) b ∉ os := by
  cases h with
  | expire env hl hd hw => simp [ConnectionState.notify_eq]
  | reap env hl => simp [ConnectionState.notify_eq]
  | trip env hc => simp [drain_sends_errors env]

theorem move_delivers {cmd : Command} (h : Move c ([cmd], os) c')
    (ho : .send ch (.ok p) b ∈ os) : Delivers c cmd ch p := by
  cases h with
  | reject b' hr => cases hr <;> simp at ho
  | list infos b' =>
    simp only [List.mem_singleton, Effect.send.injEq, Except.ok.injEq] at ho
    obtain ⟨rfl, rfl, -⟩ := ho
    exact .own (.inr ⟨infos, rfl⟩) (by simp) (by simp)
  | register hl hs hd => simp at ho
  | offer hl hd =>
    simp only [List.mem_singleton, Effect.send.injEq, Except.ok.injEq] at ho
    obtain ⟨rfl, rfl, -⟩ := ho
    exact .offer hl
  | establish since b' hl =>
    simp only [List.mem_cons, Effect.send.injEq, Except.ok.injEq, List.not_mem_nil, or_false,
      reduceCtorEq, false_or] at ho
    obtain ⟨rfl, rfl, -⟩ | ⟨rfl, rfl, -⟩ := ho
    · exact .answer hl
    · exact .own (.inl rfl) (by simp) (by simp)
  | abandonOffer b' hl hw =>
    simp only [List.mem_cons, Effect.send.injEq, Except.ok.injEq, List.not_mem_nil, or_false,
      reduceCtorEq, and_false, false_and] at ho
    obtain ⟨rfl, rfl, -⟩ := ho
    exact .offer hl
  | abandonAnswer b' hl hw =>
    simp only [List.mem_cons, Effect.send.injEq, Except.ok.injEq, List.not_mem_nil, or_false,
      reduceCtorEq, and_false, false_and] at ho
    obtain ⟨rfl, rfl, -⟩ := ho
    exact .answer hl
  | delete env b' hl hs =>
    simp only [ConnectionState.notify_eq, List.mem_cons, List.mem_append, List.mem_map,
      Effect.send.injEq, Except.ok.injEq, reduceCtorEq, List.not_mem_nil, or_false, false_or,
      and_false, false_and, exists_false] at ho
    obtain ⟨rfl, rfl, -⟩ := ho
    exact .own (.inl rfl) (by simp) (by simp)
  | reset env b' hc =>
    have hd := @drain_sends_errors c ch p b env
    simp only [List.mem_append, hd, List.mem_cons, Effect.send.injEq, Except.ok.injEq,
      reduceCtorEq, List.not_mem_nil, or_false, false_or] at ho
    obtain ⟨rfl, rfl, -⟩ := ho
    exact .own (.inl rfl) (by simp) (by simp)

theorem uncommanded_entry (h : Move c ([], os) c') {id : ConnectionId} {state : ConnectionState}
    (hl : c'.connections.lookup id = some state) : c.connections.lookup id = some state := by
  exact (move_entry h hl).resolve_right fun he => by cases he

/-- Moves that take no command keep an entry as it is or drop it, and send
errors only. -/
theorem uncommanded_run {ms : List (List Command × List Effect)} (h : Run Move c ms c')
    (hn : ms.flatMap Prod.fst = []) :
    (∀ id state, c'.connections.lookup id = some state → c.connections.lookup id = some state) ∧
      ∀ ch p b, .send ch (.ok p) b ∉ ms.flatMap Prod.snd := by
  induction h with
  | nil c => exact ⟨fun _ _ hl => hl, by simp⟩
  | @cons c d c' m ms hm _ ih =>
    obtain ⟨cs, os⟩ := m
    obtain ⟨rfl, hn⟩ : cs = [] ∧ ms.flatMap Prod.fst = [] := by simpa using hn
    obtain ⟨he, ho⟩ := ih hn
    refine ⟨fun id state hl => uncommanded_entry hm (he id state hl), fun ch p b => ?_⟩
    rw [List.flatMap_cons, List.mem_append]
    rintro (hm' | hm')
    · exact uncommanded_sends_errors hm hm'
    · exact ho ch p b hm'

end Moves

section Steps

variable {c c' : Coordinator} {e : Event} {os : List Effect} {ch : Nat} {p : Payload} {b : Bool}

theorem step_uncommanded (h : c.Step (e, os) c') (hn : commands e = []) :
    (∀ id state, c'.connections.lookup id = some state → c.connections.lookup id = some state) ∧
      ∀ ch p b, .send ch (.ok p) b ∉ os := by
  obtain ⟨ms, hms, hcmd, rfl⟩ := step_moves h
  exact uncommanded_run hms (hcmd.trans hn)

/-- A step leaves an entry in the map only by a single move or by none that
concerns it. -/
theorem step_entry (h : c.Step (e, os) c') {id : ConnectionId} {state : ConnectionState}
    (hl : c'.connections.lookup id = some state) :
    (commands e = [] ∧ c.connections.lookup id = some state ∧ ∀ ch p b, .send ch (.ok p) b ∉ os) ∨
      ∃ cmd env, e = .command cmd env ∧ Move c ([cmd], os) c' := by
  cases e with
  | command cmd env =>
    obtain ⟨os₁, c₁, os₂, hm, hs, rfl⟩ := handle_move h.1 h.2
    cases hs with
    | calm => exact .inr ⟨cmd, env, rfl, by rwa [List.append_nil]⟩
    | trip => cases hl
  | branchFailure branch env =>
    obtain ⟨he, ho⟩ := step_uncommanded h rfl
    exact .inl ⟨rfl, he id state hl, ho⟩
  | sweepTick env =>
    obtain ⟨he, ho⟩ := step_uncommanded h rfl
    exact .inl ⟨rfl, he id state hl, ho⟩

theorem step_delivers (h : c.Step (e, os) c') (ho : .send ch (.ok p) b ∈ os) :
    ∃ cmd env, e = .command cmd env ∧ Delivers c cmd ch p := by
  cases e with
  | command cmd env =>
    obtain ⟨os₁, c₁, os₂, hm, hs, rfl⟩ := handle_move h.1 h.2
    obtain ho | ho := List.mem_append.mp ho
    · exact ⟨cmd, env, rfl, move_delivers hm ho⟩
    · exact absurd ho (settles_sends_errors hs)
  | branchFailure branch env => exact absurd ho ((step_uncommanded h rfl).2 ch p b)
  | sweepTick env => exact absurd ho ((step_uncommanded h rfl).2 ch p b)

end Steps

/-- Results reach only the waiters of the id their command names: no other
id's commands, and no command of another time, hear of them. -/
theorem delivers_elsewhere {config : CoordinatorConfig} {ls : List (Event × List Effect)}
    {c : Coordinator} {cmd cmd₀ : Command} {id : ConnectionId} {ch : Nat} {p : Payload}
    (h : Run Coordinator.Step (.new config) ls c)
    (hn : ((taken ls ++ [cmd]).map Command.channel).Nodup)
    (hm : cmd₀ ∈ taken ls) (hid : cmd₀.connection = some id) (hne : cmd.connection ≠ some id)
    (hd : Delivers c cmd ch p) : ch ≠ cmd₀.channel := by
  rw [List.map_append, List.nodup_append] at hn
  have hparked : ∀ i state, cmd.connection = some i → c.connections.lookup i = some state →
      state.parked ≠ some cmd₀.channel := by
    intro i state hi hl hp
    obtain ⟨cmd', hm', hid', -, he⟩ := Waiters.parked_by h hl hp
    have : cmd' = cmd₀ := List.inj_on_of_nodup_map hn.1 hm' hm he
    subst this
    rw [hid] at hid'
    exact hne (hi.trans hid'.symm)
  intro he
  cases hd with
  | offer hl => exact hparked _ _ rfl hl (congrArg some he)
  | answer hl => exact hparked _ _ rfl hl (congrArg some he)
  | own _ _ _ => exact hn.2.2 _ (List.mem_map_of_mem hm) _ (by simp) he.symm

theorem oks_fresh {config : CoordinatorConfig} {ls : List (Event × List Effect)}
    {c : Coordinator} {cmd : Command} (h : Run Coordinator.Step (.new config) ls c)
    (hn : ((taken ls ++ [cmd]).map Command.channel).Nodup) :
    oks cmd.channel (trace ls) = [] := by
  refine oks_of_not_sent fun hs => ?_
  have hm : cmd.channel ∈ ((taken ls).map Command.channel : Multiset Nat) := by
    rw [← Waiters.run_conserves h]
    exact Multiset.mem_add.mpr (.inl hs)
  rw [List.map_append, List.nodup_append] at hn
  exact hn.2.2 _ (Multiset.mem_coe.mp hm) _ (by simp) rfl

end SrtWhep.Deliveries
