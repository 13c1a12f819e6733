import SrtWhep.Deliveries
import SrtWhep.Service

namespace SrtWhep.Generations

open Library.Runs Library.Tables Library.Channels Moves Deliveries

section Turns

variable {c c' : Coordinator} {e : Event} {os : List Effect} {id : ConnectionId} {b : Bool}

theorem containsKey_iff : c.containsKey id = true ↔ ∃ state, c.connections.lookup id = some state :=
  Option.isSome_iff_exists

theorem step_origin (h : c.Step (e, os) c') (hl : c'.containsKey id = true) :
    c.containsKey id = true ∨ ∃ reply env, e = .command (.createConnection id reply) env ∧
      os.any Effect.attaches = true := by
  obtain ⟨state, hl⟩ := containsKey_iff.mp hl
  obtain ⟨-, hl, -⟩ | ⟨cmd, env, rfl, hm⟩ := step_entry h hl
  · exact .inl (containsKey_iff.mpr ⟨state, hl⟩)
  obtain hl | he := move_entry hm hl
  · exact .inl (containsKey_iff.mpr ⟨state, hl⟩)
  cases he with
  | registered _ _ hs => exact .inr ⟨_, env, rfl, by simp [Effect.attaches, hs]⟩
  | offered _ ho => exact .inl (containsKey_iff.mpr ⟨_, ho⟩)
  | established _ _ ho => exact .inl (containsKey_iff.mpr ⟨_, ho⟩)

theorem drain_failures (env : Env) : .recordFailure id b ∉ drain c env := by
  simp [drain, ConnectionState.notify_eq]

theorem move_failure {cs : List Command} (h : Move c (cs, os) c')
    (hf : .recordFailure id b ∈ os) : c.containsKey id = true := by
  cases h with
  | reject _ hr => cases hr <;> simp at hf
  | list _ _ => simp at hf
  | register _ _ _ => simp at hf
  | offer _ _ => simp at hf
  | establish _ _ _ => simp at hf
  | abandonOffer _ hl _ =>
    obtain ⟨rfl, -⟩ : id = _ ∧ b = _ := by simpa using hf
    exact containsKey_iff.mpr ⟨_, hl⟩
  | abandonAnswer _ hl _ =>
    obtain ⟨rfl, -⟩ : id = _ ∧ b = _ := by simpa using hf
    exact containsKey_iff.mpr ⟨_, hl⟩
  | delete _ _ _ _ => simp [ConnectionState.notify_eq] at hf
  | expire _ hl _ _ =>
    obtain ⟨rfl, -⟩ : id = _ ∧ b = _ := by simpa [ConnectionState.notify_eq] using hf
    exact containsKey_iff.mpr ⟨_, hl⟩
  | reap _ _ => simp [ConnectionState.notify_eq] at hf
  | trip env _ => simp [drain_failures] at hf
  | reset env _ _ => simp [drain_failures] at hf

theorem uncommanded_failure {ms : List (List Command × List Effect)} (h : Run Move c ms c')
    (hn : ms.flatMap Prod.fst = []) (hf : .recordFailure id b ∈ ms.flatMap Prod.snd) :
    c.containsKey id = true := by
  induction h with
  | nil => simp at hf
  | @cons c d c' m ms hm _ ih =>
    obtain ⟨cs, os⟩ := m
    obtain ⟨rfl, hn⟩ : cs = [] ∧ ms.flatMap Prod.fst = [] := by simpa using hn
    rw [List.flatMap_cons, List.mem_append] at hf
    obtain hf | hf := hf
    · exact move_failure hm hf
    · obtain ⟨state, hl⟩ := containsKey_iff.mp (ih hn hf)
      exact containsKey_iff.mpr ⟨state, uncommanded_entry hm hl⟩

theorem step_failure (h : c.Step (e, os) c') (hf : .recordFailure id b ∈ os) :
    c.containsKey id = true := by
  cases e with
  | command cmd env =>
    obtain ⟨os₁, c₁, os₂, hm, hs, rfl⟩ := handle_move h.1 h.2
    obtain hf | hf := List.mem_append.mp hf
    · exact move_failure hm hf
    · cases hs with
      | calm => simp at hf
      | trip env' _ _ => simp [drain_failures] at hf
  | _ =>
    obtain ⟨ms, hm, hcmd, rfl⟩ := step_moves h
    exact uncommanded_failure hm hcmd hf

theorem step_reset {reply : UnitReply} {env : Env} (h : c.Step (.command (.reset reply) env, os) c')
    (births : ConnectionId → Nat) (counted : List Nat) :
    (∀ id, c'.containsKey id = false) ∧ tally births os counted = [] := by
  have ht := h.2
  simp only [Coordinator.turn, Coordinator.handle, Coordinator.reset, Coordinator.resetAll,
    Option.some.injEq, Prod.mk.injEq] at ht
  obtain ⟨rfl, rfl⟩ := ht
  refine ⟨fun id => rfl, ?_⟩
  simp [tally, Sender.send]

theorem mem_tally {births : ConnectionId → Nat} {counted : List Nat} {n : Nat}
    (h : n ∈ tally births os counted) :
    n ∈ counted ∨ ∃ id b, .recordFailure id b ∈ os ∧ births id = n := by
  induction os generalizing counted with
  | nil => exact .inl h
  | cons o os ih =>
    obtain hn | ⟨id, b, ho, hb⟩ := ih h
    · cases o with
      | recordFailure id b =>
        obtain rfl | hn := List.mem_cons.mp hn
        · exact .inr ⟨id, b, by simp, rfl⟩
        · exact .inl hn
      | recordSuccess id => cases hn
      | _ => exact .inl hn
    · exact .inr ⟨id, b, List.mem_cons_of_mem o ho, hb⟩

theorem tally_append (births : ConnectionId → Nat) (os os' : List Effect) (counted : List Nat) :
    tally births (os ++ os') counted = tally births os' (tally births os counted) :=
  List.foldl_append

theorem tally_notify (births : ConnectionId → Nat) (counted : List Nat) (state : ConnectionState)
    (env : Env) (n : WaiterNotice) :
    tally births (state.notify env n id) counted = counted := by
  rw [ConnectionState.notify_eq]
  cases state.parked <;> rfl

theorem tally_drain (births : ConnectionId → Nat) (counted : List Nat) (env : Env) :
    tally births (drain c env) counted = counted := by
  unfold drain
  induction walk c.connections env.order with
  | nil => rfl
  | cons e es ih =>
    rw [List.flatMap_cons, tally_append, tally_append, tally_notify]
    exact ih

/-- The tally keeps up with the watchdog's own counter. -/
theorem move_counted {cs : List Command} {births : ConnectionId → Nat} {counted : List Nat}
    (h : Move c (cs, os) c') (hc : c.watchdog.consecutiveFailures.toNat ≤ counted.length) :
    c'.watchdog.consecutiveFailures.toNat ≤ (tally births os counted).length := by
  cases h with
  | reject _ hr => cases hr <;> exact hc
  | list _ _ => exact hc
  | register _ _ _ => exact hc
  | offer _ _ => exact hc
  | establish _ _ _ => exact Nat.zero_le _
  | abandonOffer _ _ hw => exact (Watchdog.recordFailure_le hw).trans (Nat.succ_le_succ hc)
  | abandonAnswer _ _ hw => exact (Watchdog.recordFailure_le hw).trans (Nat.succ_le_succ hc)
  | delete env _ _ _ =>
    rw [← List.singleton_append, tally_append, tally_append, tally_notify]
    exact hc
  | expire env _ _ hw =>
    rw [tally_append, tally_notify]
    exact (Watchdog.recordFailure_le hw).trans (Nat.succ_le_succ hc)
  | reap env _ =>
    rw [tally_append, tally_notify]
    exact hc
  | trip env _ =>
    rw [tally_append, tally_drain]
    exact hc
  | reset env _ _ => exact Nat.zero_le _

theorem step_counted {births : ConnectionId → Nat} {counted : List Nat} (h : c.Step (e, os) c')
    (hc : c.watchdog.consecutiveFailures.toNat ≤ counted.length) :
    c'.watchdog.consecutiveFailures.toNat ≤ (tally births os counted).length := by
  obtain ⟨ms, hm, -, rfl⟩ := step_moves h
  refine hm.history (P := fun ms d => d.watchdog.consecutiveFailures.toNat ≤
    (tally births (ms.flatMap Prod.snd) counted).length) hc fun hp hv => ?_
  rw [List.flatMap_append, tally_append]
  simpa using move_counted hv hp

end Turns

theorem counted_enough {config : CoordinatorConfig} {ls : List (Service.Input × List Effect)}
    {s : Service} (h : Run Service.Step (.start config) ls s) :
    s.coordinator.watchdog.consecutiveFailures.toNat ≤ s.counted.length := by
  refine h.invariant (P := fun s => s.coordinator.watchdog.consecutiveFailures.toNat ≤
    s.counted.length) (Nat.le_refl 0) ?_
  rintro s s' ⟨i, os⟩ hi hs
  obtain hs | ⟨w, r, -, -, -, rfl⟩ | ⟨-, -, rfl⟩ | ⟨job, id, n, -, -, -, -, -, rfl⟩ |
    ⟨job, env, c, -, -, hc, -, rfl⟩ := Service.step_cases hs
  · rwa [hs.coordinator, hs.counted]
  · unfold Service.woken
    split <;> exact hi
  · exact hi
  · exact hi
  · exact step_counted hc hi

/-- Everything there is dates from runs with a property: the pipeline, the
connections and the failures the watchdog counts. -/
structure Dated (P : Nat → Prop) (s : Service) : Prop where
  pipeline : ∀ n, s.pipeline = some n → P n
  births : ∀ id, s.live id → P (s.births id)
  counted : ∀ n ∈ s.counted, P n

section Dates

variable {P : Nat → Prop} {s s' : Service} {os : List Effect}

theorem dated_of_empty (hp : s.pipeline = none) (hl : ∀ id, ¬ s.live id) (hc : s.counted = []) :
    Dated P s := by
  refine ⟨fun n hn => ?_, fun id h => absurd h (hl id), fun n hn => ?_⟩
  · rw [hp] at hn
    cases hn
  · rw [hc] at hn
    cases hn

theorem Dated.shuffle (h : Dated P s) (hs : s.Shuffles s') : Dated P s' :=
  ⟨fun n hn => h.pipeline n (hs.pipeline ▸ hn),
    fun id hl => hs.births ▸ h.births id (hs.live id hl), fun n hn => h.counted n (hs.counted ▸ hn)⟩

theorem finished_live {job : Job} {env : Env} {c : Coordinator} {id : ConnectionId}
    (hj : s.job = some job) (hs : s.coordinator.Step (job.turn.event env, os) c)
    (ha : os.any Effect.attaches = job.attached) (hl : (s.finished job c os).live id) :
    s.live id := by
  have hk : c.containsKey id = true := by simpa [Service.live, Service.finished] using hl
  obtain hk | ⟨reply, env', he, hat⟩ := step_origin hs hk
  · exact .inl hk
  · refine .inr ?_
    obtain ⟨turn, started, attached⟩ := job
    obtain rfl : attached = true := ha.symm.trans hat
    cases turn with
    | command p =>
      obtain ⟨cmd, run⟩ := p
      cases he
      rw [hj]
      rfl
    | branchFailure branch => cases he
    | sweepTick => cases he

theorem Dated.finish {job : Job} {env : Env} {c : Coordinator} (h : Dated P s)
    (hj : s.job = some job) (hs : s.coordinator.Step (job.turn.event env, os) c)
    (ha : os.any Effect.attaches = job.attached) : Dated P (s.finished job c os) := by
  refine ⟨h.pipeline, fun id hl => h.births id (finished_live hj hs ha hl), fun n hn => ?_⟩
  obtain hn | ⟨id, b, ho, rfl⟩ := mem_tally hn
  · exact h.counted n hn
  · exact h.births id (.inl (step_failure hs ho))

theorem attached_live {job : Job} {id i : ConnectionId} {n : Nat}
    (hc : job.turn.creates = some i) (hl : (s.attached job i n).live id) :
    s.coordinator.containsKey id = true ∨ id = i := by
  obtain hk | hl := hl
  · exact .inl hk
  · exact .inr (Option.some.inj (hl.symm.trans hc))

theorem Dated.attach {job : Job} {i : ConnectionId} {n : Nat} (h : Dated P s)
    (hc : job.turn.creates = some i) (hn : s.pipeline = some n) : Dated P (s.attached job i n) := by
  refine ⟨h.pipeline, fun id hl => ?_, h.counted⟩
  change P (Function.update s.births i n id)
  by_cases hi : id = i
  · subst hi
    rw [Function.update_self]
    exact h.pipeline n hn
  · have hl' := (attached_live hc hl).resolve_right hi
    rw [Function.update_of_ne hi]
    exact h.births id (.inl hl')

/-- Once a `Reset` has been executed nothing is left but a pipeline. -/
theorem dated_of_reset {job : Job} {env : Env} {c : Coordinator} {n : Nat}
    (hs : s.coordinator.Step (job.turn.event env, os) c) (hr : job.turn.resets = some n)
    (hp : s.pipeline = none) : Dated P (s.finished job c os) := by
  obtain ⟨turn, started, attached⟩ := job
  cases turn with
  | command p =>
    obtain ⟨cmd, run⟩ := p
    cases cmd with
    | reset reply =>
      obtain ⟨hk, ht⟩ := step_reset hs s.births s.counted
      refine dated_of_empty hp (fun id hl => ?_) ht
      obtain hl | hl := hl
      · exact Bool.false_ne_true ((hk id).symm.trans hl)
      · cases hl
    | _ => cases hr
  | _ => cases hr

end Dates

def firstRun : List Service.Input :=
  [.wake (.checked false), .wake (.received false), .built, .wake (.initialized true)]

def create (id : ConnectionId) (ch : Nat) (now : Instant) (order : List ConnectionId) :
    List Service.Input :=
  [.request (.createConnection id ⟨ch⟩), .receive, .attach, .finish (.calm now order)]

def nextRun : List Service.Input :=
  [.tick (.fromSecs 1), .wake .slept, .wake (.checked false), .wake (.received false)]

end SrtWhep.Generations
