import SrtWhep.Deliveries
import SrtWhep.Sweeps

namespace SrtWhep.Trips

open Library.Runs Library.Tables Moves Waiters Deliveries Sweeps

/-- What a turn that trips the watchdog does from the trip on: it wipes what is
left in the map, and asks for the restart last. -/
inductive Wipes : List Effect → Coordinator → Prop
  | intro {os : List Effect} {id : ConnectionId} {d c' : Coordinator} (env : Env) :
      ¬ Tripped os → c'.connections = ∅ → c'.watchdog.consecutiveFailures = 0 →
      Wipes (os ++ .recordFailure id true :: (drain d env ++ [.requestRestart])) c'

theorem Wipes.prepend {os os' : List Effect} {c : Coordinator} (h : Wipes os' c)
    (hn : ¬ Tripped os) : Wipes (os ++ os') c := by
  cases h with
  | intro env ht hc hw =>
    rw [← List.append_assoc]
    exact .intro env (by simp [hn, ht]) hc hw

section Turns

variable {c c' : Coordinator} {env : Env} {e : Event} {os : List Effect} {id : ConnectionId}
  {cmd : Command}

theorem tripped_failures {w w' : Watchdog} {now : Instant}
    (h : w.recordFailure now = some (true, w')) : w'.consecutiveFailures = 0 := by
  obtain ⟨-, -, rfl⟩ | ⟨hf, -⟩ := Watchdog.recordFailure_cases h
  · rfl
  · cases hf

/-- A command trips the watchdog last, and only over a waiter that is gone. -/
theorem move_trips (h : Move c ([cmd], os) c') : ¬ Tripped os ∧
    ((∀ id, .recordFailure id true ∉ os) ∨ ∃ os₁ id, os = os₁ ++ [.recordFailure id true] ∧
      c'.watchdog.consecutiveFailures = 0) := by
  cases h with
  | reject b hr => exact ⟨by cases hr <;> simp, .inl (by cases hr <;> simp)⟩
  | @abandonOffer id sdp reply whep d call tripped w b hl hw =>
    cases tripped with
    | false => exact ⟨by simp, .inl (by simp)⟩
    | true =>
      exact ⟨by simp, .inr ⟨[.send whep.channel (.ok (.offer sdp)) false,
        .send reply.channel (.error (.gone id)) b, .ended id .peerGone, .removeBranch id call],
        id, rfl, tripped_failures hw⟩⟩
  | @abandonAnswer id sdp reply whip d call tripped w b hl hw =>
    cases tripped with
    | false => exact ⟨by simp, .inl (by simp)⟩
    | true =>
      exact ⟨by simp, .inr ⟨[.send whip.channel (.ok (.answer sdp)) false,
        .send reply.channel (.error (.gone id)) b, .ended id .peerGone, .removeBranch id call],
        id, rfl, tripped_failures hw⟩⟩
  | delete env b hl hs => exact ⟨by simp, .inl (by simp [ConnectionState.notify_eq])⟩
  | reset env b hc =>
    exact ⟨by simp, .inl (by simp [drain, ConnectionState.notify_eq])⟩
  | _ => exact ⟨by simp, .inl (by simp)⟩

theorem handle_trips (hc : Covers env.order c.connections) (h : c.handle cmd env = some (c', os)) :
    ¬ Tripped os ∨ Wipes os c' := by
  obtain ⟨os₁, c₁, os₂, hm, hs, rfl⟩ := handle_move hc h
  obtain ⟨hn, ht⟩ := move_trips hm
  cases hs with
  | calm => exact .inl (by simpa using hn)
  | @trip i env' hf hcov =>
    obtain ht | ⟨os₀, id, rfl, hw⟩ := ht
    · exact absurd hf (ht i)
    · rw [List.append_assoc]
      exact .inr (.intro env' (fun ht => hn (by simp [ht])) rfl hw)

theorem terminateExpired_trips {ids : List ConnectionId}
    (hin : ∀ id ∈ ids, id ∈ c.connections) (hn : ids.Nodup)
    (h : Coordinator.terminateExpired env ids c = some (c', os)) : ¬ Tripped os ∨ Wipes os c' := by
  induction ids generalizing c os with
  | nil =>
    cases h
    exact .inl (by simp)
  | cons id ids ih =>
    obtain ⟨state, tripped, w, os', -, hw, rfl, ⟨rfl, hin', hr⟩ | ⟨rfl, rfl, rfl⟩⟩ :=
      terminateExpired_first hn hin h
    · obtain hcalm | htr := ih hin' hn.of_cons hr
      · exact .inl (by simp [hcalm])
      · exact .inr (htr.prepend (by simp))
    · have hpre : ¬ Tripped (state.notify env .expiredLeg id ++
        [.ended id .expired, .removeBranch id (env.branch id)]) := by simp
      have hmap : ({ c with connections := ∅, watchdog := w } : Coordinator).connections = ∅ := rfl
      have hwipe := @Wipes.intro _ id (c.remove id) _ env hpre hmap (tripped_failures hw)
      exact .inr (by simpa using hwipe)

theorem step_trips (h : c.Step (e, os) c') : ¬ Tripped os ∨ Wipes os c' := by
  cases e with
  | command cmd env => exact handle_trips h.1 h.2
  | branchFailure branch env =>
    obtain ⟨-, -, rfl⟩ | ⟨state, -, -, rfl⟩ := reapBranch_move h.2
    · exact .inl (by simp)
    · exact .inl (by simp)
  | sweepTick env =>
    exact terminateExpired_trips (expired_present h.1) (expired_nodup h.1) h.2

theorem move_counts {cs : List Command} {b : Bool} (h : Move c (cs, os) c')
    (hf : .recordFailure id b ∈ os) : id ∈ removals os := by
  cases h with
  | reject _ hr => cases hr <;> simp at hf
  | abandonOffer | abandonAnswer | expire | delete | reap =>
    simp_all [ConnectionState.notify_eq]
  | trip env _ => simp [drain, ConnectionState.notify_eq] at hf
  | reset env _ _ => simp [drain, ConnectionState.notify_eq] at hf
  | _ => simp at hf

theorem step_counts {b : Bool} (h : c.Step (e, os) c') (hf : .recordFailure id b ∈ os) :
    id ∈ removals os := by
  obtain ⟨ms, hm, -, rfl⟩ := step_moves h
  obtain ⟨m, hmem, hf⟩ := List.mem_flatMap.mp hf
  obtain ⟨d, d', hd⟩ := hm.step_of_mem hmem
  rw [removals, List.filterMap_flatMap]
  exact List.mem_flatMap.mpr ⟨m, hmem, move_counts hd hf⟩

theorem move_leaves (h : Move c ([cmd], os) c') (hr : ∀ reply, cmd ≠ .reset reply)
    (hin : id ∈ c.connections) (hout : id ∉ c'.connections) : cmd.connection = some id := by
  have herase : ∀ {i}, id ∉ c.connections.erase i → i = id := by
    intro i hi
    by_contra hne
    exact hi (Finmap.mem_erase.mpr ⟨Ne.symm hne, hin⟩)
  cases h with
  | reject b _ => exact absurd hin hout
  | list infos b => exact absurd hin hout
  | register _ _ _ => exact absurd (Finmap.mem_insert.mpr (.inr hin)) hout
  | offer _ _ =>
    obtain ⟨hne, hout⟩ := not_or.mp (mt Finmap.mem_insert.mpr hout)
    exact absurd (herase hout).symm hne
  | establish _ b _ =>
    obtain ⟨hne, hout⟩ := not_or.mp (mt Finmap.mem_insert.mpr hout)
    exact absurd (herase hout).symm hne
  | abandonOffer b _ _ => exact congrArg some (herase hout)
  | abandonAnswer b _ _ => exact congrArg some (herase hout)
  | delete env b _ _ => exact congrArg some (herase hout)
  | reset env b _ => exact absurd rfl (hr _)

end Turns

inductive Carries : Event → ConnectionId → Payload → Prop
  | offer {id sdp reply env} : Carries (.command (.offerReceived id sdp reply) env) id (.offer sdp)
  | answer {id sdp reply env} :
      Carries (.command (.answerReceived id sdp reply) env) id (.answer sdp)

/-- The ids an event names or, for a sweep, finds expired. -/
def Concerns (c : Coordinator) : Event → ConnectionId → Prop
  | .command cmd _, id => cmd.connection = some id
  | .branchFailure branch _, id => branch.intoString = id
  | .sweepTick env, id => id ∈ c.expired env

/-- A trip is total: nothing is left of the map or of the failures counted, every
parked reply is consumed by one send, and after the failure that trips nothing
is torn down or counted any more. A sweep gets no further than that. -/
structure Total (c : Coordinator) (e : Event) (os : List Effect) (c' : Coordinator) : Prop where
  emptied : c'.connections = ∅
  restarted : c'.watchdog.consecutiveFailures = 0
  answered : ∀ id state ch, c.connections.lookup id = some state → state.parked = some ch →
    sends os ch = 1 ∧ ∀ r b, .send ch r b ∈ os →
      (∃ err, r = .error err) ∨ ∃ p, r = .ok p ∧ Carries e id p
  last : ∃ os₁ id os₂, os = os₁ ++ .recordFailure id true :: (os₂ ++ [.requestRestart]) ∧
    removals os₂ = [] ∧ ∀ i b, .recordFailure i b ∉ os₂
  swept : ∀ env, e = .sweepTick env → removals os <+: c.expired env ∧
    ∀ i b, .recordFailure i b ∈ os → i ∈ removals os

variable {config : CoordinatorConfig} {ls : List (Event × List Effect)} {c c' : Coordinator}
  {e : Event} {os : List Effect}

theorem step_carries (h : Run Coordinator.Step (.new config) ls c) (hs : c.Step (e, os) c')
    (hn : ((taken (ls ++ [(e, os)])).map Command.channel).Nodup) {id : ConnectionId}
    {state : ConnectionState} {ch : Nat} {p : Payload} {b : Bool}
    (hl : c.connections.lookup id = some state) (hp : state.parked = some ch)
    (ho : .send ch (.ok p) b ∈ os) : Carries e id p := by
  obtain ⟨cmd, env, rfl, hd⟩ := step_delivers hs ho
  rw [taken_append, taken_single, List.map_append] at hn
  have hold := (List.nodup_append.mp hn).1
  cases hd with
  | offer hl' =>
    obtain rfl := parked_apart h hold hl hp hl' rfl
    exact .offer
  | answer hl' =>
    obtain rfl := parked_apart h hold hl hp hl' rfl
    exact .answer
  | own _ _ _ =>
    obtain ⟨cmd', hm, -, -, hch⟩ := parked_by h hl hp
    exact absurd hch
      ((List.nodup_append.mp hn).2.2 _ (List.mem_map_of_mem hm) _ (by simp [commands]))

theorem Wipes.total (hw : Wipes os c') (h : Run Coordinator.Step (.new config) ls c)
    (hs : c.Step (e, os) c') (hn : ((taken (ls ++ [(e, os)])).map Command.channel).Nodup) :
    Total c e os c' := by
  have he : c'.connections = ∅ ∧ c'.watchdog.consecutiveFailures = 0 := by
    cases hw with
    | intro env _ hc hf => exact ⟨hc, hf⟩
  refine ⟨he.1, he.2, fun id state ch hl hp => ⟨wipe_answers h hs hn he.1 hl hp, ?_⟩, ?_, ?_⟩
  · intro r b ho
    cases r with
    | error err => exact .inl ⟨err, rfl⟩
    | ok p => exact .inr ⟨p, rfl, step_carries h hs hn hl hp ho⟩
  · cases hw with
    | @intro os₁ id d _ env _ _ _ =>
      exact ⟨os₁, id, drain d env, rfl, removals_drain, fun i b => by
        simp [drain, ConnectionState.notify_eq]⟩
  · rintro env rfl
    exact ⟨(sweepExpired_outcome hs.1 hs.2).removals_in_order, fun i b => step_counts hs⟩

theorem Wipes.count_le (h : Wipes os c') : os.count .requestRestart ≤ 1 := by
  cases h with
  | @intro os₁ id d _ env ht _ _ =>
    have hd : List.count .requestRestart (drain d env) = 0 := List.count_eq_zero.mpr tripped_drain
    simp [List.count_eq_zero.mpr ht, hd]

theorem step_leaves (hs : c.Step (e, os) c') (ht : ¬ Tripped os)
    (hr : ∀ reply env, e ≠ .command (.reset reply) env) {id : ConnectionId}
    (hin : id ∈ c.connections) (hout : id ∉ c'.connections) : Concerns c e id := by
  cases e with
  | command cmd env =>
    obtain ⟨os₁, c₁, os₂, hm, hset, rfl⟩ := handle_move hs.1 hs.2
    cases hset with
    | calm => exact move_leaves hm (fun reply he => hr reply env (by rw [he])) hin hout
    | trip env' _ _ => exact absurd (by simp) ht
  | branchFailure branch env =>
    obtain ⟨-, rfl, -⟩ | ⟨state, -, rfl, -⟩ := reapBranch_move hs.2
    · exact absurd hin hout
    · by_contra hne
      exact hout (Finmap.mem_erase.mpr ⟨Ne.symm hne, hin⟩)
  | sweepTick env =>
    obtain ⟨-, -, hd⟩ := (sweepExpired_outcome hs.1 hs.2).untripped ht
    by_contra hne
    obtain ⟨state, hl⟩ := Finmap.mem_iff.mp hin
    have hk : c'.connections.lookup id = some state :=
      (hd id).trans ((if_neg hne).trans hl)
    exact hout (Finmap.mem_of_lookup_eq_some hk)

/-- In every reachable state, any event asks for at most one restart; where it
asks for one, nothing of the map is left, and where it does not, it takes out
of the map only what it concerns. -/
theorem trip_total (h : Run Coordinator.Step (.new config) ls c) (hs : c.Step (e, os) c')
    (hn : ((taken (ls ++ [(e, os)])).map Command.channel).Nodup) :
    os.count .requestRestart ≤ 1 ∧ (Tripped os → Total c e os c') ∧
      (¬ Tripped os → (∀ reply env, e ≠ .command (.reset reply) env) →
        ∀ id, id ∈ c.connections → id ∉ c'.connections → Concerns c e id) := by
  refine ⟨?_, fun ht => ?_, fun ht hr id => step_leaves hs ht hr⟩
  · obtain ht | hw := step_trips hs
    · rw [List.count_eq_zero.mpr ht]
      exact Nat.zero_le 1
    · exact hw.count_le
  · exact ((step_trips hs).resolve_left (not_not_intro ht)).total h hs hn

/-- At threshold 1 the first of two handshakes to expire trips the watchdog: the second
is not torn down, and the one that is not due is wiped with it. -/
theorem trip_total_sweep : ∃ ls c env os c',
    Run Coordinator.Step (.new { watchdogThreshold := 1 }) ls c ∧
    c.Step (.sweepTick env, os) c' ∧ c.expired env = ["a", "b"] ∧ "c" ∈ c.connections ∧
    Tripped os ∧ removals os = ["a"] ∧ Total c (.sweepTick env) os c' := by
  let env : Env := .calm (Duration.fromSecs 12) ["a", "b", "c"]
  obtain ⟨ls, c, h, -, hv⟩ := replayed Coordinator.next Coordinator.Step
    (fun _ _ _ _ => Coordinator.next_eq_some.mp) (.new { watchdogThreshold := 1 })
    [.command (.createConnection "a" ⟨0⟩) (.calm 0 []),
      .command (.createConnection "b" ⟨1⟩) (.calm 0 ["a"]),
      .command (.createConnection "c" ⟨2⟩) (.calm (Duration.fromSecs 5) ["a", "b"])]
    ([.createConnection "a" ⟨0⟩, .createConnection "b" ⟨1⟩, .createConnection "c" ⟨2⟩],
      ["a", "b"], true, some (true, ["a"]))
    (fun r => (taken r.2, r.1.expired env, r.1.containsKey "c",
      (r.1.next (.sweepTick env)).map fun t => (decide (Tripped t.2), removals t.2))) (by decide)
  simp only [Prod.mk.injEq] at hv
  obtain ⟨htaken, hexp, hkey, hnext⟩ := hv
  obtain ⟨⟨c', os⟩, hn, ht⟩ := Option.map_eq_some_iff.mp hnext
  obtain ⟨htrip, hrem⟩ := Prod.mk.inj ht
  have hs : c.Step (.sweepTick env, os) c' := Coordinator.next_eq_some.mp hn
  have hin : "c" ∈ c.connections := Finmap.mem_iff.mpr (Option.isSome_iff_exists.mp hkey)
  have hnodup : ((taken (ls ++ [(.sweepTick env, os)])).map Command.channel).Nodup := by
    simp [htaken, commands, Command.channel]
  exact ⟨ls, c, env, os, c', h, hs, hexp, hin, of_decide_eq_true htrip, hrem,
    (trip_total h hs hnodup).2.1 (of_decide_eq_true htrip)⟩

end SrtWhep.Trips
