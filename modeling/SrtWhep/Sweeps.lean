import SrtWhep.Panics
import SrtWhep.Routes
import SrtWhep.Waiters

namespace SrtWhep.Sweeps

open Library.Runs Library.Tables Moves Waiters

@[simp] def answer : Effect → Option (Nat × Except SignalError Payload)
  | .send ch r _ => some (ch, r)
  | _ => none

@[simp] def removal : Effect → Option ConnectionId
  | .removeBranch id _ => some id
  | _ => none

def answers (os : List Effect) : List (Nat × Except SignalError Payload) := os.filterMap answer

def removals (os : List Effect) : List ConnectionId := os.filterMap removal

def Tripped (os : List Effect) : Prop := .requestRestart ∈ os

instance (os : List Effect) : Decidable (Tripped os) := inferInstanceAs (Decidable (_ ∈ os))

def told (n : WaiterNotice) (es : List (ConnectionId × ConnectionState)) :
    List (Nat × Except SignalError Payload) :=
  es.flatMap fun e => e.2.parked.toList.map (·, .error (e.2.notice e.1 n))

def timeouts (c : Coordinator) (ids : List ConnectionId) :
    List (Nat × Except SignalError Payload) :=
  told .expiredLeg (walk c.connections ids)

def refusals (c : Coordinator) (env : Env) (ids : List ConnectionId) :
    List (Nat × Except SignalError Payload) :=
  told .unavailable ((walk c.connections env.order).filter (·.1 ∉ ids))

/-- What a sweep has done when it is over. A trip ends it early: the handshakes
up to the one that tripped are terminated as without it, and the rest of the map
is wiped. -/
inductive Outcome (c : Coordinator) (env : Env) (ids : List ConnectionId) :
    List Effect → Coordinator → Prop
  | calm {os d} : ¬ Tripped os → answers os = timeouts c ids → removals os = ids →
      (∀ id, d.connections.lookup id = if id ∈ ids then none else c.connections.lookup id) →
      Outcome c env ids os d
  | trip {os d} (pre post) : Tripped os → ids = pre ++ post → pre ≠ [] →
      answers os = timeouts c pre ++ refusals c env pre → removals os = pre →
      d.connections = ∅ → Outcome c env ids os d

/-- The removals return within one window of each other and of the last failure
counted, so that no failure of the sweep starts the count over. -/
structure Brisk (w : Watchdog) (env : Env) (ids : List ConnectionId) : Prop where
  last : ∀ t, w.lastFailure = some t → ∀ id ∈ ids,
    (env.branch id).returned.durationSince t ≤ w.window
  each : ∀ id ∈ ids, ∀ id' ∈ ids,
    (env.branch id').returned.durationSince (env.branch id).returned ≤ w.window

def quota (w : Watchdog) : Nat := max 1 (w.threshold.toNat - w.consecutiveFailures.toNat)

section Effects

variable {os os' : List Effect}

@[simp] theorem answers_nil : answers [] = [] := rfl

@[simp] theorem answers_cons (o : Effect) :
    answers (o :: os) = (answer o).toList ++ answers os := by
  rw [answers, List.filterMap_cons]
  cases answer o <;> rfl

@[simp] theorem answers_append : answers (os ++ os') = answers os ++ answers os' :=
  List.filterMap_append

@[simp] theorem removals_nil : removals [] = [] := rfl

@[simp] theorem removals_cons (o : Effect) :
    removals (o :: os) = (removal o).toList ++ removals os := by
  rw [removals, List.filterMap_cons]
  cases removal o <;> rfl

@[simp] theorem removals_append : removals (os ++ os') = removals os ++ removals os' :=
  List.filterMap_append

@[simp] theorem tripped_nil : ¬ Tripped [] := List.not_mem_nil

@[simp] theorem tripped_append : Tripped (os ++ os') ↔ Tripped os ∨ Tripped os' :=
  List.mem_append

@[simp] theorem tripped_cons (o : Effect) :
    Tripped (o :: os) ↔ o = .requestRestart ∨ Tripped os := by
  simp [Tripped, eq_comm]

variable (state : ConnectionState) (env : Env) (n : WaiterNotice) (id : ConnectionId)

@[simp] theorem answers_notify : answers (state.notify env n id) =
    state.parked.toList.map (·, .error (state.notice id n)) := by
  rw [ConnectionState.notify_eq]
  cases state.parked <;> simp

@[simp] theorem removals_notify : removals (state.notify env n id) = [] := by
  rw [ConnectionState.notify_eq]
  cases state.parked <;> simp

@[simp] theorem tripped_notify : ¬ Tripped (state.notify env n id) := by
  simp [Tripped, ConnectionState.notify_eq]

end Effects

section Wipe

variable {c : Coordinator} {env : Env}

@[simp] theorem answers_drain :
    answers (drain c env) = told .unavailable (walk c.connections env.order) := by
  rw [drain, told]
  induction walk c.connections env.order with
  | nil => rfl
  | cons e es ih => simp [ih]

@[simp] theorem removals_drain : removals (drain c env) = [] := by
  rw [drain]
  induction walk c.connections env.order with
  | nil => rfl
  | cons e es ih => simp [ih]

@[simp] theorem tripped_drain : ¬ Tripped (drain c env) := by
  simp [Tripped, drain, ConnectionState.notify_eq]

end Wipe

section Runs

variable {c d : Coordinator} {env : Env} {ids : List ConnectionId} {os : List Effect}

theorem timeouts_erase {id : ConnectionId} (w : Watchdog) (hn : id ∉ ids) :
    timeouts { c with connections := c.connections.erase id, watchdog := w } ids =
      timeouts c ids := by
  unfold timeouts
  rw [walk_erase, List.filter_eq_self.mpr]
  rintro ⟨k, v⟩ he
  have hk : k ∈ ids := ((mem_walk k v).mp he).1
  exact decide_eq_true fun hkid => hn (hkid ▸ hk)

theorem timeouts_nil : timeouts c [] = [] := rfl

theorem timeouts_cons {id : ConnectionId} {state : ConnectionState}
    (hl : c.connections.lookup id = some state) : timeouts c (id :: ids) =
      state.parked.toList.map (·, .error (state.notice id .expiredLeg)) ++ timeouts c ids := by
  simp [timeouts, told, walk, hl]

theorem refusals_erase {id : ConnectionId} (w : Watchdog) :
    refusals { c with connections := c.connections.erase id, watchdog := w } env ids =
      refusals c env (id :: ids) := by
  unfold refusals
  rw [walk_erase, List.filter_filter]
  congr 1
  apply List.filter_congr
  intro e _
  simp [Bool.and_comm]

theorem terminateExpired_outcome (hn : ids.Nodup) (hin : ∀ id ∈ ids, id ∈ c.connections)
    (h : Coordinator.terminateExpired env ids c = some (d, os)) : Outcome c env ids os d := by
  induction ids generalizing c os with
  | nil =>
    cases h
    exact .calm (by simp) rfl rfl (by simp)
  | cons id ids ih =>
    obtain ⟨state, tripped, w, os', hl, -, rfl, ⟨rfl, hin', hr⟩ | ⟨rfl, rfl, rfl⟩⟩ :=
      terminateExpired_first hn hin h
    · obtain ⟨hid, hn⟩ := List.nodup_cons.mp hn
      cases ih hn hin' hr with
      | calm hcalm ha hrm hd =>
        refine .calm (by simp [hcalm]) ?_ (by simp [hrm]) fun i => ?_
        · simp [ha, timeouts_erase w hid, timeouts_cons hl]
        · rw [hd i, lookup_erase]
          by_cases hi : i ∈ ids <;> simp [hi]
      | trip pre post htr he hne ha hrm hd =>
        subst he
        have hpre : id ∉ pre := fun hm => hid (by simp [hm])
        refine .trip (id :: pre) post (by simp [htr]) rfl (by simp) ?_ (by simp [hrm]) hd
        simp [ha, timeouts_erase w hpre, timeouts_cons hl, refusals_erase]
    · -- The trip has emptied the map: the rest of the sweep finds nothing.
      refine .trip [id] ids (by simp) rfl (by simp) ?_ (by simp) rfl
      rw [timeouts_cons hl, timeouts_nil]
      simp [refusals, Coordinator.remove, walk_erase]

theorem recordFailure_quota {w w' : Watchdog} {now : Instant} {tripped : Bool}
    (hl : ∀ t, w.lastFailure = some t → now.durationSince t ≤ w.window)
    (h : w.recordFailure now = some (tripped, w')) :
    tripped = true ∧ quota w = 1 ∨
      tripped = false ∧ quota w = quota w' + 1 ∧ w'.window = w.window ∧
        w'.lastFailure = some now := by
  have hd : w.decayed now = w.consecutiveFailures := by
    unfold Watchdog.decayed
    split
    next t ht => rw [if_neg (Nat.not_lt.mpr (hl t ht))]
    next => rfl
  obtain ⟨rfl, hle, -⟩ | ⟨rfl, hlt, hn, hlast, ht, hw⟩ := Watchdog.recordFailure_cases h
  · rw [hd] at hle
    exact .inl ⟨rfl, by unfold quota; omega⟩
  · rw [hd] at hlt hn
    exact .inr ⟨rfl, by simp only [quota, ht]; omega, hw, hlast⟩

/-- A brisk sweep trips when it reaches the quota, in whatever order. -/
theorem terminateExpired_quota (hb : Brisk c.watchdog env ids) (hn : ids.Nodup)
    (hin : ∀ id ∈ ids, id ∈ c.connections)
    (h : Coordinator.terminateExpired env ids c = some (d, os)) :
    (removals os).length = min ids.length (quota c.watchdog) ∧
      (Tripped os ↔ quota c.watchdog ≤ ids.length) := by
  induction ids generalizing c os with
  | nil =>
    cases h
    simp [quota]
  | cons id ids ih =>
    obtain ⟨state, tripped, w, os', -, hw, rfl, hcase⟩ := terminateExpired_first hn hin h
    have hq := recordFailure_quota (fun t ht => hb.last t ht id (by simp)) hw
    obtain ⟨rfl, hin', hr⟩ | ⟨rfl, rfl, rfl⟩ := hcase
    · obtain ⟨hf, -⟩ | ⟨-, hq, hwin, hlast⟩ := hq
      · cases hf
      have hb' : Brisk w env ids := by
        refine ⟨fun t ht i hi => ?_, fun i hi j hj => ?_⟩
        · cases hlast.symm.trans ht
          exact hwin ▸ hb.each id (by simp) i (by simp [hi])
        · exact hwin ▸ hb.each i (by simp [hi]) j (by simp [hj])
      obtain ⟨hlen, htr⟩ := ih hb' hn.of_cons hin' hr
      rw [hq]
      exact ⟨by simp [hlen], by simp [htr]⟩
    · obtain ⟨-, hq⟩ | ⟨hf, -⟩ := hq
      · rw [hq]
        exact ⟨by simp, by simp⟩
      · cases hf

theorem sweepExpired_outcome (hc : Covers env.order c.connections)
    (h : c.sweepExpired env = some (d, os)) : Outcome c env (c.expired env) os d :=
  terminateExpired_outcome (expired_nodup hc) (expired_present hc) h

theorem sweepExpired_conserves (hc : Covers env.order c.connections)
    (h : c.sweepExpired env = some (d, os)) :
    sent os + gather held d.connections = gather held c.connections := by
  simpa [commands] using @step_conserves c d (.sweepTick env, os) ⟨hc, h⟩

theorem Outcome.tripped (h : Outcome c env ids os d) (ht : Tripped os) : d.connections = ∅ := by
  cases h with
  | calm hn => exact absurd ht hn
  | trip _ _ _ _ _ _ _ hd => exact hd

theorem Outcome.untripped (h : Outcome c env ids os d) (ht : ¬ Tripped os) :
    answers os = timeouts c ids ∧ removals os = ids ∧
      ∀ id, d.connections.lookup id = if id ∈ ids then none else c.connections.lookup id := by
  cases h with
  | calm _ ha hr hd => exact ⟨ha, hr, hd⟩
  | trip _ _ hn => exact absurd hn ht

theorem Outcome.removals_in_order (h : Outcome c env ids os d) : removals os <+: ids := by
  cases h with
  | calm _ _ hr => exact hr ▸ List.prefix_rfl
  | trip pre post _ he _ _ hr => exact hr ▸ he ▸ List.prefix_append pre post

theorem timeouts_status {ch : Nat} {err : SignalError} (h : (ch, .error err) ∈ timeouts c ids) :
    err.statusCode = .serviceUnavailable := by
  obtain ⟨⟨id, state⟩, -, hm⟩ := List.mem_flatMap.mp h
  obtain ⟨ch', -, he⟩ := List.mem_map.mp hm
  obtain ⟨-, he⟩ := Prod.mk.inj he
  cases he
  cases state <;> rfl

variable {d' : Coordinator} {env' : Env} {os' : List Effect}

theorem expired_perm (hc : Covers env.order c.connections) (hc' : Covers env'.order c.connections)
    (hnow : env.now = env'.now) : (c.expired env).Perm (c.expired env') := by
  refine (List.perm_ext_iff_of_nodup (expired_nodup hc) (expired_nodup hc')).mpr fun id => ?_
  rw [mem_expired hc, mem_expired hc', hnow]

theorem timeouts_perm {ids' : List ConnectionId} (h : ids.Perm ids') :
    (timeouts c ids).Perm (timeouts c ids') :=
  (h.filterMap _).flatMap_right _

theorem calm_orders (hp : (c.expired env).Perm (c.expired env'))
    (h : Outcome c env (c.expired env) os d) (h' : Outcome c env' (c.expired env') os' d')
    (ht : ¬ Tripped os) (ht' : ¬ Tripped os') :
    (answers os).Perm (answers os') ∧ (removals os).Perm (removals os') ∧
      d.connections = d'.connections := by
  obtain ⟨ha, hr, hd⟩ := h.untripped ht
  obtain ⟨ha', hr', hd'⟩ := h'.untripped ht'
  refine ⟨ha ▸ ha' ▸ timeouts_perm hp, hr ▸ hr' ▸ hp, Finmap.ext_lookup fun id => ?_⟩
  rw [hd, hd']
  simp only [hp.mem_iff]

end Runs

/-- Sweeps of one map at one time, in two orders. Unless one of them trips they
tell every waiter the same and leave the same map. A sweep that trips is cut
short, and which waiters it has told of their timeout by then depends on the
order; but it empties the map and tells every waiter something, and brisk sweeps
trip together and after as many removals. -/
theorem sweep_orders {c : Coordinator} {env env' : Env} (hc : Covers env.order c.connections)
    (hc' : Covers env'.order c.connections) (hnow : env.now = env'.now) :
    ∃ os d os' d', c.sweepExpired env = some (d, os) ∧ c.sweepExpired env' = some (d', os') ∧
      (c.expired env).Perm (c.expired env') ∧
      (∀ ch err, (ch, .error err) ∈ timeouts c (c.expired env) →
        err.statusCode = .serviceUnavailable) ∧
      Outcome c env (c.expired env) os d ∧ Outcome c env' (c.expired env') os' d' ∧
      (¬ Tripped os → ¬ Tripped os' → (answers os).Perm (answers os') ∧
        (removals os).Perm (removals os') ∧ d.connections = d'.connections) ∧
      (Tripped os → Tripped os' → sent os = gather held c.connections ∧
        sent os' = gather held c.connections ∧ d.connections = d'.connections) ∧
      (Brisk c.watchdog env (c.expired env) → Brisk c.watchdog env' (c.expired env') →
        (Tripped os ↔ Tripped os') ∧ (removals os).length = (removals os').length ∧
          d.connections = d'.connections) := by
  obtain ⟨⟨d, os⟩, h⟩ := Option.isSome_iff_exists.mp
    (@Panics.terminateExpired_isSome c env (c.expired env))
  obtain ⟨⟨d', os'⟩, h'⟩ := Option.isSome_iff_exists.mp
    (@Panics.terminateExpired_isSome c env' (c.expired env'))
  have hp := expired_perm hc hc' hnow
  have ho := sweepExpired_outcome hc h
  have ho' := sweepExpired_outcome hc' h'
  have hs := sweepExpired_conserves hc h
  have hs' := sweepExpired_conserves hc' h'
  refine ⟨os, d, os', d', h, h', hp, fun ch err => timeouts_status, ho, ho',
    calm_orders hp ho ho', fun ht ht' => ?_, fun hb hb' => ?_⟩
  · have hd := ho.tripped ht
    have hd' := ho'.tripped ht'
    rw [hd] at hs
    rw [hd'] at hs'
    exact ⟨by simpa using hs, by simpa using hs', hd.trans hd'.symm⟩
  · obtain ⟨hlen, htr⟩ := terminateExpired_quota hb (expired_nodup hc) (expired_present hc) h
    obtain ⟨hlen', htr'⟩ :=
      terminateExpired_quota hb' (expired_nodup hc') (expired_present hc') h'
    rw [← hp.length_eq] at hlen' htr'
    have hiff : Tripped os ↔ Tripped os' := htr.trans htr'.symm
    refine ⟨hiff, hlen.trans hlen'.symm, ?_⟩
    by_cases ht : Tripped os
    · exact (ho.tripped ht).trans (ho'.tripped (hiff.mp ht)).symm
    · exact (calm_orders hp ho ho' ht (mt hiff.mpr ht)).2.2

def crowded (threshold : UInt32) : Coordinator :=
  { Coordinator.new { watchdogThreshold := threshold, watchdogWindow := 30 } with
    connections := ((Finmap.insert "a" (.awaitingOffer ⟨0⟩ 0) ∅).insert "b"
      (.awaitingOffer ⟨1⟩ 0)).insert "c" (.established 0) }

def returning (order : List ConnectionId) (a b : Instant) : Env :=
  { Env.calm 0 order with branch := fun id => ⟨some (.ok ()), if id = "a" then a else b⟩ }

/-- Two handshakes swept one way and the other below the threshold. -/
theorem sweep_orders_crowded : ∃ os d os' d',
    (crowded 3).sweepExpired (returning ["a", "b", "c"] 1 2) = some (d, os) ∧
    (crowded 3).sweepExpired (returning ["c", "b", "a"] 2 1) = some (d', os') ∧
    (¬ Tripped os → ¬ Tripped os' → (answers os).Perm (answers os') ∧
      (removals os).Perm (removals os') ∧ d.connections = d'.connections) := by
  have hc : Covers ["a", "b", "c"] (crowded 3).connections := by decide
  have hc' : Covers ["c", "b", "a"] (crowded 3).connections := by decide
  obtain ⟨os, d, os', d', h, h', -, -, -, -, hcalm, -⟩ :=
    @sweep_orders (crowded 3) (returning _ 1 2) (returning _ 2 1) hc hc' rfl
  exact ⟨os, d, os', d', h, h', hcalm⟩

def Alike (c : Coordinator) (env env' : Env) : Prop :=
  Covers env.order c.connections ∧ Covers env'.order c.connections ∧ env.now = env'.now ∧
    ∀ id, (env.branch id).result = (env'.branch id).result

/-- Where the first failure trips, the handshake swept second is not told of its
timeout; and where one removal takes longer than the window, the order decides
whether the watchdog trips. -/
theorem sweep_order_matters :
    (¬ ∀ c env env' d os d' os', Alike c env env' → c.sweepExpired env = some (d, os) →
      c.sweepExpired env' = some (d', os') → (answers os).Perm (answers os') ∧
        (removals os).Perm (removals os') ∧ ∀ a ∈ timeouts c (c.expired env), a ∈ answers os) ∧
      ¬ ∀ c env env' d os d' os', Alike c env env' → c.sweepExpired env = some (d, os) →
        c.sweepExpired env' = some (d', os') → d.connections = d'.connections := by
  constructor
  · intro h
    have ha : Alike (crowded 1) (returning ["a", "b", "c"] 1 2) (returning ["b", "a", "c"] 2 1) :=
      ⟨by decide, by decide, rfl, fun _ => rfl⟩
    have he : ((crowded 1).sweepExpired (returning ["a", "b", "c"] 1 2)).map
        (fun r => removals r.2) = some ["a"] := by decide
    have he' : ((crowded 1).sweepExpired (returning ["b", "a", "c"] 2 1)).map
        (fun r => removals r.2) = some ["b"] := by decide
    obtain ⟨⟨d, os⟩, hs, hr⟩ := Option.map_eq_some_iff.mp he
    obtain ⟨⟨d', os'⟩, hs', hr'⟩ := Option.map_eq_some_iff.mp he'
    have hp := (h _ _ _ d os d' os' ha hs hs').2.1
    rw [hr, hr'] at hp
    exact absurd hp (by decide)
  · intro h
    have ha : Alike (crowded 2) (returning ["a", "b", "c"] 40 41)
        (returning ["b", "a", "c"] 41 1) := ⟨by decide, by decide, rfl, fun _ => rfl⟩
    have he : ((crowded 2).sweepExpired (returning ["a", "b", "c"] 40 41)).map
        (fun r => r.1.connections.lookup "c") = some none := by decide
    have he' : ((crowded 2).sweepExpired (returning ["b", "a", "c"] 41 1)).map
        (fun r => r.1.connections.lookup "c") = some (some (.established 0)) := by decide
    obtain ⟨⟨d, os⟩, hs, hr⟩ := Option.map_eq_some_iff.mp he
    obtain ⟨⟨d', os'⟩, hs', hr'⟩ := Option.map_eq_some_iff.mp he'
    have hd := h _ _ _ d os d' os' ha hs hs'
    rw [hd, hr'] at hr
    cases hr

end SrtWhep.Sweeps
