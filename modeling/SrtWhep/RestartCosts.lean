import Mathlib.Algebra.BigOperators.Ring.List
import Mathlib.Algebra.Order.Group.Nat
import SrtWhep.Backoff
import SrtWhep.Generations.Dates
import SrtWhep.Library.Accounts
import SrtWhep.Service.Steps
import SrtWhep.Trips

namespace SrtWhep.RestartCosts

open Library.Runs Library.Tables Library.Channels Library.Accounts Moves Waiters Sweeps Trips
  RestartRequests

def isQuit : Service.Input → Bool
  | .wake .restartRequested => true
  | _ => false

def forcedQuits (ls : List (Service.Input × List Effect)) : Nat := ls.countP (isQuit ·.1)

def attachments (ls : List (Service.Input × List Effect)) : Nat :=
  (ls.flatMap Prod.snd).countP Effect.attaches

def establishes : Effect → Bool
  | .recordSuccess id => id.isSome
  | _ => false

def establishments (ls : List (Service.Input × List Effect)) : Nat :=
  (ls.flatMap Prod.snd).countP establishes

def trips : Effect → Bool
  | .recordFailure _ tripped => tripped
  | _ => false

/-- How many failures it takes to trip the watchdog. -/
def burst (w : Watchdog) : Nat := max w.threshold.toNat 1

/-- The failures the coordinator may still come to count: those it has, and one
for each handshake under way. -/
def exposure (c : Coordinator) : Nat :=
  c.watchdog.consecutiveFailures.toNat + (gather held c.connections).card

section Moves

variable {c c' : Coordinator} {cs : List Command} {os : List Effect} {id : ConnectionId}

theorem recordFailure_pays {w w' : Watchdog} {now : Instant} {tripped : Bool}
    (h : w.recordFailure now = some (tripped, w')) :
    w'.consecutiveFailures.toNat + (if tripped then burst w else 0) ≤
      w.consecutiveFailures.toNat + 1 ∧ burst w' = burst w := by
  have hd : (w.decayed now).toNat ≤ w.consecutiveFailures.toNat := by
    unfold Watchdog.decayed
    split
    · split
      · exact Nat.zero_le _
      · exact Nat.le_refl _
    · exact Nat.le_refl _
  obtain ⟨rfl, hle, rfl⟩ | ⟨rfl, -, hn, -, ht, -⟩ := Watchdog.recordFailure_cases h
  · have hz : w.recordSuccess.consecutiveFailures.toNat = 0 := rfl
    refine ⟨?_, rfl⟩
    rw [hz, if_pos rfl, burst]
    omega
  · refine ⟨?_, by rw [burst, burst, ht]⟩
    rw [if_neg (by simp)]
    omega

theorem countP_notify (p : Effect → Bool) (state : ConnectionState) (env : Env) (n : WaiterNotice)
    (hp : ∀ ch err b, p (.send ch (.error err) b) = false) :
    (state.notify env n id).countP p = 0 := by
  rw [ConnectionState.notify_eq]
  cases state.parked <;> simp [hp]

theorem countP_drain (p : Effect → Bool) (env : Env)
    (hp : ∀ ch err b, p (.send ch (.error err) b) = false) (he : ∀ id r, p (.ended id r) = false) :
    (drain c env).countP p = 0 := by
  rw [drain]
  induction walk c.connections env.order with
  | nil => rfl
  | cons e es ih => simp [countP_notify p e.2 env _ hp, he, ih]

@[simp] theorem trips_notify (state : ConnectionState) (env : Env) (n : WaiterNotice) :
    (state.notify env n id).countP trips = 0 :=
  countP_notify trips state env n fun _ _ _ => rfl

@[simp] theorem establishes_notify (state : ConnectionState) (env : Env) (n : WaiterNotice) :
    (state.notify env n id).countP establishes = 0 :=
  countP_notify establishes state env n fun _ _ _ => rfl

@[simp] theorem trips_drain (env : Env) : (drain c env).countP trips = 0 :=
  countP_drain trips env (fun _ _ _ => rfl) fun _ _ => rfl

@[simp] theorem establishes_drain (env : Env) : (drain c env).countP establishes = 0 :=
  countP_drain establishes env (fun _ _ _ => rfl) fun _ _ => rfl

theorem failure_pays {state : ConnectionState} {w : Watchdog} {now : Instant} {tripped : Bool}
    (hl : c.connections.lookup id = some state) (hh : (held state).card = 1)
    (hw : c.watchdog.recordFailure now = some (tripped, w)) :
    exposure { c with connections := c.connections.erase id, watchdog := w } +
        (if tripped then burst c.watchdog else 0) ≤ exposure c ∧ burst w = burst c.watchdog := by
  obtain ⟨hpays, hb⟩ := recordFailure_pays hw
  have hcard := congrArg Multiset.card (gather_erase held hl)
  rw [Multiset.card_add, hh] at hcard
  refine ⟨?_, hb⟩
  simp only [exposure]
  omega

theorem held_of_deadline {state : ConnectionState} {now : Instant}
    (h : state.deadline.any (· ≤ now) = true) : (held state).card = 1 := by
  cases state with
  | established since => cases h
  | _ => rfl

/-- A trip is paid for by the failures that led to it, and every failure by a
connection that was attached and is not established. -/
theorem move_pays (h : Move c (cs, os) c') :
    exposure c' + (os.countP trips * burst c.watchdog + os.countP establishes) ≤
      exposure c + os.countP Effect.attaches ∧ burst c'.watchdog = burst c.watchdog := by
  cases h with
  | reject b hr => cases hr <;> simp [trips, establishes]
  | list infos b => simp [trips, establishes]
  | @register id reply call deadline hl hs hd =>
    have hcard := congrArg Multiset.card
      (gather_insert held (.awaitingOffer reply deadline) hl)
    refine ⟨?_, rfl⟩
    simp [exposure, trips, establishes, Effect.attaches, hs, hcard, held, ConnectionState.parked]
    omega
  | @offer id sdp reply whep d now deadline hl hd =>
    have hcard := congrArg Multiset.card (gather_erase held hl)
    refine ⟨Nat.le_add_right_of_le ?_, rfl⟩
    simp [exposure, trips, establishes, gather_replace, hcard, held, ConnectionState.parked]
  | @establish id sdp reply whip d since b hl =>
    have hcard := congrArg Multiset.card (gather_erase held hl)
    refine ⟨Nat.le_add_right_of_le ?_, rfl⟩
    have hone : (held (.awaitingAnswer whip d)).card = 1 := rfl
    rw [Multiset.card_add, hone] at hcard
    simp [exposure, trips, establishes, gather_replace, held, ConnectionState.parked,
      Watchdog.recordSuccess, List.countP_cons]
    omega
  | @abandonOffer id sdp reply whep d call tripped w b hl hw =>
    obtain ⟨hpays, hb⟩ := failure_pays hl rfl hw
    refine ⟨Nat.le_add_right_of_le ?_, hb⟩
    cases tripped <;> simpa [trips, establishes] using hpays
  | @abandonAnswer id sdp reply whip d call tripped w b hl hw =>
    obtain ⟨hpays, hb⟩ := failure_pays hl rfl hw
    refine ⟨Nat.le_add_right_of_le ?_, hb⟩
    cases tripped <;> simpa [trips, establishes] using hpays
  | @delete id reply state call env b hl hs =>
    have hcard := congrArg Multiset.card (gather_erase held hl)
    refine ⟨Nat.le_add_right_of_le ?_, rfl⟩
    simp [exposure, trips, establishes, hcard]
  | @expire id state call tripped w env hl hd hw =>
    obtain ⟨hpays, hb⟩ := failure_pays hl (held_of_deadline hd) hw
    refine ⟨Nat.le_add_right_of_le ?_, hb⟩
    cases tripped <;> simpa [trips, establishes] using hpays
  | @reap id state call env hl =>
    have hcard := congrArg Multiset.card (gather_erase held hl)
    refine ⟨Nat.le_add_right_of_le ?_, rfl⟩
    simp [exposure, trips, establishes, hcard]
  | trip env hc =>
    refine ⟨Nat.le_add_right_of_le ?_, rfl⟩
    simp [exposure, trips, establishes]
  | reset env b hc =>
    refine ⟨Nat.le_add_right_of_le ?_, rfl⟩
    simp [exposure, trips, establishes, Watchdog.recordSuccess]

theorem step_requests {e : Event} (h : c.Step (e, os) c') :
    os.count .requestRestart ≤ os.countP trips := by
  obtain ht | hw := step_trips h
  · rw [List.count_eq_zero.mpr ht]
    exact Nat.zero_le _
  · have hone := hw.count_le
    cases hw with
    | @intro os id d c' env _ _ _ =>
      exact hone.trans (List.countP_pos_iff.mpr ⟨.recordFailure id true, by simp, rfl⟩)

theorem step_pays {e : Event} (h : c.Step (e, os) c') :
    exposure c' + (os.count .requestRestart * burst c.watchdog + os.countP establishes) ≤
        exposure c + os.countP Effect.attaches ∧ burst c'.watchdog = burst c.watchdog := by
  obtain ⟨ms, hm, -, hos⟩ := step_moves h
  have hkeeps : ∀ {u v : Coordinator} {m : List Command × List Effect},
      burst u.watchdog = burst c.watchdog → Move u m v → burst v.watchdog = burst c.watchdog :=
    fun hb hs => (move_pays hs).2.trans hb
  have hpot : exposure c' +
      (ms.map fun m => m.2.countP trips * burst c.watchdog + m.2.countP establishes).sum ≤
        exposure c + (ms.map fun m => m.2.countP Effect.attaches).sum := by
    refine potential hm (show burst c.watchdog = burst c.watchdog from rfl) hkeeps ?_
    intro u v m hb hs
    exact hb ▸ (move_pays hs).1
  have hsum : ∀ f : Effect → Bool, (ms.map fun m => m.2.countP f).sum = os.countP f := by
    intro f
    rw [← show ms.flatMap Prod.snd = os from hos, List.countP_flatMap, Function.comp_def]
  rw [List.sum_map_add, List.sum_map_mul_right, hsum, hsum, hsum] at hpot
  refine ⟨?_, hm.invariant (show burst c.watchdog = burst c.watchdog from rfl) hkeeps⟩
  have hreq := Nat.mul_le_mul_right (burst c.watchdog) (step_requests h)
  omega

end Moves

section Channels

variable {s s' : RestartSystem} {os : List Effect} {ns : List Note} {w : Wake}

theorem feed_queue : (s.feed os).requests.queue.length ≤
    s.requests.queue.length + os.count .requestRestart := by
  induction os generalizing s with
  | nil => simp [RestartSystem.feed]
  | cons o os ih =>
    have hrest := @ih (s.effect o).1
    have hfeed : s.feed (o :: os) = (s.effect o).1.feed os := rfl
    rw [hfeed]
    cases o with
    | requestRestart =>
      have hone : (s.effect .requestRestart).1.requests.queue.length ≤
          s.requests.queue.length + 1 := by
        obtain ⟨-, -, hq⟩ | ⟨-, hq⟩ := s.requests.trySend_cases ()
        · simp [RestartSystem.effect, hq]
        · simp [RestartSystem.effect, hq]
      rw [List.count_cons_self]
      omega
    | _ => simpa [RestartSystem.effect] using hrest

theorem wake_queue (h : s.next (.wake w) = some (s', ns)) :
    s'.requests.queue.length + (if isQuit (.wake w) then 1 else 0) ≤ s.requests.queue.length := by
  simp only [RestartSystem.next, Option.bind_eq_bind, Option.bind_eq_some_iff, Option.some.injEq,
    Prod.mk.injEq] at h
  obtain ⟨⟨v, calls⟩, -, ⟨requests, notes⟩, hr, rfl, -⟩ := h
  have htaken : ∀ {r}, s.requests.tryRecv = some r →
      r.2.queue.length + 1 ≤ s.requests.queue.length := by
    rintro ⟨u, c⟩ hr
    simp [Channel.tryRecv_eq_some.mp hr]
  cases w with
  | restartRequested =>
    obtain ⟨r, ht, he⟩ := Option.map_eq_some_iff.mp hr
    cases he
    simpa [isQuit] using htaken ht
  | received found =>
    cases found with
    | true =>
      obtain ⟨r, ht, he⟩ := Option.map_eq_some_iff.mp hr
      cases he
      exact Nat.le_of_succ_le (htaken ht)
    | false =>
      obtain ⟨-, hr⟩ := Option.ite_none_right_eq_some.mp hr
      cases hr
      simp [isQuit]
  | joined ok =>
    cases ok <;> cases hr <;> simp [isQuit]
  | _ =>
    cases hr
    simp [isQuit]

end Channels

section Services

variable {s s' : Service} {i : Service.Input} {os : List Effect}

/-- What the service holds against a forced quit: requests on their way, and
failures that may still become one. -/
def stake (s : Service) : Nat :=
  s.control.requests.queue.length * burst s.coordinator.watchdog + exposure s.coordinator

theorem isQuit_other (h : ∀ w, i ≠ .wake w) : isQuit i = false := by
  cases i with
  | wake w => exact absurd rfl (h w)
  | _ => rfl

theorem service_pays (h : s.Step (i, os) s') :
    stake s' + ((if isQuit i then burst s.coordinator.watchdog else 0) + os.countP establishes) ≤
        stake s + os.countP Effect.attaches ∧
      burst s'.coordinator.watchdog = burst s.coordinator.watchdog := by
  cases Service.step_takes h with
  | @wake w r ha hr =>
    have hq := Nat.mul_le_mul_right (burst s.coordinator.watchdog) (wake_queue hr)
    have hw := s.woken_coordinator w
    refine ⟨?_, by rw [hw]⟩
    simp only [stake, hw]
    cases hf : isQuit (.wake w) <;> simp [hf, Nat.add_mul] at hq ⊢ <;> omega
  | @finish env job c os hj hc hp =>
    obtain ⟨hpays, hb⟩ := step_pays hc
    have hfeed := Nat.mul_le_mul_right (burst s.coordinator.watchdog) (@feed_queue s.control os)
    rw [Nat.add_mul] at hfeed
    refine ⟨?_, hb⟩
    rw [if_neg (by simp [isQuit])]
    simp only [stake, Service.finished, hb]
    omega
  | @panic env job os hj ho =>
    have hnone : os.countP establishes = 0 := by
      obtain ⟨_, _, _, -, rfl⟩ | ⟨_, _, _, _, _, _, -, -, -, rfl⟩ := Panics.panicked_cases ho
      · rfl
      · rfl
    refine ⟨?_, rfl⟩
    rw [hnone, if_neg (by simp [isQuit])]
    exact Nat.le_add_right _ _
  | _ => exact ⟨Nat.le_refl _, rfl⟩

def owed : Phase → Duration
  | .top => 0
  | .draining => 0
  | _ => baseRestartDelay

/-- A run begins after a pause, and is quit once at most. -/
theorem step_pace {v v' : Supervisor} {calls : List Call} {w : Wake}
    (h : v.step w = some (v', calls)) :
    (w = .received false ∧ owed v.phase = 0 ∧ Phase.fresh v.phase = false ∧
        Phase.fresh v'.phase = true) ∨
      (w = .slept ∧ Phase.fresh v.phase = false ∧ Phase.fresh v'.phase = false) ∨
      (w ≠ .received false ∧ w ≠ .slept ∧ owed v.phase ≤ owed v'.phase ∧
        (Phase.fresh v'.phase = true ∨ isQuit (.wake w) = true → Phase.fresh v.phase = true) ∧
        (isQuit (.wake w) = true → Phase.fresh v'.phase = false)) := by
  unfold Supervisor.step at h
  split at h
  case h_4 hp =>
    obtain ⟨rfl, -⟩ := Prod.mk.inj (Option.some.inj h)
    exact .inl ⟨rfl, by rw [hp]; rfl, by rw [hp]; rfl, rfl⟩
  case h_15 hp =>
    obtain ⟨rfl, -⟩ := Prod.mk.inj (Option.some.inj h)
    exact .inr (.inl ⟨rfl, by rw [hp]; rfl, rfl⟩)
  case h_14 outcome r hp =>
    obtain ⟨rfl, -⟩ := Prod.mk.inj (Option.some.inj h)
    refine .inr (.inr ⟨by simp, by simp, ?_, ?_, by simp [isQuit]⟩)
    · obtain hs | hs := v.settle_phase outcome <;> rw [hs, hp] <;> exact Nat.le_refl _
    · obtain hs | hs := v.settle_phase outcome <;> rw [hs] <;> simp [Phase.fresh, isQuit]
  case h_17 => cases h
  all_goals
    obtain ⟨rfl, -⟩ := Prod.mk.inj (Option.some.inj h)
    exact .inr (.inr ⟨by simp, by simp, by simp_all [owed], by simp_all [Phase.fresh, isQuit],
      by simp [Phase.fresh, isQuit]⟩)

end Services

section Histories

variable {config : CoordinatorConfig} {ls : List (Service.Input × List Effect)} {s s' : Service}
  {l : Service.Input × List Effect}

theorem sum_quits (n : Nat) :
    (ls.map fun l => if isQuit l.1 then n else 0).sum = forcedQuits ls * n := by
  induction ls with
  | nil => simp [forcedQuits]
  | cons l ls ih =>
    rw [List.map_cons, List.sum_cons, ih, forcedQuits, forcedQuits, List.countP_cons, Nat.add_mul]
    split
    · omega
    · omega

theorem run_pays (h : Run Service.Step (.start config) ls s) :
    stake s + (forcedQuits ls * max config.watchdogThreshold.toNat 1 + establishments ls) ≤
      attachments ls := by
  have hstep : ∀ {u v : Service} {l : Service.Input × List Effect},
      burst u.coordinator.watchdog = max config.watchdogThreshold.toNat 1 → u.Step l v →
        stake v + ((if isQuit l.1 then max config.watchdogThreshold.toNat 1 else 0) +
          l.2.countP establishes) ≤ stake u + l.2.countP Effect.attaches := by
    rintro u v ⟨i, os⟩ hb hs
    exact hb ▸ (service_pays hs).1
  have hpot := potential h (rfl : burst (Watchdog.new _ _) = _)
    (fun hb hs => (service_pays hs).2.trans hb) hstep
  have hzero : stake (.start config) = 0 := Nat.zero_mul _
  have hsum : ∀ p : Effect → Bool,
      (ls.map fun l => l.2.countP p).sum = (ls.flatMap Prod.snd).countP p := by
    intro p
    rw [List.countP_flatMap, Function.comp_def]
  rw [List.sum_map_add, sum_quits, hzero, Nat.zero_add] at hpot
  rw [establishments, attachments, ← hsum, ← hsum]
  exact hpot

structure Paced (ls : List (Service.Input × List Effect)) (s : Service) : Prop where
  since : s.since ≤ s.clock
  runs : s.run * baseRestartDelay ≤ s.since + owed s.phase
  quits : forcedQuits ls + (Phase.fresh s.phase).toNat ≤ s.run

theorem forcedQuits_snoc :
    forcedQuits (ls ++ [l]) = forcedQuits ls + (isQuit l.1).toNat := by
  rw [forcedQuits, List.countP_append, List.countP_singleton]
  cases isQuit l.1 <;> rfl

theorem owed_of_fresh {p : Phase} (h : Phase.fresh p = true) : owed p = baseRestartDelay := by
  cases p <;> first | rfl | cases h

theorem owed_le (p : Phase) : owed p ≤ baseRestartDelay := by
  cases p <;> first | exact Nat.le_refl _ | exact Nat.zero_le _

theorem base_le_backoff (n : UInt32) : baseRestartDelay ≤ backoffDelay n :=
  @Backoff.backoffDelay_mono 0 n (Nat.zero_le _)

theorem woken_run {w : Wake} (h : w ≠ .received false) : (s.woken w).run = s.run := by
  unfold Service.woken
  split
  · exact absurd rfl h
  all_goals rfl

theorem Paced.wake {w : Wake} {os : List Effect} {r : RestartSystem × List Note}
    (hp : Paced ls s) (ha : s.allows w = true) (hr : s.control.next (.wake w) = some r) :
    Paced (ls ++ [(.wake w, os)]) { s.woken w with control := r.1, since := s.clock } := by
  obtain ⟨hsince, hruns, hquits⟩ := hp
  obtain ⟨calls, hv⟩ := RestartSystem.next_wake hr
  have hwait : s.since + s.control.supervisor.timer w ≤ s.clock := by
    simp only [Service.allows, Bool.and_eq_true, decide_eq_true_eq] at ha
    exact ha.1
  refine ⟨(s.woken_clock w).ge, ?_, ?_⟩
  · change (s.woken w).run * baseRestartDelay ≤ s.clock + owed r.1.supervisor.phase
    obtain ⟨rfl, ho, -, hf⟩ | ⟨rfl, -, -⟩ | ⟨hw, -, ho, -, -⟩ := step_pace hv
    · change (s.run + 1) * baseRestartDelay ≤ s.clock + owed r.1.supervisor.phase
      rw [Service.phase, ho] at hruns
      rw [owed_of_fresh hf, Nat.add_mul, Nat.one_mul]
      exact Nat.add_le_add_right (hruns.trans hsince) _
    · have hrest := base_le_backoff s.control.supervisor.consecutiveFailures
      have howed := owed_le s.phase
      have htimer : s.since + backoffDelay s.control.supervisor.consecutiveFailures ≤ s.clock :=
        hwait
      rw [woken_run (by simp)]
      exact Nat.le_add_right_of_le (hruns.trans
        ((Nat.add_le_add_left (howed.trans hrest) _).trans htimer))
    · rw [woken_run hw]
      exact hruns.trans (Nat.add_le_add hsince ho)
  · change forcedQuits (ls ++ [(.wake w, os)]) + (Phase.fresh r.1.supervisor.phase).toNat ≤
      (s.woken w).run
    rw [forcedQuits_snoc]
    change forcedQuits ls + (isQuit (.wake w)).toNat + (Phase.fresh r.1.supervisor.phase).toNat ≤
      (s.woken w).run
    obtain ⟨rfl, -, hf, hf'⟩ | ⟨rfl, hf, hf'⟩ | ⟨hw, -, -, hf, hq⟩ := step_pace hv
    · rw [Service.phase, hf] at hquits
      rw [hf']
      exact Nat.succ_le_succ hquits
    · rw [Service.phase, hf] at hquits
      rw [hf', woken_run (by simp)]
      exact hquits
    · rw [woken_run hw]
      have hle : (isQuit (.wake w)).toNat + (Phase.fresh r.1.supervisor.phase).toNat ≤
          (Phase.fresh s.phase).toNat := by
        cases hquit : isQuit (.wake w) with
        | true =>
          have hf : Phase.fresh s.phase = true := hf (.inr hquit)
          rw [hq hquit, hf]
          exact Nat.le_refl _
        | false =>
          cases hfresh : Phase.fresh r.1.supervisor.phase with
          | true =>
            have hf : Phase.fresh s.phase = true := hf (.inl hfresh)
            rw [hf]
            exact Nat.le_refl _
          | false => exact Nat.zero_le _
      omega

theorem Paced.keep {i : Service.Input} {os : List Effect} (hp : Paced ls s)
    (hi : ∀ w, i ≠ .wake w) (hclock : s.clock ≤ s'.clock) (hsince : s'.since = s.since)
    (hrun : s'.run = s.run) (hphase : s'.phase = s.phase) : Paced (ls ++ [(i, os)]) s' := by
  refine ⟨hsince ▸ hp.since.trans hclock, ?_, ?_⟩
  · rw [hsince, hrun, hphase]
    exact hp.runs
  · rw [forcedQuits_snoc, isQuit_other hi, hrun, hphase]
    exact hp.quits

theorem Paced.step (hp : Paced ls s) (h : s.Step l s') : Paced (ls ++ [l]) s' := by
  obtain ⟨i, os⟩ := l
  cases Service.step_takes h with
  | wake ha hr => exact hp.wake ha hr
  | tick d => exact hp.keep (by simp) (Nat.le_add_right _ _) rfl rfl rfl
  | finish hj hc _ =>
    exact hp.keep (by simp) (Nat.le_refl _) rfl rfl
      (congrArg Supervisor.phase (s.control.feed_supervisor os))
  | _ => exact hp.keep (by simp) (Nat.le_refl _) rfl rfl rfl

theorem run_paced (h : Run Service.Step (.start config) ls s) : Paced ls s := by
  refine h.history (P := fun ls s => Paced ls s) ⟨Nat.le_refl _, ?_, Nat.le_refl _⟩ fun hp hs =>
    hp.step hs
  rw [show (Service.start config).run = 0 from rfl, Nat.zero_mul]
  exact Nat.zero_le _

end Histories

variable {config : CoordinatorConfig} {ls : List (Service.Input × List Effect)} {s : Service}

/-- Between the beginnings of two runs there is a second at least, and no run is
quit twice. -/
theorem restarts_paced (h : Run Service.Step (.start config) ls s) :
    forcedQuits ls ≤ s.run ∧ s.run * baseRestartDelay ≤ s.clock + baseRestartDelay := by
  obtain ⟨hsince, hruns, hquits⟩ := run_paced h
  refine ⟨(Nat.le_add_right _ _).trans hquits, ?_⟩
  exact hruns.trans (Nat.add_le_add hsince (owed_le _))

def stalled (id : ConnectionId) (ch : Nat) (now : Instant) : List Service.Input :=
  Generations.create id ch now [] ++
    [.tick (.fromSecs 10), .sweep, .finish (.calm (now + Duration.fromSecs 10) [id])]

/-- With a threshold of one, a stalled viewer brings the pipeline down, and the
next run begins a second later. -/
theorem restarts_paced_stalled :
    ∃ ls s, Run Service.Step (.start { watchdogThreshold := 1 }) ls s ∧ s.run = 2 ∧
      forcedQuits ls = 1 ∧ 2 * baseRestartDelay ≤ s.clock + baseRestartDelay := by
  obtain ⟨ls, s, h, -, hv⟩ := replayed Service.next Service.Step (fun _ _ _ _ h => h)
    (.start { watchdogThreshold := 1 })
    (Generations.firstRun ++ stalled "a" 0 0 ++ [.wake .restartRequested, .wake .asked,
      .wake (.joined (some true)), .wake (.cleanedUp true), .postReset ⟨1⟩, .receive,
      .finish (.calm (Duration.fromSecs 10) []), .wake (.answered (some true))] ++
      Generations.nextRun)
    (2, 1) (fun r => (r.1.run, forcedQuits r.2)) (by decide)
  obtain ⟨hr, hq⟩ := Prod.mk.inj hv
  have hpaced := (restarts_paced h).2
  rw [hr] at hpaced
  exact ⟨ls, s, h, hr, hq, hpaced⟩

/-- Each forced quit of a pipeline costs as many attached viewers as the watchdog
counts failures, beside those that completed their handshake: viewers that do
connect never bring the pipeline down. -/
theorem forced_quits_paid (h : Run Service.Step (.start config) ls s) :
    forcedQuits ls * max config.watchdogThreshold.toNat 1 + establishments ls ≤ attachments ls :=
  (Nat.le_add_left _ _).trans (run_pays h)

theorem forced_quits_paid_stalled :
    ∃ ls s, Run Service.Step (.start { watchdogThreshold := 2 }) ls s ∧ forcedQuits ls = 1 ∧
      1 * max (2 : UInt32).toNat 1 + establishments ls ≤ attachments ls := by
  obtain ⟨ls, s, h, -, hv⟩ := replayed Service.next Service.Step (fun _ _ _ _ h => h)
    (.start { watchdogThreshold := 2 })
    (Generations.firstRun ++ stalled "a" 0 0 ++ stalled "b" 1 (Duration.fromSecs 10) ++
      [.wake .restartRequested]) 1 (fun r => forcedQuits r.2) (by decide)
  have hpaid := forced_quits_paid h
  rw [hv] at hpaid
  exact ⟨ls, s, h, hv, hpaid⟩

end SrtWhep.RestartCosts
