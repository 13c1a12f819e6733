import SrtWhep.Generations.Dates

namespace SrtWhep.Generations

open Library.Runs

inductive Stage
  | between
  | during
  | resetting
deriving DecidableEq

def stage : Phase → Stage
  | .top => .between
  | .draining => .between
  | .backingOff => .between
  | .stopped => .between
  | .resetting _ => .resetting
  | _ => .during

theorem step_stage {v v' : Supervisor} {w : Wake} {calls : List Call}
    (h : v.step w = some (v', calls)) :
    (stage v'.phase = stage v.phase ∧ w ≠ .received false ∧ (∀ ok, w ≠ .cleanedUp ok) ∧
        ∀ r, w ≠ .answered r) ∨
      (w = .received false ∧ stage v.phase = .between ∧ stage v'.phase = .during) ∨
      (∃ ok, w = .cleanedUp ok ∧ stage v.phase = .during ∧ stage v'.phase = .resetting) ∨
      ∃ r, w = .answered r ∧ stage v.phase = .resetting ∧ stage v'.phase = .between := by
  unfold Supervisor.step at h
  split at h
  case h_4 hp =>
    obtain ⟨rfl, -⟩ := Prod.mk.inj (Option.some.inj h)
    exact .inr (.inl ⟨rfl, by rw [hp]; rfl, rfl⟩)
  case h_13 outcome ok hp =>
    obtain ⟨rfl, -⟩ := Prod.mk.inj (Option.some.inj h)
    exact .inr (.inr (.inl ⟨ok, rfl, by rw [hp]; rfl, rfl⟩))
  case h_14 outcome r hp =>
    obtain ⟨rfl, -⟩ := Prod.mk.inj (Option.some.inj h)
    refine .inr (.inr (.inr ⟨r, rfl, by rw [hp]; rfl, ?_⟩))
    obtain hs | hs := v.settle_phase outcome <;> rw [hs] <;> rfl
  case h_17 => cases h
  all_goals
    obtain ⟨rfl, -⟩ := Prod.mk.inj (Option.some.inj h)
    exact .inl ⟨by simp_all [stage], by simp, by simp, by simp⟩

/-- While the last cleanup was an orderly one, nothing is left of it between
two runs, everything there is during a run dates from it, and the reset has
nothing left to do once it has been executed. -/
structure Separated (s : Service) : Prop where
  between : stage s.phase = .between → s.orderly = true → Dated (fun _ => False) s
  during : stage s.phase = .during → s.orderly = true → Dated (· = s.run) s
  resetting : stage s.phase = .resetting → s.orderly = true →
    s.pipeline = none ∧ (s.resetCall = some .executed → Dated (fun _ => False) s)

section Steps

variable {s s' : Service} {os : List Effect}

theorem separated_start (config : CoordinatorConfig) : Separated (.start config) := by
  have h : Dated (fun _ => False) (.start config) :=
    dated_of_empty rfl (fun id hl => by obtain hl | hl := hl <;> cases hl) rfl
  exact ⟨fun _ _ => h, fun hp => (by cases hp), fun hp => by cases hp⟩

theorem Separated.shuffle (h : Separated s) (hs : s.Shuffles s') : Separated s' := by
  have hp : s'.phase = s.phase := congrArg (·.supervisor.phase) hs.control
  refine ⟨fun hst ho => ?_, fun hst ho => ?_, fun hst ho => ?_⟩
  · exact (h.between (hp ▸ hst) (hs.orderly ▸ ho)).shuffle hs
  · rw [hs.run]
    exact (h.during (hp ▸ hst) (hs.orderly ▸ ho)).shuffle hs
  · obtain ⟨hn, he⟩ := h.resetting (hp ▸ hst) (hs.orderly ▸ ho)
    exact ⟨hs.pipeline ▸ hn, fun hx => (he (hs.executed hx)).shuffle hs⟩

theorem woken_of_other {w : Wake} (hr : w ≠ .received false) (hc : ∀ ok, w ≠ .cleanedUp ok)
    (ha : ∀ r, w ≠ .answered r) : s.woken w = s := by
  cases w with
  | received found =>
    cases found with
    | true => rfl
    | false => exact absurd rfl hr
  | cleanedUp ok => exact absurd rfl (hc ok)
  | answered r => exact absurd rfl (ha r)
  | _ => rfl

theorem Separated.wake {w : Wake} {r : RestartRequests.RestartSystem × List RestartRequests.Note}
    (h : Separated s) (ha : s.allows w = true) (hr : s.control.next (.wake w) = some r) :
    Separated { s.woken w with control := r.1, since := s.clock } := by
  obtain ⟨calls, hv⟩ := RestartRequests.RestartSystem.next_wake hr
  obtain ⟨hst, hw, hc, hans⟩ | ⟨rfl, hst, hst'⟩ | ⟨ok, rfl, hst, hst'⟩ | ⟨reply, rfl, hst, hst'⟩ :=
    step_stage hv
  · rw [woken_of_other hw hc hans]
    refine ⟨fun hp ho => ?_, fun hp ho => ?_, fun hp ho => ?_⟩
    · obtain ⟨hpl, hb, hcn⟩ := h.between (hst.symm.trans hp) ho
      exact ⟨hpl, hb, hcn⟩
    · obtain ⟨hpl, hb, hcn⟩ := h.during (hst.symm.trans hp) ho
      exact ⟨hpl, hb, hcn⟩
    · obtain ⟨hn, he⟩ := h.resetting (hst.symm.trans hp) ho
      exact ⟨hn, fun hx => ⟨(he hx).pipeline, (he hx).births, (he hx).counted⟩⟩
  · refine ⟨fun hp => ?_, fun hp ho => ?_, fun hp => ?_⟩
    · cases hst'.symm.trans hp
    · obtain ⟨hpl, hb, hcn⟩ := h.between hst ho
      exact ⟨fun n hn => (hpl n hn).elim, fun id hl => (hb id hl).elim, fun n hn => (hcn n hn).elim⟩
    · cases hst'.symm.trans hp
  · refine ⟨fun hp => ?_, fun hp => ?_, fun hp ho => ?_⟩
    · cases hst'.symm.trans hp
    · cases hst'.symm.trans hp
    · obtain rfl : ok = true := ho
      exact ⟨rfl, fun hx => by cases hx⟩
  · refine ⟨fun hp ho => ?_, fun hp => ?_, fun hp => ?_⟩
    · obtain ⟨hord, rfl⟩ : s.orderly = true ∧ reply = some true := by
        simpa [Service.woken] using ho
      obtain ⟨-, hx⟩ : _ ∧ s.resetCall = some .executed := by simpa [Service.allows] using ha
      obtain ⟨hpl, hb, hcn⟩ := (h.resetting hst hord).2 hx
      exact ⟨hpl, hb, hcn⟩
    · cases hst'.symm.trans hp
    · cases hst'.symm.trans hp

theorem Separated.built (h : Separated s) (hp : s.phase = .initializing) :
    Separated { s with pipeline := some s.run } := by
  have hst : stage s.phase = .during := by rw [hp]; rfl
  refine ⟨fun hs => ?_, fun _ ho => ?_, fun hs => ?_⟩
  · cases hst.symm.trans hs
  · obtain ⟨-, hb, hcn⟩ := h.during hst ho
    exact ⟨fun n hn => (Option.some.inj hn).symm, hb, hcn⟩
  · cases hst.symm.trans hs

theorem Separated.attach {job : Job} {id : ConnectionId} {n : Nat} (h : Separated s)
    (hc : job.turn.creates = some id) (hn : s.pipeline = some n) :
    Separated (s.attached job id n) := by
  refine ⟨fun hp ho => ?_, fun hp ho => (h.during hp ho).attach hc hn, fun hp ho => ?_⟩
  · exact ((h.between hp ho).pipeline n hn).elim
  · cases (h.resetting hp ho).1.symm.trans hn

theorem Separated.finish {job : Job} {env : Env} {c : Coordinator} (h : Separated s)
    (hj : s.job = some job) (hs : s.coordinator.Step (job.turn.event env, os) c)
    (ha : os.any Effect.attaches = job.attached) : Separated (s.finished job c os) := by
  have hp : (s.finished job c os).phase = s.phase :=
    congrArg Supervisor.phase (s.control.feed_supervisor os)
  refine ⟨fun hst ho => ?_, fun hst ho => ?_, fun hst ho => ?_⟩
  · exact (h.between (hp ▸ hst) ho).finish hj hs ha
  · exact (h.during (hp ▸ hst) ho).finish hj hs ha
  · obtain ⟨hn, hx⟩ := h.resetting (hp ▸ hst) ho
    refine ⟨hn, fun he => ?_⟩
    by_cases hr : job.turn.resets = some s.run ∧ s.resetCall = some .posted
    · exact dated_of_reset hs hr.1 hn
    · exact (hx (by simpa [Service.finished, hr] using he)).finish hj hs ha

theorem Separated.step {l : Service.Input × List Effect} (h : Separated s) (hs : s.Step l s') :
    Separated s' := by
  obtain ⟨i, os⟩ := l
  obtain hs | ⟨w, r, -, ha, hr, rfl⟩ | ⟨-, hp, rfl⟩ | ⟨job, id, n, -, -, hc, hn, -, rfl⟩ |
    ⟨job, env, c, -, hj, hc, ha, rfl⟩ := Service.step_cases hs
  · exact h.shuffle hs
  · exact h.wake ha hr
  · exact h.built hp
  · exact h.attach hc hn
  · exact h.finish hj hc ha

end Steps

theorem run_separated {config : CoordinatorConfig} {ls : List (Service.Input × List Effect)}
    {s : Service} (h : Run Service.Step (.start config) ls s) : Separated s :=
  h.invariant (separated_start config) fun hi hs => hi.step hs

/-- Nothing in the map and no failure counted by the watchdog is of an
earlier run. What a trip counts is in `counted` after it: see `counted_enough`. -/
def Apart (s : Service) : Prop :=
  (∀ id state, s.coordinator.connections.lookup id = some state → s.births id = s.run) ∧
    ∀ n ∈ s.counted, n = s.run

/-- From the call of `init` on a run is apart from the earlier ones, if
`clean_up` and `reset` returned `Ok` in the cleanup before it. -/
theorem orderly_runs_apart {config : CoordinatorConfig} {ls : List (Service.Input × List Effect)}
    {s : Service} (h : Run Service.Step (.start config) ls s) (hs : stage s.phase = .during)
    (ho : s.orderly = true) : Apart s := by
  have hd := (run_separated h).during hs ho
  refine ⟨fun id state hl => ?_, hd.counted⟩
  exact hd.births id (.inl (containsKey_iff.mpr ⟨state, hl⟩))

/-- A DELETE waits for its teardown when the run stops, so the reset times out. -/
def wedgedDelete : List Service.Input :=
  firstRun ++ create "a" 0 0 [] ++ create "b" 1 0 ["a"] ++
    [.request (.removeConnection "a" ⟨2⟩), .receive, .wake (.ran false), .wake (.cleanedUp true),
      .postReset ⟨3⟩, .tick resetTimeout, .wake (.answered none)] ++ nextRun

/-- `clean_up` cannot lock the state, and a viewer arrives after the reset. -/
def lockedCleanUp : List Service.Input :=
  firstRun ++ [.wake (.ran false), .wake (.cleanedUp false), .postReset ⟨0⟩, .receive,
    .finish (.calm 0 []), .wake (.answered (some true))] ++ create "a" 1 0 [] ++ nextRun

theorem orderly_runs_apart_second :
    ∃ ls s, Run Service.Step (.start {}) ls s ∧ s.run = 2 ∧
      (∃ state, s.coordinator.connections.lookup "b" = some state) ∧ Apart s := by
  obtain ⟨ls, s, h, -, hv⟩ := replayed Service.next Service.Step (fun _ _ _ _ h => h) (.start {})
    (firstRun ++ create "a" 0 0 [] ++ [.wake (.ran false), .wake (.cleanedUp true),
      .postReset ⟨1⟩, .receive, .finish (.calm 0 ["a"]), .wake (.answered (some true))] ++
      nextRun ++ [.built, .wake (.initialized true)] ++ create "b" 2 (Duration.fromSecs 1) [])
    (.selecting, true, 2, some (.awaitingOffer ⟨2⟩ (Duration.fromSecs 11)))
    (fun r => (r.1.phase, r.1.orderly, r.1.run, r.1.coordinator.connections.lookup "b"))
    (by decide)
  simp only [Prod.mk.injEq] at hv
  obtain ⟨hp, ho, hr, hl⟩ := hv
  exact ⟨ls, s, h, hr, ⟨_, hl⟩, orderly_runs_apart h (by rw [hp]; rfl) ho⟩

/-- With a teardown timeout of twenty seconds the second run starts with a
viewer of the first, and it does after a failed `clean_up`. -/
theorem connections_outlive_runs :
    (∃ ls s, Run Service.Step (.start { teardownTimeout := .fromSecs 20 }) ls s ∧
        ls.map Prod.fst = wedgedDelete ∧ s.phase = .initializing ∧ ¬ Apart s) ∧
      ∃ ls s, Run Service.Step (.start {}) ls s ∧ ls.map Prod.fst = lockedCleanUp ∧
        s.phase = .initializing ∧ ¬ Apart s := by
  constructor
  · obtain ⟨ls, s, h, hi, hv⟩ := replayed Service.next Service.Step (fun _ _ _ _ h => h)
      (.start { teardownTimeout := .fromSecs 20 }) wedgedDelete
      (.initializing, 2, 1, some (.awaitingOffer ⟨1⟩ (Duration.fromSecs 10)))
      (fun r => (r.1.phase, r.1.run, r.1.births "b", r.1.coordinator.connections.lookup "b"))
      (by decide)
    simp only [Prod.mk.injEq] at hv
    obtain ⟨hp, hr, hb, hl⟩ := hv
    refine ⟨ls, s, h, hi, hp, fun ha => ?_⟩
    have := ha.1 "b" _ hl
    omega
  · obtain ⟨ls, s, h, hi, hv⟩ := replayed Service.next Service.Step (fun _ _ _ _ h => h)
      (.start {}) lockedCleanUp
      (.initializing, 2, 1, some (.awaitingOffer ⟨1⟩ (Duration.fromSecs 10)))
      (fun r => (r.1.phase, r.1.run, r.1.births "a", r.1.coordinator.connections.lookup "a"))
      (by decide)
    simp only [Prod.mk.injEq] at hv
    obtain ⟨hp, hr, hb, hl⟩ := hv
    refine ⟨ls, s, h, hi, hp, fun ha => ?_⟩
    have := ha.1 "a" _ hl
    omega

end SrtWhep.Generations
