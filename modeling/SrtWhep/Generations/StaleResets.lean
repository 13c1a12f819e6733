import SrtWhep.Generations.Dates

namespace SrtWhep.Generations

open Library.Runs

/-- What the `Reset` under way is about to remove dates from the run it was
requested after or an earlier one. -/
def OnlyOld (s : Service) : Prop :=
  ∀ n, (s.job.bind fun job => job.turn.resets) = some n →
    ∀ id state, s.coordinator.connections.lookup id = some state → s.births id ≤ n

/-- No branch is attached to the pipeline of a run while a `Reset` requested
after an earlier run is still to be executed. -/
def Current (s : Service) (l : Service.Input × List Effect) : Prop :=
  match l.1 with
  | .attach => ∀ n ∈ s.pendingResets, ∀ m, s.pipeline = some m → m ≤ n
  | _ => True

def isCurrent (s : Service) : Service.Input → Bool
  | .attach => decide (∀ n ∈ s.pendingResets, ∀ m ∈ s.pipeline, m ≤ n)
  | _ => true

theorem current_of_test {s : Service} {i : Service.Input} {os : List Effect}
    (h : isCurrent s i = true) : Current s (i, os) := by
  cases i with
  | attach =>
    have ht : ∀ n ∈ s.pendingResets, ∀ m ∈ s.pipeline, m ≤ n := of_decide_eq_true h
    exact ht
  | _ => trivial

structure Older (s : Service) : Prop where
  dated : Dated (· ≤ s.run) s
  resets : ∀ n ∈ s.pendingResets, ∀ id, s.live id → s.births id ≤ n

section Resets

variable {s s' : Service} {os : List Effect}

theorem older_start (config : CoordinatorConfig) : Older (.start config) :=
  ⟨dated_of_empty rfl (fun id hl => by obtain hl | hl := hl <;> cases hl) rfl,
    fun n hn => by cases hn⟩

theorem Older.shuffle (h : Older s) (hs : s.Shuffles s') : Older s' := by
  refine ⟨?_, fun n hn id hl => ?_⟩
  · rw [hs.run]
    exact h.dated.shuffle hs
  · rw [hs.births]
    obtain hn | rfl := hs.pendingResets n hn
    · exact h.resets n hn id (hs.live id hl)
    · exact h.dated.births id (hs.live id hl)

theorem Older.wake {w : Wake} {r : RestartRequests.RestartSystem × List RestartRequests.Note}
    (h : Older s) : Older { s.woken w with control := r.1, since := s.clock } := by
  obtain ⟨⟨hp, hb, hc⟩, hr⟩ := h
  cases w with
  | received found =>
    cases found with
    | true => exact ⟨⟨hp, hb, hc⟩, hr⟩
    | false =>
      exact ⟨⟨fun n hn => Nat.le_succ_of_le (hp n hn), fun id hl => Nat.le_succ_of_le (hb id hl),
        fun n hn => Nat.le_succ_of_le (hc n hn)⟩, hr⟩
  | cleanedUp ok =>
    cases ok with
    | true => exact ⟨⟨fun n hn => absurd hn (Option.some_ne_none n).symm, hb, hc⟩, hr⟩
    | false => exact ⟨⟨hp, hb, hc⟩, hr⟩
  | _ => exact ⟨⟨hp, hb, hc⟩, hr⟩

theorem Older.attach {job : Job} {id : ConnectionId} {n : Nat} (h : Older s)
    (hd : ∀ n ∈ s.pendingResets, ∀ m, s.pipeline = some m → m ≤ n)
    (hj : s.job = some job) (hc : job.turn.creates = some id) (hn : s.pipeline = some n) :
    Older (s.attached job id n) := by
  refine ⟨h.dated.attach hc hn, fun m hm i hl => ?_⟩
  have hm' : m ∈ s.pendingResets := by
    simpa [Service.pendingResets, Service.attached, hj] using hm
  change Function.update s.births id n i ≤ m
  by_cases hi : i = id
  · subst hi
    rw [Function.update_self]
    exact hd m hm' n hn
  · rw [Function.update_of_ne hi]
    exact h.resets m hm' i (.inl ((attached_live hc hl).resolve_right hi))

theorem Older.finish {job : Job} {env : Env} {c : Coordinator} (h : Older s)
    (hj : s.job = some job) (hs : s.coordinator.Step (job.turn.event env, os) c)
    (ha : os.any Effect.attaches = job.attached) : Older (s.finished job c os) := by
  refine ⟨h.dated.finish hj hs ha, fun n hn id hl => h.resets n ?_ id (finished_live hj hs ha hl)⟩
  refine Service.mem_pendingResets.mpr (.inl ?_)
  exact (Service.mem_pendingResets.mp hn).resolve_right (by simp [Service.finished])

theorem Older.step {l : Service.Input × List Effect} (h : Older s) (hd : Current s l)
    (hs : s.Step l s') : Older s' := by
  obtain ⟨i, os⟩ := l
  obtain hs | ⟨w, r, -, -, -, rfl⟩ | ⟨-, -, rfl⟩ | ⟨job, id, n, rfl, hj, hc, hn, -, rfl⟩ |
    ⟨job, env, c, -, hj, hc, ha, rfl⟩ := Service.step_cases hs
  · exact h.shuffle hs
  · exact h.wake
  · refine ⟨⟨fun n hn => ?_, h.dated.births, h.dated.counted⟩, h.resets⟩
    exact (Option.some.inj hn).symm.le
  · exact h.attach hd hj hc hn
  · exact h.finish hj hc ha

end Resets

/-- A `Reset` removes only connections of the runs it was requested for, in
every run in which no branch is attached behind the back of an older one. -/
theorem resets_remove_old {config : CoordinatorConfig} {ls : List (Service.Input × List Effect)}
    (hc : Each Service.Step Current (.start config) ls) :
    Always Service.Step OnlyOld (.start config) ls := by
  have ha := hc.always (older_start config) fun hp hd hs => hp.step hd hs
  intro ls₁ ls₂ s he hr n hn id state hl
  exact (ha ls₁ ls₂ s he hr).resets n (Service.mem_pendingResets.mpr (.inr hn)) id
    (.inl (containsKey_iff.mpr ⟨state, hl⟩))

theorem resets_remove_old_viewer :
    ∃ ls s, Run Service.Step (.start {}) ls s ∧
      (s.job.bind fun job => job.turn.resets) = some 1 ∧ s.births "a" = 1 ∧
      Always Service.Step OnlyOld (.start {}) ls := by
  obtain ⟨ls, s, h, hi, hv⟩ := replayed Service.next Service.Step (fun _ _ _ _ h => h) (.start {})
    (firstRun ++ create "a" 0 0 [] ++
      [.wake (.ran false), .wake (.cleanedUp true), .postReset ⟨1⟩, .receive])
    (some 1, 1) (fun r => (r.1.job.bind fun job => job.turn.resets, r.1.births "a")) (by decide)
  obtain ⟨hj, hb⟩ := Prod.mk.inj hv
  have hc : Each Service.Step Current (.start {}) ls :=
    each_of_checks (fun _ _ _ _ h => h) (fun _ _ _ ht => current_of_test ht) (by rw [hi]; decide)
  exact ⟨ls, s, h, hj, hb, resets_remove_old hc⟩

/-- The reset after the first run times out behind a DELETE and the creation
of a viewer, which is then attached to the second run. -/
def staleReset : List Service.Input :=
  firstRun ++ create "a" 0 0 [] ++
    [.request (.removeConnection "a" ⟨1⟩), .receive, .request (.createConnection "c" ⟨2⟩),
      .wake (.ran false), .wake (.cleanedUp true), .postReset ⟨3⟩, .tick resetTimeout,
      .wake (.answered none)] ++ nextRun ++
    [.built, .wake (.initialized true), .tick (.fromSecs 14),
      .finish { Env.calm 0 ["a"] with branch := fun _ => ⟨none, Duration.fromSecs 20⟩ },
      .receive, .attach, .finish (.calm (Duration.fromSecs 20) ["a"]), .receive]

/-- A `Reset` requested after the first run removes a viewer of the second. -/
theorem stale_reset_removes_young :
    ∃ ls s, Run Service.Step (.start { teardownTimeout := .fromSecs 20 }) ls s ∧
      ls.map Prod.fst = staleReset ∧ ¬ OnlyOld s := by
  obtain ⟨ls, s, h, hi, hv⟩ := replayed Service.next Service.Step (fun _ _ _ _ h => h)
    (.start { teardownTimeout := .fromSecs 20 }) staleReset
    (some 1, 2, some (.awaitingOffer ⟨2⟩ (Duration.fromSecs 30)))
    (fun r => (r.1.job.bind fun job => job.turn.resets, r.1.births "c",
      r.1.coordinator.connections.lookup "c")) (by decide)
  simp only [Prod.mk.injEq] at hv
  obtain ⟨hj, hb, hl⟩ := hv
  refine ⟨ls, s, h, hi, fun ho => ?_⟩
  have := ho 1 hj "c" _ hl
  omega

end SrtWhep.Generations
