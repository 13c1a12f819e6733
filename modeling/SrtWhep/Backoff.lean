import SrtWhep.Service

namespace SrtWhep.Backoff

open Library.Runs Duration RestartRequests

def cycleOutcome : Wake → Option RunOutcome
  | .initialized false => some (.completed false)
  | .ran ok => some (.completed ok)
  | .restartRequested => some .restart
  | _ => none

def outcomes (ls : List (Wake × List Call)) : List RunOutcome :=
  ls.filterMap fun l => cycleOutcome l.1

/-- The number of errors at the end of a history. -/
def streak (os : List RunOutcome) : Nat :=
  (os.reverse.takeWhile (· = .completed false)).length

def maxCount : Nat := 2 ^ 32 - 1

def Step (s : Supervisor) (l : Wake × List Call) (t : Supervisor) : Prop :=
  s.step l.1 = some (t, l.2)

section Delays

variable {n m : UInt32}

theorem saturatingSucc_toNat : (saturatingSucc n).toNat = min (n.toNat + 1) maxCount := by
  unfold saturatingSucc maxCount
  have hn := n.toNat_lt
  split
  next he =>
    subst he
    decide
  next hne =>
    have hlt : n.toNat ≠ 2 ^ 32 - 1 := fun h => hne (UInt32.toNat_inj.mp h)
    rw [UInt32.toNat_add]
    simp
    omega

theorem saturatingPow_lt (k : Nat) : saturatingPow k < 2 ^ 32 := by
  unfold saturatingPow
  split
  next h => exact Nat.pow_lt_pow_right (by decide) h
  next => decide

/-- Past the fifth failure the cap decides, so that the saturation does not show. -/
theorem capped_pow (k : Nat) : min (min (saturatingPow k) 64) 30 = min (2 ^ k) 30 := by
  unfold saturatingPow
  split
  next => omega
  next h =>
    have hpow : 2 ^ 32 ≤ 2 ^ k := Nat.pow_le_pow_right (by decide) (Nat.not_lt.mp h)
    omega

theorem product_le (k : Nat) :
    baseRestartDelay * min (saturatingPow k) 64 ≤ Duration.max := by
  have hle : baseRestartDelay * min (saturatingPow k) 64 ≤ baseRestartDelay * 64 :=
    Nat.mul_le_mul_left _ (Nat.min_le_right _ _)
  exact hle.trans (by decide)

theorem backoffDelay_eq (n : UInt32) :
    backoffDelay n = fromSecs (min (2 ^ (max n.toNat 1 - 1)) 30) := by
  obtain h | h | ⟨k, hk⟩ : n.toNat = 0 ∨ n.toNat = 1 ∨ ∃ k, n.toNat = k + 2 := by
    by_cases h : 2 ≤ n.toNat
    · exact .inr (.inr ⟨n.toNat - 2, by omega⟩)
    · omega
  · rw [backoffDelay, h]
    rfl
  · rw [backoffDelay, h]
    rfl
  · have hmax : max (k + 2) 1 - 1 = k + 2 - 1 := by omega
    rw [backoffDelay, hk, hmax, ← capped_pow]
    have hcap : ∀ x d : Nat, 1 * 10 ^ 9 * x ≤ d →
        min (min (1 * 10 ^ 9 * x) d) (30 * 10 ^ 9) = min x 30 * 10 ^ 9 := by omega
    exact hcap _ _ (product_le _)

theorem backoffDelay_mono (h : n.toNat ≤ m.toNat) : backoffDelay n ≤ backoffDelay m := by
  rw [backoffDelay_eq, backoffDelay_eq]
  have hpow : 2 ^ (max n.toNat 1 - 1) ≤ 2 ^ (max m.toNat 1 - 1) :=
    Nat.pow_le_pow_right (by decide) (by omega)
  exact Nat.mul_le_mul_right _ (by omega)

end Delays

section Histories

variable {s t : Supervisor} {l : Wake × List Call} {ls : List (Wake × List Call)}
  {os : List RunOutcome} {o : RunOutcome}

theorem outcomes_snoc : outcomes (ls ++ [l]) = outcomes ls ++ (cycleOutcome l.1).toList := by
  simp only [outcomes, List.filterMap_append, List.filterMap_cons, List.filterMap_nil]
  cases cycleOutcome l.1 <;> rfl

theorem streak_snoc : streak (os ++ [o]) = if o = .completed false then streak os + 1 else 0 := by
  by_cases h : o = .completed false <;> simp [streak, h]

/-- The last outcome is not yet in the counter. -/
def Ahead (n : UInt32) (os : List RunOutcome) (o : RunOutcome) : Prop :=
  ∃ prev, os = prev ++ [o] ∧ n.toNat = min (streak prev) maxCount

def Counts (s : Supervisor) (os : List RunOutcome) : Prop :=
  match s.phase with
  | .top | .draining | .initializing | .selecting | .backingOff =>
    s.consecutiveFailures.toNat = min (streak os) maxCount
  | .quitting => Ahead s.consecutiveFailures os .restart
  | .joining o | .cleaning o | .resetting o => o = .shuttingDown ∨ Ahead s.consecutiveFailures os o
  | .ending | .stopped => True

theorem settle_counts (h : Ahead s.consecutiveFailures os o) : Counts (s.settle o) os := by
  obtain ⟨prev, rfl, hc⟩ := h
  cases o with
  | shuttingDown => trivial
  | restart => simp [Counts, Supervisor.settle, streak_snoc]
  | completed ok =>
    cases ok with
    | true => simp [Counts, Supervisor.settle, streak_snoc]
    | false =>
      simp only [Counts, Supervisor.settle, streak_snoc, saturatingSucc_toNat, hc, if_true]
      omega

theorem step_counts (hs : Step s l t) (h : Counts s os) :
    Counts t (os ++ (cycleOutcome l.1).toList) := by
  obtain ⟨w, calls⟩ := l
  obtain ⟨phase, n⟩ := s
  have hahead : ∀ o, n.toNat = min (streak os) maxCount → Ahead n (os ++ [o]) o :=
    fun o hn => ⟨os, rfl, hn⟩
  cases phase with
  | top =>
    cases w with
    | checked shutdown =>
      cases shutdown with
      | false => cases hs; simpa [cycleOutcome, Counts] using h
      | true => cases hs; trivial
    | _ => cases hs
  | draining =>
    cases w with
    | received found => cases found <;> cases hs <;> simpa [cycleOutcome, Counts] using h
    | _ => cases hs
  | initializing =>
    cases w with
    | initialized ok =>
      cases ok with
      | true => cases hs; simpa [cycleOutcome, Counts] using h
      | false => cases hs; exact .inr (hahead _ h)
    | _ => cases hs
  | selecting =>
    cases w with
    | ran ok => cases hs; exact .inr (hahead _ h)
    | shutdownSeen => cases hs; trivial
    | restartRequested => cases hs; exact hahead _ h
    | _ => cases hs
  | ending =>
    cases w with
    | asked => cases hs; exact .inl rfl
    | _ => cases hs
  | quitting =>
    cases w with
    | asked => cases hs; simpa [cycleOutcome, Counts] using h
    | _ => cases hs
  | joining outcome =>
    cases w with
    | joined ok => cases hs; simpa [cycleOutcome, Counts] using h
    | _ => cases hs
  | cleaning outcome =>
    cases w with
    | cleanedUp ok => cases hs; simpa [cycleOutcome, Counts] using h
    | _ => cases hs
  | resetting outcome =>
    cases w with
    | answered ok =>
      cases hs
      simp only [cycleOutcome, Option.toList_none, List.append_nil]
      obtain rfl | h := h
      · trivial
      · exact settle_counts h
    | _ => cases hs
  | backingOff =>
    cases w with
    | slept => cases hs; simpa [cycleOutcome, Counts] using h
    | shutdownSeen => cases hs; trivial
    | _ => cases hs
  | stopped => cases w <;> cases hs

theorem run_counts (h : Run Step .spawn ls s) : Counts s (outcomes ls) := by
  refine h.history (P := fun ls s => Counts s (outcomes ls)) rfl ?_
  intro ls u v l hc hs
  rw [outcomes_snoc]
  exact step_counts hs hc

theorem streak_append {os' : List RunOutcome} (h : ∀ o ∈ os', o = .completed false) :
    streak os ≤ streak (os ++ os') := by
  induction os' using List.reverseRecOn with
  | nil => simp
  | append_singleton os' o ih =>
    have ho : o = .completed false := h o (by simp)
    have hle := ih fun o' hm => h o' (by simp [hm])
    rw [← List.append_assoc, streak_snoc, if_pos ho]
    omega

theorem streak_of_last (h : os.getLast? ≠ some (.completed false)) : streak os = 0 := by
  obtain rfl | ⟨os, o, rfl⟩ := os.eq_nil_or_concat
  · rfl
  · rw [List.concat_eq_append] at h ⊢
    rw [streak_snoc, if_neg fun ho => h (by simp [ho])]

theorem outcomes_append {ms : List (Wake × List Call)} :
    outcomes (ls ++ ms) = outcomes ls ++ outcomes ms := List.filterMap_append

def cycle : RunOutcome → List Wake
  | .completed false =>
    [.checked false, .received false, .initialized false, .cleanedUp true, .answered (some true)]
  | .completed true =>
    [.checked false, .received false, .initialized true, .ran true, .cleanedUp true,
      .answered (some true)]
  | .restart =>
    [.checked false, .received false, .initialized true, .restartRequested, .asked,
      .joined (some true), .cleanedUp true, .answered (some true)]
  | .shuttingDown => [.checked false, .received false, .initialized true, .shutdownSeen]

theorem cycle_runs (ho : o ≠ .shuttingDown) (hp : s.phase = .top) :
    ∃ ls t, Run Step s ls t ∧ outcomes ls = [o] ∧ t.phase = .backingOff := by
  obtain ⟨phase, n⟩ := s
  cases hp
  have hr : ∃ t ls, replay Supervisor.step (cycle o) ⟨.top, n⟩ = some (t, ls) ∧
      outcomes ls = [o] ∧ t.phase = .backingOff := by
    cases o with
    | shuttingDown => exact absurd rfl ho
    | restart => exact ⟨_, _, rfl, rfl, rfl⟩
    | completed ok => cases ok <;> exact ⟨_, _, rfl, rfl, rfl⟩
  obtain ⟨t, ls, hr, hout, hpt⟩ := hr
  exact ⟨ls, t, replay_run (fun _ _ _ _ h => h) hr, hout, hpt⟩

theorem history_runs (h : .shuttingDown ∉ os) : ∃ ls s, Run Step .spawn ls s ∧
    outcomes ls = os ∧ (s.phase = .backingOff ∨ os = [] ∧ s.phase = .top) := by
  induction os using List.reverseRecOn with
  | nil => exact ⟨[], .spawn, .nil _, rfl, .inr ⟨rfl, rfl⟩⟩
  | append_singleton os o ih =>
    obtain ⟨ls, s, hr, hout, hp⟩ := ih fun hm => h (by simp [hm])
    have ho : o ≠ .shuttingDown := fun he => h (by simp [he])
    obtain ⟨ls, s, hr, hout, hp⟩ : ∃ ls s, Run Step .spawn ls s ∧ outcomes ls = os ∧
        s.phase = .top := by
      obtain hp | ⟨-, hp⟩ := hp
      · have hs : Step s (.slept, []) { s with phase := .top } := by
          obtain ⟨phase, n⟩ := s
          cases hp
          rfl
        refine ⟨_, _, hr.snoc hs, ?_, rfl⟩
        rw [outcomes_snoc, hout]
        exact List.append_nil os
      · exact ⟨ls, s, hr, hout, hp⟩
    obtain ⟨ms, t, hm, hout', hpt⟩ := cycle_runs ho hp
    exact ⟨ls ++ ms, t, hr.append hm, by rw [outcomes_append, hout, hout'], .inl hpt⟩

theorem timer_slept (h : Run Step .spawn ls s) (hp : s.phase = .backingOff) :
    s.consecutiveFailures.toNat = min (streak (outcomes ls)) maxCount ∧ s.timer .slept =
      fromSecs (min (2 ^ (Max.max (min (streak (outcomes ls)) maxCount) 1 - 1)) 30) := by
  have hcount : s.consecutiveFailures.toNat = min (streak (outcomes ls)) maxCount := by
    have hc := run_counts h
    simpa only [Counts, hp] using hc
  refine ⟨hcount, ?_⟩
  rw [← hcount]
  exact backoffDelay_eq _

theorem step_slept {r : Supervisor × List Call} (h : s.step .slept = some r) :
    s.phase = .backingOff := by
  obtain ⟨phase, n⟩ := s
  cases phase with
  | backingOff => rfl
  | _ => cases h

theorem control_run {c : RestartSystem} {ms : List (RestartRequests.Input × List Note)}
    (h : Run RestartSystem.Step .start ms c) : ∃ ls, Run Step .spawn ls c.supervisor := by
  refine h.invariant (P := fun c => ∃ ls, Run Step .spawn ls c.supervisor) ⟨[], .nil _⟩ ?_
  rintro u v ⟨i, notes⟩ ⟨ls, hr⟩ hs
  cases i with
  | effect o =>
    obtain rfl : (u.effect o).1 = v := congrArg Prod.fst (Option.some.inj hs)
    exact ⟨ls, (RestartSystem.feed_supervisor u [o]).symm ▸ hr⟩
  | wake w =>
    obtain ⟨calls, hc⟩ := RestartSystem.next_wake hs
    exact ⟨ls ++ [(w, calls)], hr.snoc hc⟩

theorem service_waits {config : CoordinatorConfig} {s s' : Service}
    {ms : List (Service.Input × List Effect)} {os : List Effect}
    (h : Run Service.Step (.start config) ms s) (hs : s.Step (.wake .slept, os) s') :
    ∃ ls, Run Step .spawn ls s.control.supervisor ∧
      s.since + fromSecs (min (2 ^ (Max.max (min (streak (outcomes ls)) maxCount) 1 - 1)) 30) ≤
        s.clock := by
  obtain ⟨⟨ns, hn⟩, -⟩ := Service.run_parts h
  obtain ⟨ls, hr⟩ := control_run hn
  obtain ⟨ha, hs⟩ := Option.ite_none_right_eq_some.mp hs
  obtain ⟨r, hw, -⟩ := Option.map_eq_some_iff.mp hs
  obtain ⟨calls, hc⟩ := RestartSystem.next_wake hw
  have hp : s.control.supervisor.phase = .backingOff := step_slept hc
  have hwait : s.since + s.control.supervisor.timer .slept ≤ s.clock := by
    simpa [Service.allows] using ha
  exact ⟨ls, hr, (timer_slept hr hp).2 ▸ hwait⟩

end Histories

/-- The delay before the next run follows the errors at the end of the history: it doubles
from one second up to thirty, does not fall while errors go on, is one second after any
other outcome, and no step of the arithmetic overflows. -/
theorem backoff_follows_failures {ls : List (Wake × List Call)} {s : Supervisor}
    (h : Run Step .spawn ls s) (hp : s.phase = .backingOff) :
    s.timer .slept =
        fromSecs (min (2 ^ (Max.max (min (streak (outcomes ls)) maxCount) 1 - 1)) 30) ∧
      fromSecs 1 ≤ s.timer .slept ∧ s.timer .slept ≤ fromSecs 30 ∧
      ((outcomes ls).getLast? ≠ some (.completed false) → s.timer .slept = fromSecs 1) ∧
      (∀ ms t, Run Step s ms t → t.phase = .backingOff →
        (∀ o ∈ outcomes ms, o = .completed false) → s.timer .slept ≤ t.timer .slept) ∧
      ∀ n : UInt32, (saturatingSucc n).toNat = min (n.toNat + 1) maxCount ∧
        (2 ≤ n.toNat → (n - 1).toNat = n.toNat - 1 ∧ saturatingPow (n.toNat - 1) < 2 ^ 32 ∧
          baseRestartDelay * min (saturatingPow (n.toNat - 1)) 64 ≤ Duration.max) := by
  obtain ⟨hcount, hdelay⟩ := timer_slept h hp
  have hpos : ∀ k : Nat, 0 < 2 ^ k := fun k => Nat.two_pow_pos k
  refine ⟨hdelay, ?_, ?_, fun hlast => ?_, fun ms t hr ht hall => ?_, fun n => ⟨?_, fun hn => ?_⟩⟩
  · rw [hdelay]
    have hone := hpos (Max.max (min (streak (outcomes ls)) maxCount) 1 - 1)
    exact Nat.mul_le_mul_right _ (by omega)
  · rw [hdelay]
    exact Nat.mul_le_mul_right _ (Nat.min_le_right _ _)
  · rw [hdelay, streak_of_last hlast]
    rfl
  · have hct := run_counts (h.append hr)
    simp only [Counts, ht, outcomes_append] at hct
    have hle := @streak_append (outcomes ls) (outcomes ms) hall
    refine backoffDelay_mono ?_
    rw [hcount, hct]
    omega
  · exact saturatingSucc_toNat
  · refine ⟨?_, saturatingPow_lt _, product_le _⟩
    have hle : (1 : UInt32) ≤ n := UInt32.le_iff_toNat_le.mpr (le_trans (by decide) hn)
    rw [UInt32.toNat_sub_of_le _ _ hle]
    rfl

theorem backoff_follows_failures_capped : ∃ ls s, Run Step .spawn ls s ∧
    outcomes ls = List.replicate 7 (.completed false) ∧ s.timer .slept = fromSecs 30 := by
  obtain ⟨ls, s, h, hout, hp | ⟨he, -⟩⟩ :=
    @history_runs (List.replicate 7 (.completed false)) (by decide)
  · refine ⟨ls, s, h, hout, ?_⟩
    rw [(backoff_follows_failures h hp).1, hout]
    decide
  · cases he

end SrtWhep.Backoff
