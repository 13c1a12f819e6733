import Mathlib.Algebra.Order.Group.Nat
import SrtWhep.Library.Accounts
import SrtWhep.Lifecycle

namespace SrtWhep.Lifecycle

open Library.Runs Library.Accounts Library.Channels
open RestartRequests (RestartSystem)

def leaving : Phase → Bool
  | .ending | .joining .shuttingDown | .cleaning .shuttingDown | .resetting .shuttingDown
  | .stopped => true
  | _ => false

/-- How often the supervisor goes on, at most, before it stops, when shutdown
reads true and there is no request to drain. -/
def remaining : Phase → Nat
  | .stopped => 0
  | .top => 1
  | .backingOff => 2
  | .resetting outcome => if outcome = .shuttingDown then 1 else 3
  | .cleaning outcome => if outcome = .shuttingDown then 2 else 4
  | .joining outcome => if outcome = .shuttingDown then 3 else 5
  | .ending => 4
  | .quitting => 6
  | .selecting => 7
  | .initializing => 8
  | .draining => 9

def unhindered : Wake → Bool
  | .ran _ | .joined (some _) | .answered (some _) => false
  | _ => true

def isWake : Input → Bool
  | .wake _ => true
  | _ => false

def isTrip : Input → Bool
  | .effect .requestRestart => true
  | _ => false

def wakes (ls : List (Input × List Entry)) : Nat := (ls.map fun l => (isWake l.1).toNat).sum

def trips (ls : List (Input × List Entry)) : Nat := (ls.map fun l => (isTrip l.1).toNat).sum

section Steps

variable {s s' : System} {v v' : Supervisor} {w : Wake} {cs : List Call} {i : Input}
  {t : List Entry}

theorem settle_remaining (v : Supervisor) (outcome : RunOutcome) :
    remaining (v.settle outcome).phase + 1 ≤ remaining (.resetting outcome) := by
  cases outcome with
  | completed ok => cases ok <;> exact Nat.le_refl _
  | shuttingDown => exact Nat.le_refl _
  | restart => exact Nat.le_refl _

/-- Every step brings the exit nearer, but for the drain of a request. -/
theorem step_remaining (h : v.step w = some (v', cs)) (hc : w ≠ .checked false)
    (hr : w ≠ .received true) : remaining v'.phase + 1 ≤ remaining v.phase := by
  obtain ⟨phase, failures⟩ := v
  unfold Supervisor.step at h
  split at h <;> cases h
  case h_2 => exact absurd rfl hc
  case h_3 => exact absurd rfl hr
  case h_14 outcome ok hp =>
    obtain rfl : phase = .resetting outcome := hp
    exact settle_remaining _ outcome
  case h_12 outcome ok hp =>
    obtain rfl : phase = .joining outcome := hp
    cases outcome <;> simp [remaining]
  case h_13 outcome ok hp =>
    obtain rfl : phase = .cleaning outcome := hp
    cases outcome <;> simp [remaining]
  all_goals
    rename_i hp
    obtain rfl : phase = _ := hp
    simp [remaining]

theorem step_leaving (h : v.step w = some (v', cs)) (hl : leaving v'.phase = true) :
    leaving v.phase = true ∨ w = .checked true ∨ w = .shutdownSeen := by
  obtain ⟨phase, failures⟩ := v
  unfold Supervisor.step at h
  split at h <;> cases h
  case h_14 outcome ok hp =>
    obtain rfl : phase = .resetting outcome := hp
    cases outcome with
    | completed ok => cases ok <;> cases hl
    | shuttingDown => exact .inl rfl
    | restart => cases hl
  case h_12 outcome ok hp =>
    obtain rfl : phase = .joining outcome := hp
    cases outcome <;> first | exact .inl rfl | cases hl
  case h_13 outcome ok hp =>
    obtain rfl : phase = .cleaning outcome := hp
    cases outcome <;> first | exact .inl rfl | cases hl
  all_goals
    rename_i hp
    obtain rfl : phase = _ := hp
    first | exact .inl rfl | exact .inr (.inl rfl) | exact .inr (.inr rfl) | cases hl

theorem receive_length {q q' : Channel Unit 1} {ns : List RestartRequests.Note}
    (h : RestartSystem.receive q w = some (q', ns)) :
    q'.queue.length + (decide (w = .received true)).toNat ≤ q.queue.length := by
  have hpop : ∀ {n : RestartRequests.Note},
      (q.tryRecv.map fun r => (r.2, [n])) = some (q', ns) →
        q'.queue.length + 1 = q.queue.length := by
    intro n h
    obtain ⟨⟨x, q''⟩, hq, he⟩ := Option.map_eq_some_iff.mp h
    cases he
    rw [Channel.tryRecv_eq_some.mp hq, List.length_cons]
  cases w with
  | received found =>
    cases found with
    | true => exact (hpop h).le
    | false =>
      obtain ⟨-, h⟩ := Option.ite_none_right_eq_some.mp h
      cases h
      exact Nat.le_refl _
  | restartRequested => exact Nat.le_of_succ_le (hpop h).le
  | joined ok =>
    cases ok <;> cases h <;> exact Nat.le_refl _
  | _ =>
    cases h
    exact Nat.le_refl _

def distance (s : System) : Nat := remaining s.phase + s.restarts.requests.queue.length

theorem step_distance {l : Input × List Entry} (h : s.Step l s') (hs : s.shutdown = true) :
    distance s' + (isWake l.1).toNat ≤ distance s + (isTrip l.1).toNat := by
  obtain ⟨i, t⟩ := l
  cases i with
  | shutdown =>
    obtain ⟨-, h⟩ := Option.ite_none_left_eq_some.mp h
    cases h
    exact Nat.le_refl _
  | drop =>
    cases h
    exact Nat.le_refl _
  | effect o =>
    cases h
    cases o with
    | requestRestart =>
      have hlen : (s.restarts.requests.trySend ()).1.queue.length ≤
          s.restarts.requests.queue.length + 1 := by
        obtain ⟨-, -, hq⟩ | ⟨-, hq⟩ := s.restarts.requests.trySend_cases ()
        · simp [hq]
        · simp [hq]
      exact Nat.add_le_add_left hlen _
    | _ => exact Nat.le_refl _
  | wake w =>
    obtain ⟨hw, h⟩ := Option.ite_none_right_eq_some.mp h
    simp only [Option.bind_eq_bind, Option.bind_eq_some_iff, Option.some.injEq,
      Prod.mk.injEq] at h
    obtain ⟨⟨v, cs⟩, hv, ⟨q, ns⟩, hq, rfl, -⟩ := h
    have hlen := receive_length hq
    change remaining v.phase + q.queue.length + 1 ≤
      remaining s.restarts.supervisor.phase + s.restarts.requests.queue.length + 0
    have hc : w ≠ .checked false := by
      rintro rfl
      simp [System.shows, hs] at hw
    by_cases hr : w = .received true
    · subst hr
      obtain ⟨-, he⟩ := Supervisor.step_received hv
      obtain ⟨rfl, -⟩ := Prod.mk.inj he
      simp only [decide_true, Bool.toNat_true] at hlen
      omega
    · have hrem := step_remaining hv hc hr
      omega

theorem keeps_shutdown {l : Input × List Entry} (hs : s.shutdown = true) (h : s.Step l s') :
    s'.shutdown = true := (step_shutdown h hs).1

theorem never_stuck (hs : s.shutdown = true) (hp : s.phase ≠ .stopped) :
    ∃ w t s', unhindered w = true ∧ s.Step (.wake w, t) s' := by
  obtain ⟨⟨⟨phase, failures⟩, requests⟩, shutdown, dropped⟩ := s
  obtain rfl : shutdown = true := hs
  cases phase with
  | top => exact ⟨.checked true, _, _, rfl, rfl⟩
  | draining =>
    match requests with
    | ⟨[], _⟩ => exact ⟨.received false, _, _, rfl, rfl⟩
    | ⟨_ :: _, _⟩ => exact ⟨.received true, _, _, rfl, rfl⟩
  | initializing => exact ⟨.initialized false, _, _, rfl, rfl⟩
  | selecting => exact ⟨.shutdownSeen, _, _, rfl, rfl⟩
  | ending => exact ⟨.asked, _, _, rfl, rfl⟩
  | quitting => exact ⟨.asked, _, _, rfl, rfl⟩
  | joining outcome => exact ⟨.joined none, _, _, rfl, rfl⟩
  | cleaning outcome => exact ⟨.cleanedUp false, _, _, rfl, rfl⟩
  | resetting outcome => exact ⟨.answered none, _, _, rfl, rfl⟩
  | backingOff => exact ⟨.shutdownSeen, _, _, rfl, rfl⟩
  | stopped => exact absurd rfl hp

end Steps

section Runs

variable {s s' : System} {ls : List (Input × List Entry)}

theorem run_distance (h : Run System.Step s ls s') (hs : s.shutdown = true) :
    wakes ls ≤ remaining s.phase + 1 + trips ls := by
  have hle : distance s' + wakes ls ≤ distance s + trips ls :=
    potential h hs keeps_shutdown fun hu hv => step_distance hv hu
  have hq := s.restarts.requests.bounded
  have hd : distance s ≤ remaining s.phase + 1 := Nat.add_le_add_left hq _
  exact (Nat.le_add_left _ _).trans (hle.trans (Nat.add_le_add_right hd _))

theorem run_leaving (h : Run System.Step .start ls s) (hl : leaving s.phase = true) :
    s.shutdown = true ∨ s.dropped = true := by
  refine h.invariant (P := fun s => leaving s.phase = true → s.shutdown = true ∨ s.dropped = true)
    (fun h => by cases h) ?_ hl
  rintro s s' ⟨i, t⟩ hi hs hl
  cases i with
  | shutdown =>
    obtain ⟨-, h⟩ := Option.ite_none_left_eq_some.mp hs
    cases h
    exact .inl rfl
  | drop =>
    cases hs
    exact .inr rfl
  | effect o =>
    cases hs
    have he : (s.restarts.effect o).1.supervisor = s.restarts.supervisor :=
      RestartSystem.feed_supervisor s.restarts [o]
    change leaving (s.restarts.effect o).1.supervisor.phase = true at hl
    rw [he] at hl
    exact hi hl
  | wake w =>
    obtain ⟨hw, h⟩ := Option.ite_none_right_eq_some.mp hs
    simp only [Option.bind_eq_bind, Option.bind_eq_some_iff, Option.some.injEq,
      Prod.mk.injEq] at h
    obtain ⟨⟨v, cs⟩, hv, ⟨q, ns⟩, -, rfl, -⟩ := h
    obtain hl | rfl | rfl := step_leaving hv hl
    · exact hi hl
    · exact .inl (by simpa [System.shows] using hw)
    · exact (Bool.or_eq_true _ _).mp hw

end Runs

end SrtWhep.Lifecycle
