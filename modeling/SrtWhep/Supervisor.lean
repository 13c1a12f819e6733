import SrtWhep.Clock

namespace SrtWhep

def baseRestartDelay : Duration := .fromSecs 1
def maxRestartDelay : Duration := .fromSecs 30
def shutdownJoinTimeout : Duration := .fromSecs 5
def resetTimeout : Duration := .fromSecs 5

def Duration.max : Duration := 2 ^ 64 * 10 ^ 9 - 1

/-- `2u32.saturating_pow(n)`. -/
def saturatingPow (n : Nat) : Nat := if n < 32 then 2 ^ n else 2 ^ 32 - 1

def backoffDelay (consecutiveFailures : UInt32) : Duration :=
  match consecutiveFailures.toNat with
  | 0 | 1 => baseRestartDelay
  | n => min (min (baseRestartDelay * min (saturatingPow (n - 1)) 64) Duration.max) maxRestartDelay

/-- `n.saturating_add(1)` on a `u32`. -/
def saturatingSucc (n : UInt32) : UInt32 := if n = 0xffffffff then n else n + 1

inductive RunOutcome
  | completed (ok : Bool)
  | shuttingDown
  | restart
deriving DecidableEq, Repr

inductive Phase
  | top
  | draining
  | initializing
  | selecting
  | ending
  | quitting
  | joining (outcome : RunOutcome)
  | cleaning (outcome : RunOutcome)
  | resetting (outcome : RunOutcome)
  | backingOff
  | stopped
deriving DecidableEq, Repr

inductive Call
  | init
  | run
  | endRun
  | quit
  | cleanUp
  | reset
deriving DecidableEq, Repr

/-- What lets the supervisor go on. A `none` is a call cut off by its timeout. -/
inductive Wake
  | checked (shutdown : Bool)
  | received (found : Bool)
  | initialized (ok : Bool)
  | ran (ok : Bool)
  | shutdownSeen
  | restartRequested
  | asked
  | joined (ok : Option Bool)
  | cleanedUp (ok : Bool)
  | answered (ok : Option Bool)
  | slept
deriving DecidableEq, Repr

structure Supervisor where
  phase : Phase
  consecutiveFailures : UInt32
deriving DecidableEq, Repr

namespace Supervisor

def spawn : Supervisor := ⟨.top, 0⟩

def settle (s : Supervisor) : RunOutcome → Supervisor
  | .shuttingDown => { s with phase := .stopped }
  | .restart => ⟨.backingOff, 0⟩
  | .completed true => ⟨.backingOff, 0⟩
  | .completed false => ⟨.backingOff, saturatingSucc s.consecutiveFailures⟩

/-- One step of the loop, with the calls it starts; `none` where the loop is
not waiting for this. -/
def step (s : Supervisor) (w : Wake) : Option (Supervisor × List Call) :=
  match s.phase, w with
  | .top, .checked true => some ({ s with phase := .stopped }, [])
  | .top, .checked false => some ({ s with phase := .draining }, [])
  | .draining, .received true => some (s, [])
  | .draining, .received false => some ({ s with phase := .initializing }, [.init])
  | .initializing, .initialized true => some ({ s with phase := .selecting }, [.run])
  | .initializing, .initialized false =>
    some ({ s with phase := .cleaning (.completed false) }, [.cleanUp])
  | .selecting, .ran ok => some ({ s with phase := .cleaning (.completed ok) }, [.cleanUp])
  | .selecting, .shutdownSeen => some ({ s with phase := .ending }, [.endRun])
  | .selecting, .restartRequested => some ({ s with phase := .quitting }, [.quit])
  | .ending, .asked => some ({ s with phase := .joining .shuttingDown }, [])
  | .quitting, .asked => some ({ s with phase := .joining .restart }, [])
  | .joining outcome, .joined _ => some ({ s with phase := .cleaning outcome }, [.cleanUp])
  | .cleaning outcome, .cleanedUp _ => some ({ s with phase := .resetting outcome }, [.reset])
  | .resetting outcome, .answered _ => some (s.settle outcome, [])
  | .backingOff, .slept => some ({ s with phase := .top }, [])
  | .backingOff, .shutdownSeen => some ({ s with phase := .stopped }, [])
  | _, _ => none

theorem settle_phase (s : Supervisor) (outcome : RunOutcome) :
    (s.settle outcome).phase = .stopped ∨ (s.settle outcome).phase = .backingOff := by
  cases outcome with
  | completed ok => cases ok <;> exact .inr rfl
  | shuttingDown => exact .inl rfl
  | restart => exact .inr rfl

theorem step_received {s : Supervisor} {found : Bool} {r : Supervisor × List Call}
    (h : s.step (.received found) = some r) : s.phase = .draining ∧
      r = if found then (s, []) else ({ s with phase := .initializing }, [.init]) := by
  obtain ⟨phase, f⟩ := s
  cases phase with
  | draining => cases found <;> exact ⟨rfl, (Option.some.inj h).symm⟩
  | _ => cases h

theorem step_restartRequested {s : Supervisor} {r : Supervisor × List Call}
    (h : s.step .restartRequested = some r) :
    s.phase = .selecting ∧ r = ({ s with phase := .quitting }, [.quit]) := by
  obtain ⟨phase, f⟩ := s
  cases phase with
  | selecting => exact ⟨rfl, (Option.some.inj h).symm⟩
  | _ => cases h

end Supervisor

end SrtWhep
