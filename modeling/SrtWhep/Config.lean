import SrtWhep.Clock

namespace SrtWhep

def defaultOfferTimeoutSec : UInt64 := 10
def defaultAnswerTimeoutSec : UInt64 := 10
def defaultWatchdogThreshold : UInt32 := 3
def defaultWatchdogWindowSec : UInt64 := 60
def defaultSweepIntervalMs : UInt64 := 1000
def defaultTeardownTimeoutSec : UInt64 := 5

structure CoordinatorConfig where
  offerTimeout : Duration := .fromSecs defaultOfferTimeoutSec.toNat
  answerTimeout : Duration := .fromSecs defaultAnswerTimeoutSec.toNat
  watchdogThreshold : UInt32 := defaultWatchdogThreshold
  watchdogWindow : Duration := .fromSecs defaultWatchdogWindowSec.toNat
  sweepInterval : Duration := .fromMillis defaultSweepIntervalMs.toNat
  teardownTimeout : Duration := .fromSecs defaultTeardownTimeoutSec.toNat
deriving DecidableEq, Repr

/-- The command-line knobs: any values of their types, none of them checked. -/
structure CoordinatorArgs where
  offerTimeoutSec : UInt64 := defaultOfferTimeoutSec
  answerTimeoutSec : UInt64 := defaultAnswerTimeoutSec
  watchdogThreshold : UInt32 := defaultWatchdogThreshold
  watchdogWindowSec : UInt64 := defaultWatchdogWindowSec
  sweepIntervalMs : UInt64 := defaultSweepIntervalMs
  teardownTimeoutSec : UInt64 := defaultTeardownTimeoutSec
deriving DecidableEq, Repr

def CoordinatorArgs.toConfig (args : CoordinatorArgs) : CoordinatorConfig where
  offerTimeout := .fromSecs args.offerTimeoutSec.toNat
  answerTimeout := .fromSecs args.answerTimeoutSec.toNat
  watchdogThreshold := args.watchdogThreshold
  watchdogWindow := .fromSecs args.watchdogWindowSec.toNat
  sweepInterval := .fromMillis args.sweepIntervalMs.toNat
  teardownTimeout := .fromSecs args.teardownTimeoutSec.toNat

theorem CoordinatorArgs.sweepInterval_eq_zero (args : CoordinatorArgs) :
    args.toConfig.sweepInterval = 0 ↔ args.sweepIntervalMs = 0 := by
  simp only [toConfig, Duration.fromMillis, Nat.mul_eq_zero]
  rw [← UInt64.toNat_inj]
  simp

end SrtWhep
