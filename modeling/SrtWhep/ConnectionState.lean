import SrtWhep.Messages

namespace SrtWhep

inductive ConnectionState
  | awaitingOffer (whepReply : OfferReply) (deadline : Instant)
  | awaitingAnswer (whipReply : AnswerReply) (deadline : Instant)
  | established (since : Instant)
deriving DecidableEq, Repr

inductive OfferDelivery
  | delivered
  | waiterGone
deriving DecidableEq, Repr

inductive AnswerDelivery
  | established
  | waiterGone
deriving DecidableEq, Repr

inductive TerminateReason
  | deleted
  | expired
  | peerGone
  | reaped
  | reset
deriving DecidableEq, Repr

inductive MissingEntry
  | reject
  | skip
  | proceed
deriving DecidableEq, Repr

inductive WaiterNotice
  | gone
  | expiredLeg
  | unavailable
deriving DecidableEq, Repr

inductive Teardown
  | required
  | bestEffort
  | keep
deriving DecidableEq, Repr

structure TerminationPolicy where
  onMissing : MissingEntry
  waiter : WaiterNotice
  teardown : Teardown
  feedsWatchdog : Bool
deriving DecidableEq, Repr

def TerminateReason.policy : TerminateReason → TerminationPolicy
  | deleted => ⟨.reject, .gone, .required, false⟩
  | expired => ⟨.skip, .expiredLeg, .bestEffort, true⟩
  | peerGone => ⟨.proceed, .gone, .bestEffort, true⟩
  | reaped => ⟨.skip, .gone, .bestEffort, false⟩
  | reset => ⟨.skip, .unavailable, .keep, false⟩

/-- What a turn of the loop does besides updating the coordinator, in order.
`send` tells whether the receiver was still there. `displaced` is an insert
that dropped the entry it found, and `ended` marks where `terminate` or
`reset_all` has finally given up an entry; the rest are calls. -/
inductive Effect
  | send (channel : Nat) (reply : Except SignalError Payload) (received : Bool)
  | displaced (id : ConnectionId) (state : ConnectionState)
  | addBranch (id : ConnectionId) (call : BranchCall)
  | removeBranch (id : ConnectionId) (call : BranchCall)
  | recordFailure (id : ConnectionId) (tripped : Bool)
  | recordSuccess (id : Option ConnectionId)
  | ended (id : ConnectionId) (reason : TerminateReason)
  | requestRestart
deriving DecidableEq

def Sender.send {T : Type} [Carried T] (s : Sender T) (env : Env) (reply : Except SignalError T) :
    Effect :=
  .send s.channel (reply.map Carried.payload) (env.listening s.channel)

namespace Sender

variable (env : Env)

@[simp] theorem send_error {T : Type} [Carried T] (s : Sender T) (err : SignalError) :
    s.send env (.error err) = .send s.channel (.error err) (env.listening s.channel) := rfl

@[simp] theorem send_offer (s : OfferReply) (sdp : SdpOffer) :
    s.send env (.ok sdp) = .send s.channel (.ok (.offer sdp)) (env.listening s.channel) := rfl

@[simp] theorem send_answer (s : AnswerReply) (sdp : SdpAnswer) :
    s.send env (.ok sdp) = .send s.channel (.ok (.answer sdp)) (env.listening s.channel) := rfl

@[simp] theorem send_unit (s : UnitReply) :
    s.send env (.ok ()) = .send s.channel (.ok .unit) (env.listening s.channel) := rfl

end Sender

namespace ConnectionState

def name : ConnectionState → String
  | awaitingOffer _ _ => "awaiting_offer"
  | awaitingAnswer _ _ => "awaiting_answer"
  | established _ => "established"

def info (state : ConnectionState) (id : ConnectionId) : ConnectionInfo := ⟨id, state.name⟩

def failWaiter (state : ConnectionState) (env : Env) (err : SignalError) : List Effect :=
  match state with
  | awaitingOffer whepReply _ => [whepReply.send env (.error err)]
  | awaitingAnswer whipReply _ => [whipReply.send env (.error err)]
  | established _ => []

def deadline : ConnectionState → Option Instant
  | awaitingOffer _ deadline => some deadline
  | awaitingAnswer _ deadline => some deadline
  | established _ => none

def expire (state : ConnectionState) (env : Env) : List Effect :=
  match state with
  | awaitingOffer whepReply _ => [whepReply.send env (.error (.timeout "SDP offer"))]
  | awaitingAnswer whipReply _ => [whipReply.send env (.error (.timeout "SDP answer"))]
  | established _ => []

def notify (state : ConnectionState) (env : Env) (notice : WaiterNotice) (id : ConnectionId) :
    List Effect :=
  match notice with
  | .gone => state.failWaiter env (.gone id)
  | .expiredLeg => state.expire env
  | .unavailable => state.failWaiter env .unavailable

/-- Deliver the whipsink's offer. The send consumes the parked reply whether
or not its receiver is still there; any other state is handed back. -/
def deliverOffer (state : ConnectionState) (env : Env) (sdp : SdpOffer) :
    Except ConnectionState OfferDelivery × List Effect :=
  match state with
  | awaitingOffer whepReply _ =>
    (.ok (if env.listening whepReply.channel then .delivered else .waiterGone),
      [whepReply.send env (.ok sdp)])
  | other => (.error other, [])

def deliverAnswer (state : ConnectionState) (env : Env) (sdp : SdpAnswer) :
    Except ConnectionState AnswerDelivery × List Effect :=
  match state with
  | awaitingAnswer whipReply _ =>
    (.ok (if env.listening whipReply.channel then .established else .waiterGone),
      [whipReply.send env (.ok sdp)])
  | other => (.error other, [])

def parked : ConnectionState → Option Nat
  | awaitingOffer whepReply _ => some whepReply.channel
  | awaitingAnswer whipReply _ => some whipReply.channel
  | established _ => none

def notice (state : ConnectionState) (id : ConnectionId) : WaiterNotice → SignalError
  | .gone => .gone id
  | .expiredLeg =>
    match state with
    | awaitingOffer _ _ => .timeout "SDP offer"
    | _ => .timeout "SDP answer"
  | .unavailable => .unavailable

theorem notify_eq (state : ConnectionState) (env : Env) (n : WaiterNotice) (id : ConnectionId) :
    state.notify env n id =
      state.parked.toList.map fun ch =>
        .send ch (.error (state.notice id n)) (env.listening ch) := by
  cases state <;> cases n <;> rfl

end ConnectionState

end SrtWhep
