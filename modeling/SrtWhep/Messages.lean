import SrtWhep.Clock
import SrtWhep.SessionDescription

namespace SrtWhep

abbrev ConnectionId := String

structure BranchId where
  raw : String
deriving DecidableEq, Repr

def BranchId.intoString (b : BranchId) : ConnectionId := b.raw

inductive PipelineError
  | notReady
  | transient (message : String)
  | fatal (message : String)
deriving DecidableEq, Repr

inductive SignalError
  | invalidSdp (message : String)
  | sdp (error : SdpError)
  | notFound (id : ConnectionId)
  | gone (id : ConnectionId)
  | wrongState (id : ConnectionId)
  | timeout (leg : String)
  | notReady
  | pipelineBusy (message : String)
  | unavailable
  | pipeline (message : String)
deriving DecidableEq, Repr

/-- The seam between the planes keeps the retry policy of an error. -/
def SignalError.ofPipelineError : PipelineError → SignalError
  | .notReady => .notReady
  | .transient message => .pipelineBusy message
  | .fatal message => .pipeline message

structure ConnectionInfo where
  id : ConnectionId
  state : String
deriving DecidableEq, Repr

/-- What a successful reply carries, by the kind of command it answers. -/
inductive Payload
  | offer (sdp : SdpOffer)
  | answer (sdp : SdpAnswer)
  | unit
  | snapshot (connections : List ConnectionInfo)
deriving DecidableEq, Repr

class Carried (T : Type) where
  payload : T → Payload

instance : Carried SdpOffer := ⟨.offer⟩
instance : Carried SdpAnswer := ⟨.answer⟩
instance : Carried Unit := ⟨fun _ => .unit⟩
instance : Carried (List ConnectionInfo) := ⟨.snapshot⟩

/-- The sending half of a oneshot channel for a `Result<T, SignalError>`,
known by the number of its channel. -/
structure Sender (T : Type) where
  channel : Nat
deriving DecidableEq, Repr

abbrev OfferReply := Sender SdpOffer
abbrev AnswerReply := Sender SdpAnswer
abbrev UnitReply := Sender Unit
abbrev SnapshotReply := Sender (List ConnectionInfo)

inductive Command
  | createConnection (id : ConnectionId) (reply : OfferReply)
  | offerReceived (id : ConnectionId) (sdp : SdpOffer) (reply : AnswerReply)
  | answerReceived (id : ConnectionId) (sdp : SdpAnswer) (reply : UnitReply)
  | removeConnection (id : ConnectionId) (reply : UnitReply)
  | listConnections (reply : SnapshotReply)
  | reset (reply : UnitReply)
deriving DecidableEq, Repr

namespace Command

def channel : Command → Nat
  | createConnection _ reply => reply.channel
  | offerReceived _ _ reply => reply.channel
  | answerReceived _ _ reply => reply.channel
  | removeConnection _ reply => reply.channel
  | listConnections reply => reply.channel
  | reset reply => reply.channel

def connection : Command → Option ConnectionId
  | createConnection id _ => some id
  | offerReceived id _ _ => some id
  | answerReceived id _ _ => some id
  | removeConnection id _ => some id
  | listConnections _ => none
  | reset _ => none

end Command

/-- How a branch call bounded by `teardown_timeout` came back: with the
call's own result, or cut off without one; and when it did. -/
structure BranchCall where
  result : Option (Except PipelineError Unit)
  returned : Instant
deriving DecidableEq

def BranchCall.succeeded (call : BranchCall) : Bool := decide (call.result = some (.ok ()))

/-- What one turn of the select loop meets outside the coordinator: the
clock, the order in which the connection map iterates, the outcome of the
branch call made for each id, and which reply channels still have a receiver. -/
structure Env where
  now : Instant
  order : List ConnectionId
  branch : ConnectionId → BranchCall
  listening : Nat → Bool

def Env.calm (now : Instant) (order : List ConnectionId) : Env where
  now := now
  order := order
  branch _ := ⟨some (.ok ()), now⟩
  listening _ := true

end SrtWhep
