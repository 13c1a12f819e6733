import SrtWhep.Config
import SrtWhep.ConnectionState
import SrtWhep.Library.Tables
import SrtWhep.Watchdog

namespace SrtWhep

open Library.Tables

/-- The signaling actor. Its three channels belong to the system around it:
what it receives is an `Event`, and a restart request is an `Effect`. -/
structure Coordinator where
  config : CoordinatorConfig
  connections : Table ConnectionId ConnectionState
  watchdog : Watchdog
deriving DecidableEq

/-- One turn of the select loop, by the branch that was ready. -/
inductive Event
  | command (cmd : Command) (env : Env)
  | branchFailure (branch : BranchId) (env : Env)
  | sweepTick (env : Env)

def Event.env : Event → Env
  | command _ env => env
  | branchFailure _ env => env
  | sweepTick env => env

namespace Coordinator

def new (config : CoordinatorConfig) : Coordinator where
  config := config
  connections := ∅
  watchdog := .new config.watchdogThreshold config.watchdogWindow

/-- What `run` does before its loop: `interval` panics on a zero period. -/
def start (config : CoordinatorConfig) : Option Coordinator :=
  if config.sweepInterval = 0 then none else some (new config)

def containsKey (c : Coordinator) (id : ConnectionId) : Bool := (c.connections.lookup id).isSome

def remove (c : Coordinator) (id : ConnectionId) : Coordinator :=
  { c with connections := c.connections.erase id }

def insert (c : Coordinator) (id : ConnectionId) (state : ConnectionState) :
    Coordinator × List Effect :=
  ({ c with connections := c.connections.insert id state },
    (c.connections.lookup id).toList.map (.displaced id))

def listConnections (c : Coordinator) (env : Env) : List ConnectionInfo :=
  (walk c.connections env.order).map fun e => e.2.info e.1

def resetAll (c : Coordinator) (env : Env) : Coordinator × List Effect :=
  ({ c with connections := ∅ },
    (walk c.connections env.order).flatMap fun e =>
      e.2.notify env TerminateReason.reset.policy.waiter e.1 ++ [.ended e.1 .reset])

def reset (c : Coordinator) (env : Env) : Coordinator × List Effect :=
  let (c, os) := c.resetAll env
  ({ c with watchdog := c.watchdog.recordSuccess }, os ++ [.recordSuccess none])

def removeBranchBounded (id : ConnectionId) (env : Env) : Except SignalError Unit × Effect :=
  let call := env.branch id
  let result : Except SignalError Unit :=
    match call.result with
    | some (.ok ()) => .ok ()
    | some (.error e) => .error (.ofPipelineError e)
    | none => .error (.pipelineBusy "branch teardown timed out")
  (result, .removeBranch id call)

/-- The middle of `terminate`: tell the waiter and detach the branch of an
entry already taken out of the map, in the order its policy row asks for. -/
def teardown (c : Coordinator) (id : ConnectionId) (state : Option ConnectionState)
    (reason : TerminateReason) (env : Env) : Except SignalError Unit × Coordinator × List Effect :=
  let notice := state.toList.flatMap fun s => s.notify env reason.policy.waiter id
  let (detached, call) := removeBranchBounded id env
  match reason.policy.teardown, detached, state with
  | .required, .error e, some s =>
    let (c, os) := c.insert id s
    (.error e, c, call :: os)
  | .required, .error e, none => (.error e, c, [call])
  | .required, .ok (), _ => (.ok (), c, call :: notice ++ [.ended id reason])
  | .bestEffort, _, _ => (.ok (), c, notice ++ [.ended id reason, call])
  | .keep, _, _ => (.ok (), c, notice ++ [.ended id reason])

/-- The end of `terminate`: the failure is recorded when the teardown has
returned, and a trip wipes the map before it asks for the restart. -/
def feedWatchdog (c : Coordinator) (id : ConnectionId) (env : Env) :
    Option (Coordinator × List Effect) := do
  let (tripped, watchdog) ← c.watchdog.recordFailure (env.branch id).returned
  let c := { c with watchdog }
  if tripped then
    let (c, os) := c.resetAll env
    some (c, .recordFailure id true :: os ++ [.requestRestart])
  else
    some (c, [.recordFailure id false])

def terminate (c : Coordinator) (id : ConnectionId) (reason : TerminateReason) (env : Env) :
    Option (Except SignalError Unit × Coordinator × List Effect) :=
  match c.connections.lookup id, reason.policy.onMissing with
  | none, .reject => some (.error (.notFound id), c, [])
  | none, .skip => some (.ok (), c, [])
  | state, _ =>
    match (c.remove id).teardown id state reason env with
    | (.error e, c, os) => some (.error e, c, os)
    | (.ok (), c, os) =>
      if reason.policy.feedsWatchdog then do
        let (c, os') ← c.feedWatchdog id env
        some (.ok (), c, os ++ os')
      else some (.ok (), c, os)

def createConnection (c : Coordinator) (id : ConnectionId) (reply : OfferReply) (env : Env) :
    Option (Coordinator × List Effect) :=
  if c.containsKey id then
    some (c, [reply.send env (.error (.wrongState id))])
  else
    let call := env.branch id
    match call.result with
    | some (.ok ()) => do
      let deadline ← call.returned.checkedAdd c.config.offerTimeout
      let (c, os) := c.insert id (.awaitingOffer reply deadline)
      some (c, .addBranch id call :: os)
    | some (.error e) =>
      some (c, [.addBranch id call, reply.send env (.error (.ofPipelineError e))])
    | none =>
      some (c, [.addBranch id call,
        reply.send env (.error (.pipelineBusy "branch attach/cleanup timed out"))])

def offerReceived (c : Coordinator) (id : ConnectionId) (sdp : SdpOffer) (reply : AnswerReply)
    (env : Env) : Option (Coordinator × List Effect) :=
  match c.connections.lookup id with
  | none => some (c, [reply.send env (.error (.notFound id))])
  | some state =>
    let c := c.remove id
    match state.deliverOffer env sdp with
    | (.ok .delivered, sent) => do
      let deadline ← env.now.checkedAdd c.config.answerTimeout
      let (c, os) := c.insert id (.awaitingAnswer reply deadline)
      some (c, sent ++ os)
    | (.ok .waiterGone, sent) => do
      let (_, c, os) ← c.terminate id .peerGone env
      some (c, sent ++ reply.send env (.error (.gone id)) :: os)
    | (.error other, sent) =>
      let (c, os) := c.insert id other
      some (c, sent ++ os ++ [reply.send env (.error (.wrongState id))])

def answerReceived (c : Coordinator) (id : ConnectionId) (sdp : SdpAnswer) (reply : UnitReply)
    (env : Env) : Option (Coordinator × List Effect) :=
  match c.connections.lookup id with
  | none => some (c, [reply.send env (.error (.notFound id))])
  | some state =>
    let c := c.remove id
    match state.deliverAnswer env sdp with
    | (.ok .established, sent) =>
      let c := { c with watchdog := c.watchdog.recordSuccess }
      let (c, os) := c.insert id (.established env.now)
      some (c, sent ++ .recordSuccess (some id) :: os ++ [reply.send env (.ok ())])
    | (.ok .waiterGone, sent) => do
      let (_, c, os) ← c.terminate id .peerGone env
      some (c, sent ++ reply.send env (.error (.gone id)) :: os)
    | (.error other, sent) =>
      let (c, os) := c.insert id other
      some (c, sent ++ os ++ [reply.send env (.error (.wrongState id))])

def removeConnection (c : Coordinator) (id : ConnectionId) (reply : UnitReply) (env : Env) :
    Option (Coordinator × List Effect) := do
  let (result, c, os) ← c.terminate id .deleted env
  some (c, os ++ [reply.send env result])

def expired (c : Coordinator) (env : Env) : List ConnectionId :=
  ((walk c.connections env.order).filter fun e => e.2.deadline.any (· ≤ env.now)).map Prod.fst

def terminateExpired (env : Env) : List ConnectionId → Coordinator →
    Option (Coordinator × List Effect)
  | [], c => some (c, [])
  | id :: ids, c => do
    let (_, c, os) ← c.terminate id .expired env
    let (c, os') ← terminateExpired env ids c
    some (c, os ++ os')

def sweepExpired (c : Coordinator) (env : Env) : Option (Coordinator × List Effect) :=
  terminateExpired env (c.expired env) c

def reapBranch (c : Coordinator) (id : ConnectionId) (env : Env) :
    Option (Coordinator × List Effect) :=
  if c.containsKey id then do
    let (_, c, os) ← c.terminate id .reaped env
    some (c, os)
  else some (c, [])

def handle (c : Coordinator) (cmd : Command) (env : Env) : Option (Coordinator × List Effect) :=
  match cmd with
  | .createConnection id reply => c.createConnection id reply env
  | .offerReceived id sdp reply => c.offerReceived id sdp reply env
  | .answerReceived id sdp reply => c.answerReceived id sdp reply env
  | .removeConnection id reply => c.removeConnection id reply env
  | .listConnections reply => some (c, [reply.send env (.ok (c.listConnections env))])
  | .reset reply =>
    let (c, os) := c.reset env
    some (c, os ++ [reply.send env (.ok ())])

/-- One turn of the loop; `none` is a panic. -/
def turn (c : Coordinator) : Event → Option (Coordinator × List Effect)
  | .command cmd env => c.handle cmd env
  | .branchFailure branch env => c.reapBranch branch.intoString env
  | .sweepTick env => c.sweepExpired env

/-- What a turn that panics has done before: the entry it was about to insert
gets no deadline. -/
def panicked (c : Coordinator) : Event → Option (List Effect)
  | .command (.createConnection id _) env =>
    let call := env.branch id
    if c.containsKey id = false ∧ call.result = some (.ok ()) ∧
        call.returned.checkedAdd c.config.offerTimeout = none then
      some [.addBranch id call]
    else none
  | .command (.offerReceived id sdp _) env => do
    let state ← c.connections.lookup id
    match state.deliverOffer env sdp with
    | (.ok .delivered, sent) =>
      if env.now.checkedAdd c.config.answerTimeout = none then some sent else none
    | _ => none
  | _ => none

/-- A turn as a labelled step: the event must come with an iteration order
of the map it meets. -/
def Step (c : Coordinator) (l : Event × List Effect) (c' : Coordinator) : Prop :=
  Covers l.1.env.order c.connections ∧ c.turn l.1 = some (c', l.2)

def next (c : Coordinator) (e : Event) : Option (Coordinator × List Effect) :=
  if Covers e.env.order c.connections then c.turn e else none

theorem next_eq_some {c c' : Coordinator} {e : Event} {os : List Effect} :
    c.next e = some (c', os) ↔ c.Step (e, os) c' := by
  by_cases h : Covers e.env.order c.connections <;> simp [next, Step, h]

end Coordinator

end SrtWhep
