import SrtWhep.Messages

namespace SrtWhep

inductive StatusCode
  | ok
  | noContent
  | badRequest
  | notFound
  | conflict
  | gone
  | internalServerError
  | serviceUnavailable
deriving DecidableEq, Repr

def StatusCode.code : StatusCode → Nat
  | ok => 200
  | noContent => 204
  | badRequest => 400
  | notFound => 404
  | conflict => 409
  | gone => 410
  | internalServerError => 500
  | serviceUnavailable => 503

structure HttpResponse where
  status : StatusCode
  headers : List (String × String)
  body : String
deriving DecidableEq, Repr

def SdpError.display : SdpError → String
  | invalidSdp message => s!"Invalid SDP: {message}"

namespace SignalError

def display : SignalError → String
  | invalidSdp message => s!"Invalid SDP: {message}"
  | sdp error => error.display
  | notFound id => s!"Connection {id} not found"
  | gone id => s!"Connection {id} is gone"
  | wrongState id => s!"Connection {id} is in the wrong state for this operation"
  | timeout leg => s!"Timed out waiting for the {leg}"
  | notReady => "Input stream is not ready"
  | pipelineBusy message => s!"Pipeline is busy: {message}"
  | unavailable => "Signaling coordinator is unavailable"
  | pipeline message => s!"Pipeline operation failed: {message}"

/-- The status of a failure, and the `Retry-After` to attach when a retry is
worthwhile. -/
def httpContract : SignalError → StatusCode × Option String
  | invalidSdp _ | sdp _ => (.badRequest, none)
  | notFound _ => (.notFound, none)
  | gone _ => (.gone, none)
  | wrongState _ => (.conflict, none)
  | timeout _ | notReady | pipelineBusy _ => (.serviceUnavailable, some "3")
  | unavailable | pipeline _ => (.internalServerError, none)

def statusCode (e : SignalError) : StatusCode := e.httpContract.1

def errorResponse (e : SignalError) : HttpResponse :=
  let (status, retryAfter) := e.httpContract
  ⟨status, retryAfter.toList.map fun seconds => ("Retry-After", seconds), e.display⟩

theorem statusCode_notFound {e : SignalError} :
    e.statusCode = .notFound ↔ ∃ id, e = .notFound id := by
  cases e <;> simp [statusCode, httpContract]

theorem statusCode_gone {e : SignalError} : e.statusCode = .gone ↔ ∃ id, e = .gone id := by
  cases e <;> simp [statusCode, httpContract]

/-- A failure is worth a retry exactly when its status says so. -/
theorem retryAfter_iff {e : SignalError} :
    (∃ s, ("Retry-After", s) ∈ e.errorResponse.headers) ↔
      e.errorResponse.status = .serviceUnavailable := by
  cases e <;> simp [errorResponse, httpContract]

end SignalError

namespace Routes

/-- What a handle's request resolves to, by what came of its reply: `none` is a
coordinator that is gone, before the command was taken or before it answered. -/
def request {T : Type} (reply : Option (Except SignalError T)) : Except SignalError T :=
  reply.getD (.error .unavailable)

/-- The idempotent DELETE that both routes share. -/
def delete (removed : Except SignalError Unit) : Except SignalError HttpResponse :=
  match removed with
  | .ok () => .ok ⟨.ok, [], ""⟩
  | .error (.notFound _) => .ok ⟨.noContent, [], ""⟩
  | .error e => .error e

/-- A WHEP viewer terminating its playback session. -/
def terminateSession (removeConnection : ConnectionId → Except SignalError Unit)
    (path : ConnectionId) : Except SignalError HttpResponse :=
  delete (removeConnection path)

def removeWhipSink (removeConnection : ConnectionId → Except SignalError Unit)
    (path : ConnectionId) : Except SignalError HttpResponse :=
  delete (removeConnection path)

def respond : Except SignalError HttpResponse → HttpResponse
  | .ok response => response
  | .error e => e.errorResponse

theorem delete_ok {r : Except SignalError Unit} :
    (respond (delete r)).status = .ok ↔ r = .ok () := by
  obtain e | u := r
  · cases e <;> simp [delete, respond, SignalError.errorResponse, SignalError.httpContract]
  · simp [delete, respond]

theorem delete_noContent {r : Except SignalError Unit} :
    (respond (delete r)).status = .noContent ↔ ∃ id, r = .error (.notFound id) := by
  obtain e | u := r
  · cases e <;> simp [delete, respond, SignalError.errorResponse, SignalError.httpContract]
  · simp [delete, respond]

end Routes

end SrtWhep
