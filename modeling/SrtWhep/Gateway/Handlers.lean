import SrtWhep.Routes

namespace SrtWhep

structure Response where
  code : Nat
  headers : List (String × String)
  body : String
deriving DecidableEq, Repr

def HttpResponse.wire (r : HttpResponse) : Response := ⟨r.status.code, r.headers, r.body⟩

def respond : Except SignalError Response → Response
  | .ok response => response
  | .error e => e.errorResponse.wire

/-- The limit of the `String` extractor, which no route changes. -/
def payloadLimit : Nat := 262144

/-- The body of a request: whether its charset is known, its bytes, their text
if they decode, and what the extractor says of a body it does not take. -/
structure Body where
  charset : Bool
  size : Nat
  text : Option String
  complaint : String
deriving DecidableEq, Repr

namespace Body

def refusal (body : Body) (code : Nat) : Response :=
  ⟨code, [("content-type", "text/plain; charset=utf-8")], body.complaint⟩

def extract (body : Body) : Except Response String :=
  if !body.charset then .error (body.refusal 400)
  else if payloadLimit < body.size then .error (body.refusal 413)
  else
    match body.text with
    | some form => .ok form
    | none => .error (body.refusal 400)

end Body

/-- What a handler does with a request: it refuses it, or sends the coordinator
a command, given the channel for the reply, and goes on with what comes of it. -/
inductive Handler
  | refuse (response : Response)
  | request (make : Nat → Command)
      (resume : Option (Except SignalError Payload) → Except SignalError Response)

def Handler.fail (e : SignalError) : Handler := .refuse (respond (.error e))

namespace SignalHandle

/-- Each method takes what its caller goes on with. A reply of another type
cannot come in on a command's channel. -/
def createConnection (id : ConnectionId) (resume : SdpOffer → Response) : Handler :=
  .request (fun ch => .createConnection id ⟨ch⟩) fun reply =>
    match Routes.request reply with
    | .ok (.offer sdp) => .ok (resume sdp)
    | .ok _ => .error .unavailable
    | .error e => .error e

def offerReceived (id : ConnectionId) (sdp : SdpOffer) (resume : SdpAnswer → Response) : Handler :=
  .request (fun ch => .offerReceived id sdp ⟨ch⟩) fun reply =>
    match Routes.request reply with
    | .ok (.answer sdp) => .ok (resume sdp)
    | .ok _ => .error .unavailable
    | .error e => .error e

def answerReceived (id : ConnectionId) (sdp : SdpAnswer) (resume : Response) : Handler :=
  .request (fun ch => .answerReceived id sdp ⟨ch⟩) fun reply =>
    match Routes.request reply with
    | .ok .unit => .ok resume
    | .ok _ => .error .unavailable
    | .error e => .error e

def removeConnection (id : ConnectionId)
    (resume : Except SignalError Unit → Except SignalError HttpResponse) : Handler :=
  .request (fun ch => .removeConnection id ⟨ch⟩) fun reply =>
    match Routes.request reply with
    | .ok .unit => (resume (.ok ())).map HttpResponse.wire
    | .ok _ => .error .unavailable
    | .error e => (resume (.error e)).map HttpResponse.wire

def listConnections (resume : List ConnectionInfo → Response) : Handler :=
  .request (fun ch => .listConnections ⟨ch⟩) fun reply =>
    match Routes.request reply with
    | .ok (.snapshot connections) => .ok (resume connections)
    | .ok _ => .error .unavailable
    | .error e => .error e

end SignalHandle

namespace Routes

def escape (c : Char) : List Char :=
  if c = '"' then ['\\', '"']
  else if c = '\\' then ['\\', '\\']
  else if c = '\x08' then ['\\', 'b']
  else if c = '\t' then ['\\', 't']
  else if c = '\n' then ['\\', 'n']
  else if c = '\x0c' then ['\\', 'f']
  else if c = '\r' then ['\\', 'r']
  else if c.toNat < 0x20 then
    ['\\', 'u', '0', '0', Nat.digitChar (c.toNat / 16), Nat.digitChar (c.toNat % 16)]
  else [c]

def jsonString (s : String) : String := "\"" ++ .ofList (s.toList.flatMap escape) ++ "\""

def jsonInfo (info : ConnectionInfo) : String :=
  "\x7b\"id\":" ++ jsonString info.id ++ ",\"state\":" ++ jsonString info.state ++ "\x7d"

def json (connections : List ConnectionInfo) : String :=
  "[" ++ ",".intercalate (connections.map jsonInfo) ++ "]"

/-- `str::replace` with a pattern that is not empty: how many characters of a
match are still to be skipped, and the rest of the string. -/
def replaceFrom (pattern new : List Char) : Nat → List Char → List Char
  | _, [] => []
  | skip + 1, _ :: cs => replaceFrom pattern new skip cs
  | 0, c :: cs =>
    if pattern <+: c :: cs then new ++ replaceFrom pattern new (pattern.length - 1) cs
    else c :: replaceFrom pattern new 0 cs

def whipSinkRoute : String := "/whip_sink/\x7bid\x7d"

/-- Path of one connection's WHIP resource. -/
def whipSinkPath (id : ConnectionId) : String :=
  .ofList (replaceFrom "\x7bid\x7d".toList id.toList 0 whipSinkRoute.toList)

def created (location : String) (body : String) : Response :=
  ⟨201, [("Location", location), ("content-type", "application/sdp")], body⟩

def list : Handler :=
  SignalHandle.listConnections fun connections =>
    ⟨200, [("content-type", "application/json")], json connections⟩

/-- A WHEP viewer's POST; the id is the one drawn for it. -/
def whepHandler (form : String) (id : ConnectionId) : Handler :=
  if form ≠ "" then
    .fail (.invalidSdp "Empty body expected. Client initialization not supported.")
  else SignalHandle.createConnection id fun offer => created ("/channel/" ++ id) offer.sdp.text

def whepPatchHandler (form : String) (path : ConnectionId) : Handler :=
  match SdpAnswer.parse form with
  | .error e => .fail (.sdp e)
  | .ok sdp => SignalHandle.answerReceived path sdp ⟨204, [], ""⟩

def whipHandler (form : String) (path : ConnectionId) : Handler :=
  match SdpOffer.parse form with
  | .error e => .fail (.sdp e)
  | .ok sdp =>
    SignalHandle.offerReceived path sdp fun answer => created (whipSinkPath path) answer.sdp.text

end Routes

/-- The requests the routes answer through the coordinator, with the id drawn
for a new viewer. -/
inductive Request
  | list
  | whep (body : Body) (id : ConnectionId)
  | whepPatch (path : ConnectionId) (body : Body)
  | terminateSession (path : ConnectionId)
  | whip (path : ConnectionId) (body : Body)
  | removeWhipSink (path : ConnectionId)
deriving DecidableEq, Repr

def Body.handled (body : Body) (handler : String → Handler) : Handler :=
  match body.extract with
  | .ok form => handler form
  | .error response => .refuse response

def Request.handler : Request → Handler
  | list => Routes.list
  | whep body id => body.handled fun form => Routes.whepHandler form id
  | whepPatch path body => body.handled fun form => Routes.whepPatchHandler form path
  | terminateSession path =>
    SignalHandle.removeConnection path fun removed =>
      Routes.terminateSession (fun _ => removed) path
  | whip path body => body.handled fun form => Routes.whipHandler form path
  | removeWhipSink path =>
    SignalHandle.removeConnection path fun removed => Routes.removeWhipSink (fun _ => removed) path

end SrtWhep
