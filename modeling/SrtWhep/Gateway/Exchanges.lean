import SrtWhep.Gateway.Handlers
import SrtWhep.Gateway.Histories
import SrtWhep.Service.Steps

namespace SrtWhep.Gateway

open Library.Runs Moves Waiters

/-- How far a request has come: it waits for a slot in the mailbox or for its
reply, the reply is there, its handler has gone on with it or has refused the
request, or whoever made it has gone away, with or without a reply that is not
read. Instead of a reply there may be a coordinator that is gone. -/
inductive Stage
  | sending (cmd : Command)
  | waiting (cmd : Command)
  | replied (reply : Option (Except SignalError Payload))
  | finished (reply : Option (Except SignalError Payload))
  | refused (response : Response)
  | unread (reply : Option (Except SignalError Payload))
  | dropped

structure Exchange where
  request : Option Request
  stage : Stage

/-- The service with the requests made so far. A request's reply comes in on
the channel that has its number. -/
structure System where
  service : Service
  exchanges : List Exchange

/-- What happens next: something in the service that is about no request, a
client's request, its command getting a slot in the mailbox, its handler waking
up to the reply, its client going away, the supervisor's reset, or the end of a
turn of the coordinator. -/
inductive Input
  | service (i : Service.Input)
  | arrive (r : Request)
  | send (n : Nat)
  | wake (n : Nat)
  | disconnect (n : Nat)
  | postReset
  | finish (env : Env)
  | panic (env : Env)

def internal : Service.Input → Bool
  | .request _ | .postReset _ | .finish _ | .panic _ => false
  | _ => true

namespace Stage

def isWaiting : Stage → Bool
  | waiting _ => true
  | _ => false

/-- What the client of a request leaves behind that has got no response. -/
def left : Stage → Option Stage
  | sending _ | waiting _ => some dropped
  | replied reply => some (unread reply)
  | _ => none

def outcome : Stage → Option (Option (Except SignalError Payload))
  | replied reply | finished reply | unread reply => some reply
  | _ => none

def Sent (cmd : Command) : Stage → Prop
  | waiting cmd' => cmd' = cmd
  | replied _ | finished _ | unread _ | dropped => True
  | _ => False

end Stage

def opened (n : Nat) : Handler → Stage
  | .refuse response => .refused response
  | .request make _ => .sending (make n)

def replyOn (n : Nat) : Effect → Option (Except SignalError Payload)
  | .send ch reply _ => if ch = n then some reply else none
  | _ => none

/-- What a turn's effects are to a request. The reply channels of those that
hear nothing are closed with the coordinator. -/
def Exchange.hear (e : Exchange) (n : Nat) (os : List Effect) (alive : Bool) : Exchange :=
  match e.stage, os.findSome? (replyOn n) with
  | .waiting _, some reply => { e with stage := .replied (some reply) }
  | .waiting _, none => if alive then e else { e with stage := .replied none }
  | _, _ => e

namespace System

def start (config : CoordinatorConfig) : System := ⟨.start config, []⟩

def isWaiting (s : System) (n : Nat) : Bool := s.exchanges[n]?.any (·.stage.isWaiting)

def turn (s : System) (i : Service.Input) (env : Env) : Option (System × List Effect) :=
  if ∀ n < s.exchanges.length, env.listening n = s.isWaiting n then
    (s.service.next i).map fun t =>
      (⟨t.1, s.exchanges.mapIdx fun n e => e.hear n t.2 t.1.alive⟩, t.2)
  else none

def next (s : System) : Input → Option (System × List Effect)
  | .service i =>
    if internal i then (s.service.next i).map fun t => ({ s with service := t.1 }, []) else none
  | .arrive r =>
    some ({ s with
      exchanges := s.exchanges ++ [⟨some r, opened s.exchanges.length r.handler⟩] }, [])
  | .send n => do
    match ← s.exchanges[n]? with
    | ⟨r, .sending cmd⟩ =>
      if s.service.alive then
        (s.service.next (.request cmd)).map fun t =>
          (⟨t.1, s.exchanges.set n ⟨r, .waiting cmd⟩⟩, [])
      else some ({ s with exchanges := s.exchanges.set n ⟨r, .finished none⟩ }, [])
    | _ => none
  | .wake n => do
    match ← s.exchanges[n]? with
    | ⟨r, .replied reply⟩ =>
      some ({ s with exchanges := s.exchanges.set n ⟨r, .finished reply⟩ }, [])
    | _ => none
  | .disconnect n => do
    let e ← s.exchanges[n]?
    let stage ← e.stage.left
    some ({ s with exchanges := s.exchanges.set n { e with stage } }, [])
  | .postReset =>
    let cmd : Command := .reset ⟨s.exchanges.length⟩
    (s.service.next (.postReset ⟨s.exchanges.length⟩)).map fun t =>
      (⟨t.1, s.exchanges ++ [⟨none, .waiting cmd⟩]⟩, [])
  | .finish env => s.turn (.finish env) env
  | .panic env => s.turn (.panic env) env

def Step (s : System) (l : Input × List Effect) (s' : System) : Prop :=
  s.next l.1 = some (s', l.2)

end System

def Exchange.response (e : Exchange) : Option Response :=
  match e.request, e.stage with
  | some r, .finished reply =>
    match r.handler with
    | .request _ resume => some (respond (resume reply))
    | .refuse _ => none
  | some _, .refused response => some response
  | _, _ => none

def Makes : Option Request → Command → Prop
  | none, cmd => ∃ reply, cmd = .reset reply
  | some r, cmd => ∃ make resume, r.handler = .request make resume ∧ make cmd.channel = cmd

inductive Made : Option Request → Command → Prop
  | list {reply} : Made (some .list) (.listConnections reply)
  | whep {body id reply} : Made (some (.whep body id)) (.createConnection id reply)
  | whepPatch {path body sdp reply} : body.extract = .ok sdp.sdp.text →
      Made (some (.whepPatch path body)) (.answerReceived path sdp reply)
  | terminateSession {path reply} :
      Made (some (.terminateSession path)) (.removeConnection path reply)
  | whip {path body sdp reply} : body.extract = .ok sdp.sdp.text →
      Made (some (.whip path body)) (.offerReceived path sdp reply)
  | removeWhipSink {path reply} : Made (some (.removeWhipSink path)) (.removeConnection path reply)
  | reset {reply} : Made none (.reset reply)

/-- A request answered by an error of its own: a DELETE takes `NotFound` for
done. -/
def failed (r : Request) (err : SignalError) : Response :=
  match r, err with
  | .terminateSession _, .notFound _ | .removeWhipSink _, .notFound _ => ⟨204, [], ""⟩
  | _, err => err.errorResponse.wire

def succeeded (r : Request) (p : Payload) : Response :=
  match r, p with
  | .list, .snapshot connections =>
    ⟨200, [("content-type", "application/json")], Routes.json connections⟩
  | .whep _ id, .offer o => Routes.created ("/channel/" ++ id) o.sdp.text
  | .whepPatch _ _, .unit => ⟨204, [], ""⟩
  | .whip id _, .answer a => Routes.created (Routes.whipSinkPath id) a.sdp.text
  | .terminateSession _, .unit | .removeWhipSink _, .unit => ⟨200, [], ""⟩
  | _, _ => SignalError.unavailable.errorResponse.wire

section Requests

variable {r : Request} {n : Nat} {cmd : Command} {make : Nat → Command}
  {resume : Option (Except SignalError Payload) → Except SignalError Response} {body : Body}
  {handler : String → Handler}

theorem handled_request (h : body.handled handler = .request make resume) :
    ∃ form, body.extract = .ok form ∧ handler form = .request make resume := by
  unfold Body.handled at h
  split at h
  · exact ⟨_, ‹_›, h⟩
  · cases h

/-- What a handler sends, and what it makes of the reply, by the kind of its request. -/
structure Sends (r : Request) (make : Nat → Command)
    (resume : Option (Except SignalError Payload) → Except SignalError Response) : Prop where
  channel : ∀ n, (make n).channel = n
  made : ∀ n, Made (some r) (make n)
  unavailable : resume none = .error .unavailable
  failed : ∀ err, respond (resume (some (.error err))) = failed r err
  succeeded : ∀ p, respond (resume (some (.ok p))) = succeeded r p

theorem handler_sends (h : r.handler = .request make resume) : Sends r make resume := by
  cases r with
  | list =>
    cases h
    exact ⟨fun _ => rfl, fun _ => .list, rfl, fun _ => rfl, fun p => by cases p <;> rfl⟩
  | whep body id =>
    obtain ⟨form, -, h⟩ := handled_request h
    simp only [Routes.whepHandler] at h
    split at h
    · cases h
    · cases h
      exact ⟨fun _ => rfl, fun _ => .whep, rfl, fun _ => rfl, fun p => by cases p <;> rfl⟩
  | whepPatch path body =>
    obtain ⟨form, hb, h⟩ := handled_request h
    simp only [Routes.whepPatchHandler] at h
    split at h
    · cases h
    · rename_i sdp hs
      have hform : body.extract = .ok sdp.sdp.text := SdpAnswer.parse_eq_ok.mp hs ▸ hb
      cases h
      exact ⟨fun _ => rfl, fun _ => .whepPatch hform, rfl, fun _ => rfl,
        fun p => by cases p <;> rfl⟩
  | terminateSession path =>
    cases h
    exact ⟨fun _ => rfl, fun _ => .terminateSession, rfl, fun err => by cases err <;> rfl,
      fun p => by cases p <;> rfl⟩
  | whip path body =>
    obtain ⟨form, hb, h⟩ := handled_request h
    simp only [Routes.whipHandler] at h
    split at h
    · cases h
    · rename_i sdp hs
      have hform : body.extract = .ok sdp.sdp.text := SdpOffer.parse_eq_ok.mp hs ▸ hb
      cases h
      exact ⟨fun _ => rfl, fun _ => .whip hform, rfl, fun _ => rfl, fun p => by cases p <;> rfl⟩
  | removeWhipSink path =>
    cases h
    exact ⟨fun _ => rfl, fun _ => .removeWhipSink, rfl, fun err => by cases err <;> rfl,
      fun p => by cases p <;> rfl⟩

theorem makes_made {q : Option Request} (h : Makes q cmd) : Made q cmd := by
  cases q with
  | none =>
    obtain ⟨reply, rfl⟩ := h
    exact .reset
  | some r =>
    obtain ⟨make, resume, hh, hc⟩ := h
    rw [← hc]
    exact (handler_sends hh).made _

theorem makes_opened (h : opened n r.handler = .sending cmd) :
    cmd.channel = n ∧ Makes (some r) cmd := by
  cases hr : r.handler with
  | refuse e =>
    rw [hr] at h
    cases h
  | request make resume =>
    rw [hr] at h
    cases h
    have hch := (handler_sends hr).channel n
    exact ⟨hch, make, resume, hr, by rw [hch]⟩

end Requests

inductive Fits (v : Service) (cs : List Command) (os : List Effect) (n : Nat) (q : Option Request) :
    Stage → Prop
  | sending {cmd : Command} : cmd.channel = n → Makes q cmd → Fits v cs os n q (.sending cmd)
  | waiting {cmd : Command} : cmd.channel = n → cmd ∈ cs ++ v.pending → sends os n = 0 →
      v.alive = true → Fits v cs os n q (.waiting cmd)
  | answered {stage : Stage} {reply : Except SignalError Payload} :
      stage.outcome = some (some reply) → .send n reply true ∈ os → Fits v cs os n q stage
  | unavailable {stage : Stage} : stage.outcome = some none → v.alive = false → sends os n = 0 →
      Fits v cs os n q stage
  | refused {r : Request} {response : Response} : q = some r → r.handler = .refuse response →
      Fits v cs os n q (.refused response)
  | dropped : Fits v cs os n q .dropped

/-- The requests and the turns of the coordinator so far agree: each command
taken or pending was made by one request, which is waiting until the reply is
sent to it, and has that reply then. -/
structure Linked (config : CoordinatorConfig) (s : System) (cs : List Command)
    (os : List Effect) : Prop where
  history : History config s.service.coordinator s.service.alive cs os
  idle : s.service.alive = false → s.service.job = none
  nodup : ((cs ++ s.service.pending).map Command.channel).Nodup
  known : ∀ cmd ∈ cs ++ s.service.pending,
    ∃ e, s.exchanges[cmd.channel]? = some e ∧ e.stage.Sent cmd ∧ Makes e.request cmd
  fits : ∀ n e, s.exchanges[n]? = some e → Fits s.service cs os n e.request e.stage
  sent : ∀ n reply, .send n reply true ∈ os →
    ∃ e, s.exchanges[n]? = some e ∧ e.stage.outcome = some (some reply)

section Steps

variable {config : CoordinatorConfig} {s s' : System} {cs : List Command} {os : List Effect}
  {n : Nat} {cmd : Command} {e x : Exchange} {t v : Service} {q : Option Request} {stage : Stage}

theorem linked_start (config : CoordinatorConfig) : Linked config (.start config) [] [] := by
  refine ⟨.running (.nil _), fun _ => rfl, List.nodup_nil, ?_, ?_, ?_⟩
  · intro cmd h
    cases h
  · intro n e h
    cases h
  · intro n reply h
    cases h

theorem Fits.mono (h : Fits v cs os n q stage) (ha : t.alive = v.alive)
    (hp : ∀ cmd ∈ cs ++ v.pending, cmd ∈ cs ++ t.pending) : Fits t cs os n q stage := by
  cases h with
  | sending hch hm => exact .sending hch hm
  | waiting hch hm h0 hv => exact .waiting hch (hp _ hm) h0 (ha.trans hv)
  | answered hs ho => exact .answered hs ho
  | unavailable hs hv h0 => exact .unavailable hs (ha.trans hv) h0
  | refused hq hh => exact .refused hq hh
  | dropped => exact .dropped

theorem Linked.keep (h : Linked config s cs os) (hc : t.coordinator = s.service.coordinator)
    (ha : t.alive = s.service.alive)
    (hi : s.service.alive = false → s.service.job = none → t.job = none)
    (hp : t.pending = s.service.pending) : Linked config { s with service := t } cs os := by
  refine ⟨?_, ?_, ?_, ?_, ?_, h.sent⟩
  · change History config t.coordinator t.alive cs os
    rw [hc, ha]
    exact h.history
  · intro hd
    rw [ha] at hd
    exact hi hd (h.idle hd)
  · change ((cs ++ t.pending).map _).Nodup
    rw [hp]
    exact h.nodup
  · intro cmd hm
    exact h.known cmd (hp ▸ hm)
  · intro n e he
    exact (h.fits n e he).mono ha fun cmd hm => hp.symm ▸ hm

theorem getElem?_concat {x : Exchange} (h : (s.exchanges ++ [x])[n]? = some e) :
    s.exchanges[n]? = some e ∨ n = s.exchanges.length ∧ e = x := by
  rw [List.getElem?_append] at h
  split at h
  · exact .inl h
  · rename_i hlt
    rw [List.getElem?_singleton] at h
    split at h
    · exact .inr ⟨by omega, (Option.some.inj h).symm⟩
    · cases h

theorem getElem?_set {m : Nat} {x : Exchange} (h : (s.exchanges.set n x)[m]? = some e) :
    n = m ∧ e = x ∨ n ≠ m ∧ s.exchanges[m]? = some e := by
  rw [List.getElem?_set] at h
  split at h
  · rename_i hm
    obtain ⟨-, h⟩ := Option.ite_none_right_eq_some.mp h
    exact .inl ⟨hm, (Option.some.inj h).symm⟩
  · rename_i hm
    exact .inr ⟨hm, h⟩

theorem Linked.append (h : Linked config s cs os)
    (hx : Fits s.service cs os s.exchanges.length x.request x.stage) :
    Linked config { s with exchanges := s.exchanges ++ [x] } cs os := by
  have hold : ∀ {n : Nat} {e : Exchange}, s.exchanges[n]? = some e →
      (s.exchanges ++ [x])[n]? = some e := by
    intro n e he
    rw [List.getElem?_append_left (List.getElem?_eq_some_iff.mp he).1, he]
  refine ⟨h.history, h.idle, h.nodup, ?_, ?_, ?_⟩
  · intro cmd hm
    obtain ⟨e, he, hs⟩ := h.known cmd hm
    exact ⟨e, hold he, hs⟩
  · intro n e he
    obtain he | ⟨rfl, rfl⟩ := getElem?_concat he
    · exact h.fits n e he
    · exact hx
  · intro n reply ho
    obtain ⟨e, he, hs⟩ := h.sent n reply ho
    exact ⟨e, hold he, hs⟩

theorem Linked.unsent (h : Linked config s cs os) (he : s.exchanges[n]? = some e)
    (hs : e.stage = .sending cmd) : ∀ cmd' ∈ cs ++ s.service.pending, cmd'.channel ≠ n := by
  rintro cmd' hm rfl
  obtain ⟨e', he', hsent, -⟩ := h.known cmd' hm
  cases he.symm.trans he'
  rw [hs] at hsent
  exact hsent

theorem Linked.silent (h : Linked config s cs os) (he : s.exchanges[n]? = some e)
    (hs : e.stage = .sending cmd) : sends os n = 0 :=
  h.history.silent fun cmd' hm => h.unsent he hs cmd' (List.mem_append_left _ hm)

theorem Linked.advance (h : Linked config s cs os) (he : s.exchanges[n]? = some e)
    (hx : Fits s.service cs os n e.request stage) (hsent : ∀ cmd, e.stage.Sent cmd → stage.Sent cmd)
    (hkeep : ∀ reply, e.stage.outcome = some (some reply) → stage.outcome = some (some reply)) :
    Linked config { s with exchanges := s.exchanges.set n { e with stage } } cs os := by
  have hself := List.getElem?_set_self (a := ({ e with stage } : Exchange))
    (List.getElem?_eq_some_iff.mp he).1
  refine ⟨h.history, h.idle, h.nodup, ?_, ?_, ?_⟩
  · intro cmd hm
    obtain ⟨e', he', hs, hmakes⟩ := h.known cmd hm
    by_cases hn : n = cmd.channel
    · subst hn
      cases he.symm.trans he'
      exact ⟨_, hself, hsent cmd hs, hmakes⟩
    · exact ⟨e', by rw [List.getElem?_set_ne hn, he'], hs, hmakes⟩
  · intro m e' he'
    obtain ⟨rfl, rfl⟩ | ⟨-, he'⟩ := getElem?_set he'
    · exact hx
    · exact h.fits m e' he'
  · intro m reply ho
    obtain ⟨e', he', hs⟩ := h.sent m reply ho
    by_cases hn : n = m
    · subst hn
      cases he.symm.trans he'
      exact ⟨_, hself, hkeep reply hs⟩
    · exact ⟨e', by rw [List.getElem?_set_ne hn, he'], hs⟩

theorem Linked.send (h : Linked config s cs os) (he : s.exchanges[n]? = some e)
    (hs : e.stage = .sending cmd) (hc : t.coordinator = s.service.coordinator)
    (ha : s.service.alive = true) (ht : t.alive = s.service.alive)
    (hp : t.pending = s.service.pending ++ [cmd]) :
    Linked config ⟨t, s.exchanges.set n { e with stage := .waiting cmd }⟩ cs os := by
  have hfits := h.fits n e he
  rw [hs] at hfits
  have hnew := h.unsent he hs
  have h0 := h.silent he hs
  have hlist : cs ++ t.pending = (cs ++ s.service.pending) ++ [cmd] := by
    rw [hp, List.append_assoc]
  obtain ⟨hch, hmakes⟩ : cmd.channel = n ∧ Makes e.request cmd := by
    cases hfits with
    | sending hch hm => exact ⟨hch, hm⟩
    | answered hs' => cases hs'
    | unavailable hs' => cases hs'
  refine ⟨?_, ?_, ?_, ?_, ?_, ?_⟩
  · change History config t.coordinator t.alive cs os
    rw [hc, ht]
    exact h.history
  · intro hd
    cases (ht.trans ha).symm.trans hd
  · change ((cs ++ t.pending).map Command.channel).Nodup
    rw [hlist, List.map_append, List.nodup_append]
    refine ⟨h.nodup, by simp, ?_⟩
    intro ch hm ch' hm'
    obtain ⟨cmd', hin, rfl⟩ := List.mem_map.mp hm
    obtain rfl : ch' = n := by simpa [hch] using hm'
    exact hnew cmd' hin
  · intro cmd' hm
    change cmd' ∈ cs ++ t.pending at hm
    rw [hlist] at hm
    obtain hm | hm := List.mem_append.mp hm
    · obtain ⟨e', he', hsent⟩ := h.known cmd' hm
      exact ⟨e', by rw [List.getElem?_set_ne (hnew cmd' hm).symm, he'], hsent⟩
    · obtain rfl := List.mem_singleton.mp hm
      subst hch
      exact ⟨_, List.getElem?_set_self (List.getElem?_eq_some_iff.mp he).1, rfl, hmakes⟩
  · intro m e' he'
    obtain ⟨rfl, rfl⟩ | ⟨-, he'⟩ := getElem?_set he'
    · refine .waiting hch ?_ h0 (ht.trans ha)
      rw [hlist]
      exact List.mem_append_right _ (List.mem_singleton_self _)
    · refine (h.fits m e' he').mono ht fun cmd' hm => ?_
      rw [hlist]
      exact List.mem_append_left _ hm
  · intro m reply ho
    obtain ⟨e', he', hs'⟩ := h.sent m reply ho
    have hm : n ≠ m := by
      rintro rfl
      cases he.symm.trans he'
      rw [hs] at hs'
      cases hs'
    exact ⟨e', by rw [List.getElem?_set_ne hm, he'], hs'⟩

end Steps

section Replies

variable {n : Nat} {os : List Effect} {e : Exchange} {reply : Except SignalError Payload} {b : Bool}

theorem replies_length : (os.filterMap (replyOn n)).length = sends os n := by
  induction os with
  | nil => rfl
  | cons o os ih =>
    cases o with
    | send ch r b =>
      by_cases h : ch = n
      · subst h
        simpa [replyOn, sends, List.filterMap_cons] using ih
      · simpa [replyOn, sends, List.filterMap_cons, h] using ih
    | _ => simpa [replyOn, sends, List.filterMap_cons] using ih

theorem unheard (h : os.findSome? (replyOn n) = none) : sends os n = 0 := by
  rw [← replies_length, List.length_eq_zero_iff, ← List.head?_eq_none_iff, List.head?_filterMap]
  exact h

theorem heard_some (h : os.findSome? (replyOn n) = some reply) : ∃ b, .send n reply b ∈ os := by
  obtain ⟨o, ho, hr⟩ := List.exists_of_findSome?_eq_some h
  cases o with
  | send ch r b =>
    obtain ⟨rfl, he⟩ := Option.ite_none_right_eq_some.mp hr
    exact ⟨b, Option.some.inj he ▸ ho⟩
  | _ => cases hr

theorem heard_once (h : sends os n ≤ 1) (ho : .send n reply b ∈ os) :
    os.findSome? (replyOn n) = some reply := by
  have hm : reply ∈ os.filterMap (replyOn n) := List.mem_filterMap.mpr ⟨_, ho, if_pos rfl⟩
  rw [← replies_length] at h
  rw [← List.head?_filterMap]
  match hl : os.filterMap (replyOn n) with
  | [] => simp [hl] at hm
  | [r] =>
    rw [hl] at hm
    rw [List.mem_singleton.mp hm]
    rfl
  | r :: r' :: rs => simp [hl] at h

theorem hear_other (alive : Bool) (h : e.stage.isWaiting = false) : e.hear n os alive = e := by
  obtain ⟨q, stage⟩ := e
  cases stage with
  | waiting cmd => cases h
  | _ => rfl

theorem hear_request (alive : Bool) : (e.hear n os alive).request = e.request := by
  unfold Exchange.hear
  split
  · rfl
  · split <;> rfl
  · rfl

theorem hear_reply {cmd : Command} (alive : Bool) (hs : e.stage = .waiting cmd)
    (hf : os.findSome? (replyOn n) = some reply) :
    (e.hear n os alive).stage = .replied (some reply) := by
  simp only [Exchange.hear, hs, hf]

theorem hear_nothing {cmd : Command} (alive : Bool) (hs : e.stage = .waiting cmd)
    (hf : os.findSome? (replyOn n) = none) :
    (e.hear n os alive).stage = if alive then .waiting cmd else .replied none := by
  cases alive <;> simp [Exchange.hear, hs, hf]

theorem hear_sent {cmd : Command} (alive : Bool) (h : e.stage.Sent cmd) :
    (e.hear n os alive).stage.Sent cmd := by
  cases hw : e.stage.isWaiting with
  | false => rwa [hear_other alive hw]
  | true =>
    cases hs : e.stage with
    | waiting cmd' =>
      rw [hs] at h
      cases hf : os.findSome? (replyOn n) with
      | some reply =>
        rw [hear_reply alive hs hf]
        trivial
      | none =>
        rw [hear_nothing alive hs hf]
        cases alive with
        | true => exact h
        | false => trivial
    | _ =>
      rw [hs] at hw
      cases hw

end Replies

section Turns

variable {config : CoordinatorConfig} {s : System} {cs cmds : List Command} {os outs : List Effect}
  {env : Env} {t : Service} {q : Option Request} {stage : Stage} {n : Nat} {e : Exchange}

/-- What a turn makes of a request: it is sent its one result, waits on, or is
left behind by a coordinator that is gone. -/
theorem Fits.hear (h : Fits s.service cs os n e.request e.stage)
    (ha : s.service.alive = true)
    (hb : ∀ r b, .send n r b ∈ outs → b = e.stage.isWaiting)
    (hp : t.alive = true → ∀ cmd ∈ cs ++ s.service.pending, cmd ∈ cs ++ cmds ++ t.pending) :
    Fits t (cs ++ cmds) (os ++ outs) n (e.hear n outs t.alive).request
      (e.hear n outs t.alive).stage := by
  rw [hear_request]
  cases hw : e.stage.isWaiting with
  | false =>
    rw [hear_other t.alive hw]
    generalize e.stage = stage at h hw
    cases h with
    | sending hch hm => exact .sending hch hm
    | waiting => cases hw
    | answered hs ho => exact .answered hs (List.mem_append_left _ ho)
    | unavailable hs hd h0 => cases ha.symm.trans hd
    | refused hq hh => exact .refused hq hh
    | dropped => exact .dropped
  | true =>
    cases hs : e.stage with
    | waiting cmd =>
      rw [hs] at h
      cases hf : outs.findSome? (replyOn n) with
      | some reply =>
        rw [hear_reply t.alive hs hf]
        obtain ⟨b, ho⟩ := heard_some hf
        obtain rfl := (hb reply b ho).trans hw
        exact .answered rfl (List.mem_append_right _ ho)
      | none =>
        rw [hear_nothing t.alive hs hf]
        cases h with
        | waiting hch hm h0 _ =>
          have hzero : sends (os ++ outs) n = 0 := by rw [sends_append, h0, unheard hf]
          cases hl : t.alive with
          | true => exact .waiting hch (hp hl _ hm) hzero hl
          | false => exact .unavailable rfl hl hzero
        | answered hs' => cases hs'
        | unavailable hs' => cases hs'
    | _ =>
      rw [hs] at hw
      cases hw

theorem Linked.turn (h : Linked config s cs os) (ha : s.service.alive = true)
    (hh : History config t.coordinator t.alive (cs ++ cmds) (os ++ outs))
    (hsub : List.Sublist (cs ++ cmds ++ t.pending) (cs ++ s.service.pending))
    (hin : t.alive = true → ∀ cmd ∈ cs ++ s.service.pending, cmd ∈ cs ++ cmds ++ t.pending)
    (hidle : t.alive = false → t.job = none) (hheard : Receivers.Heard env outs)
    (hl : ∀ n < s.exchanges.length, env.listening n = s.isWaiting n) :
    Linked config ⟨t, s.exchanges.mapIdx fun n e => e.hear n outs t.alive⟩ (cs ++ cmds)
      (os ++ outs) := by
  have hnodup : ((cs ++ cmds ++ t.pending).map Command.channel).Nodup :=
    (hsub.map Command.channel).nodup h.nodup
  have honce : ∀ n, sends outs n ≤ 1 := by
    intro n
    have hn := hnodup
    rw [List.map_append] at hn
    have hle := hh.sends_once (List.nodup_append.mp hn).1 n
    rw [sends_append] at hle
    exact (Nat.le_add_left _ _).trans hle
  have hbool : ∀ {n : Nat} {e : Exchange}, s.exchanges[n]? = some e → ∀ r b,
      .send n r b ∈ outs → b = e.stage.isWaiting := by
    intro n e he r b ho
    rw [hheard n r b ho, hl n (List.getElem?_eq_some_iff.mp he).1, System.isWaiting, he]
    rfl
  have hget : ∀ {n : Nat} {e : Exchange}, s.exchanges[n]? = some e →
      (s.exchanges.mapIdx fun n e => e.hear n outs t.alive)[n]? = some (e.hear n outs t.alive) := by
    intro n e he
    rw [List.getElem?_mapIdx, he]
    rfl
  refine ⟨hh, hidle, hnodup, ?_, ?_, ?_⟩
  · intro cmd hm
    obtain ⟨e, he, hsent, hmakes⟩ := h.known cmd (hsub.subset hm)
    exact ⟨_, hget he, hear_sent t.alive hsent, by rwa [hear_request]⟩
  · intro n e he
    rw [List.getElem?_mapIdx] at he
    obtain ⟨e₀, he₀, rfl⟩ := Option.map_eq_some_iff.mp he
    exact (h.fits n e₀ he₀).hear ha (hbool he₀) hin
  · intro n reply ho
    obtain ho | ho := List.mem_append.mp ho
    · obtain ⟨e, he, hs⟩ := h.sent n reply ho
      have hw : e.stage.isWaiting = false := by
        cases hst : e.stage with
        | waiting cmd =>
          rw [hst] at hs
          cases hs
        | _ => rfl
      exact ⟨_, hget he, by rwa [hear_other t.alive hw]⟩
    · obtain ⟨cmd, hm, rfl, -⟩ := hh.results (List.mem_append_right _ ho)
      obtain ⟨e, he, -⟩ := h.known cmd (hsub.subset (List.mem_append_left _ hm))
      have hw := (hbool he reply true ho).symm
      refine ⟨_, hget he, ?_⟩
      cases hst : e.stage with
      | waiting cmd' =>
        rw [hear_reply t.alive hst (heard_once (honce _) ho)]
        rfl
      | _ =>
        rw [hst] at hw
        cases hw

theorem internal_posts_nothing {i : Service.Input} (h : internal i = true) : i.posted = [] := by
  cases i <;> first | rfl | cases h

theorem Linked.ended {i : Service.Input} (h : Linked config s cs os)
    (hs : s.service.Step (i, outs) t) (hi : i = .finish env ∨ i = .panic env)
    (hl : ∀ n < s.exchanges.length, env.listening n = s.isWaiting n) :
    ∃ cmds, Linked config ⟨t, s.exchanges.mapIdx fun n e => e.hear n outs t.alive⟩ (cs ++ cmds)
      (os ++ outs) := by
  have hlive : ∀ {job : Job}, s.service.job = some job → s.service.alive = true := by
    intro job hj
    by_contra hd
    cases (h.idle (Bool.not_eq_true _ ▸ hd)).symm.trans hj
  have hhist := h.history
  cases Service.takes_handles (Service.step_takes hs) with
  | aside hn => exact absurd hi (not_or.mpr (hn env))
  | @turn env' job _ _ hj hc ha hp =>
    obtain rfl : env' = env := by simpa using hi
    rw [hlive hj] at hhist ha
    have hlist : cs ++ Moves.commands (job.turn.event env') ++ t.pending =
        cs ++ s.service.pending := by rw [List.append_assoc, ← hp]
    have hheard := Receivers.step_heard hc
    rw [Service.turn_env] at hheard
    refine ⟨_, h.turn (hlive hj) (ha.symm ▸ hhist.turn hc) (hlist ▸ List.Sublist.refl _) ?_ ?_
      hheard hl⟩
    · intro _ cmd hm
      rwa [hlist]
    · intro hd
      cases ha.symm.trans hd
  | @panic env' job _ hj ho =>
    obtain rfl : env' = env := by simpa using hi
    rw [hlive hj] at hhist
    have hheard := panicked_heard ho
    rw [Service.turn_env] at hheard
    have hsub : List.Sublist (cs ++ Moves.commands (job.turn.event env') ++ s.service.died.pending)
        (cs ++ s.service.pending) := by
      rw [show s.service.pending = _ from congrArg (· ++ _) (Service.inHand_turn env' hj),
        List.append_assoc]
      refine (List.Sublist.refl cs).append ?_
      exact (List.Sublist.refl _).append (List.nil_sublist _)
    exact ⟨_, h.turn (hlive hj) (hhist.panic ho) hsub (fun hd => by cases hd) (fun _ => rfl)
      hheard hl⟩

/-- A step of the system takes commands and does what it does of their requests. -/
theorem Linked.step {l : Input × List Effect} {s' : System} (h : Linked config s cs os)
    (hs : s.Step l s') : ∃ cmds, Linked config s' (cs ++ cmds) (os ++ l.2) := by
  obtain ⟨i, outs⟩ := l
  have hnone : ∀ {s' : System}, Linked config s' cs os →
      ∃ cmds, Linked config s' (cs ++ cmds) (os ++ []) := by
    intro s' h
    exact ⟨[], by simpa using h⟩
  cases i with
  | service i =>
    obtain ⟨hi, hs⟩ := Option.ite_none_right_eq_some.mp hs
    obtain ⟨⟨t, os'⟩, ht, hs⟩ := Option.map_eq_some_iff.mp hs
    obtain ⟨rfl, rfl⟩ := Prod.mk.inj hs
    cases Service.takes_handles (Service.step_takes ht) with
    | aside hn hc ha hj hpos hp =>
      rw [internal_posts_nothing hi, List.append_nil] at hp
      exact hnone (h.keep hc ha hj hp)
    | turn => cases hi
    | panic => cases hi
  | arrive r =>
    obtain ⟨rfl, rfl⟩ := Prod.mk.inj (Option.some.inj hs)
    refine hnone (h.append ?_)
    cases hh : r.handler with
    | refuse response => exact .refused rfl hh
    | request make resume =>
      obtain ⟨hch, hm⟩ := makes_opened (r := r) (n := s.exchanges.length) (by rw [hh]; rfl)
      exact .sending hch hm
  | send n =>
    simp only [System.Step, System.next, Option.bind_eq_bind, Option.bind_eq_some_iff] at hs
    obtain ⟨⟨r, stage⟩, he, hs⟩ := hs
    cases stage with
    | sending cmd =>
      cases ha : s.service.alive with
      | true =>
        simp only [ha, if_true] at hs
        obtain ⟨⟨t, os'⟩, ht, hs⟩ := Option.map_eq_some_iff.mp hs
        obtain ⟨rfl, rfl⟩ := Prod.mk.inj hs
        cases Service.takes_handles (Service.step_takes ht) with
        | aside hn hc hlive hj hpos hp => exact hnone (h.send he rfl hc ha hlive hp)
      | false =>
        simp only [ha, Bool.false_eq_true, if_false] at hs
        obtain ⟨rfl, rfl⟩ := Prod.mk.inj (Option.some.inj hs)
        refine hnone (h.advance he (.unavailable rfl ha (h.silent he rfl)) ?_ ?_)
        · intro cmd hsent
          cases hsent
        · intro reply hsent
          cases hsent
    | _ => cases hs
  | wake n =>
    simp only [System.Step, System.next, Option.bind_eq_bind, Option.bind_eq_some_iff] at hs
    obtain ⟨⟨r, stage⟩, he, hs⟩ := hs
    cases stage with
    | replied reply =>
      obtain ⟨rfl, rfl⟩ := Prod.mk.inj (Option.some.inj hs)
      refine hnone (h.advance he ?_ (fun _ _ => trivial) fun _ ho => ho)
      cases h.fits n _ he with
      | answered hs' ho => exact .answered hs' ho
      | unavailable hs' hd h0 => exact .unavailable hs' hd h0
    | _ => cases hs
  | disconnect n =>
    simp only [System.Step, System.next, Option.bind_eq_bind, Option.bind_eq_some_iff] at hs
    obtain ⟨⟨q, stage⟩, he, stage', hl, hs⟩ := hs
    obtain ⟨rfl, rfl⟩ := Prod.mk.inj (Option.some.inj hs)
    have hfits := h.fits n _ he
    cases stage with
    | sending cmd =>
      cases hl
      exact hnone (h.advance he .dropped (fun _ _ => trivial) fun _ ho => by cases ho)
    | waiting cmd =>
      cases hl
      exact hnone (h.advance he .dropped (fun _ _ => trivial) fun _ ho => by cases ho)
    | replied reply =>
      cases hl
      refine hnone (h.advance he ?_ (fun _ _ => trivial) fun _ ho => ho)
      cases hfits with
      | answered hs' ho => exact .answered hs' ho
      | unavailable hs' hd h0 => exact .unavailable hs' hd h0
    | _ => cases hl
  | postReset =>
    obtain ⟨⟨t, os'⟩, ht, hs⟩ := Option.map_eq_some_iff.mp hs
    obtain ⟨rfl, rfl⟩ := Prod.mk.inj hs
    cases Service.takes_handles (Service.step_takes ht) with
    | aside hn hc hlive hj hpos hp =>
      -- The reset is made and sent in one step.
      have hmade := @Linked.append _ _ _ _ ⟨none, .sending (.reset ⟨s.exchanges.length⟩)⟩ h
        (.sending rfl ⟨_, rfl⟩)
      have ha := hpos (by simp [Service.Input.posted])
      have hsent := hmade.send List.getElem?_concat_length rfl hc ha hlive hp
      exact hnone (by simpa using hsent)
  | finish env =>
    obtain ⟨hl, hs⟩ := Option.ite_none_right_eq_some.mp hs
    obtain ⟨⟨t, os'⟩, ht, hs⟩ := Option.map_eq_some_iff.mp hs
    obtain ⟨rfl, rfl⟩ := Prod.mk.inj hs
    exact h.ended ht (.inl rfl) hl
  | panic env =>
    obtain ⟨hl, hs⟩ := Option.ite_none_right_eq_some.mp hs
    obtain ⟨⟨t, os'⟩, ht, hs⟩ := Option.map_eq_some_iff.mp hs
    obtain ⟨rfl, rfl⟩ := Prod.mk.inj hs
    exact h.ended ht (.inr rfl) hl

end Turns

end SrtWhep.Gateway
