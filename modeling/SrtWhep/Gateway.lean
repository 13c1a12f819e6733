import SrtWhep.Gateway.Exchanges
import SrtWhep.Generations.Dates

namespace SrtWhep.Gateway

open Library.Runs Moves Waiters Results

section Responses

variable {e : Exchange} {r : Request} {response : Response}

theorem finished_response {reply : Option (Except SignalError Payload)}
    (hq : e.request = some r) (hs : e.stage = .finished reply) (hr : e.response = some response) :
    ∃ make resume, r.handler = .request make resume ∧ response = respond (resume reply) := by
  simp only [Exchange.response, hq, hs] at hr
  split at hr
  · exact ⟨_, _, ‹_›, (Option.some.inj hr).symm⟩
  · cases hr

end Responses

section Runs

variable {config : CoordinatorConfig} {ls : List (Input × List Effect)} {s : System}

theorem run_linked (h : Run System.Step (.start config) ls s) :
    ∃ cs, Linked config s cs (ls.flatMap Prod.snd) := by
  refine h.history (P := fun ls s => ∃ cs, Linked config s cs (ls.flatMap Prod.snd))
    ⟨[], linked_start config⟩ ?_
  rintro ls s s' l ⟨cs, hl⟩ hs
  obtain ⟨cmds, hn⟩ := hl.step hs
  refine ⟨cs ++ cmds, ?_⟩
  rwa [List.flatMap_append, List.flatMap_singleton]

end Runs

/-- The statuses each request may be answered with. -/
def codes : Request → List Nat
  | .list => [200, 500]
  | .whep _ _ => [201, 400, 409, 410, 413, 500, 503]
  | .whepPatch _ _ => [204, 400, 404, 409, 410, 413, 500]
  | .terminateSession _ | .removeWhipSink _ => [200, 204, 500, 503]
  | .whip _ _ => [201, 400, 404, 409, 410, 413, 500, 503]

/-- The requests that are not told of an error of the pipeline. -/
def spared : Request → Bool
  | .list | .whepPatch _ _ => true
  | _ => false

def retryAfter (response : Response) : Prop :=
  ∃ seconds, ("Retry-After", seconds) ∈ response.headers

section Runs

variable {config : CoordinatorConfig} {s : System} {cs : List Command} {os : List Effect} {n : Nat}
  {e : Exchange} {r : Request} {cmd : Command} {err : SignalError} {response : Response}

theorem replaceFrom_skip (pattern new cs : List Char) :
    Routes.replaceFrom pattern new cs.length cs = [] := by
  induction cs with
  | nil => rfl
  | cons c cs ih => exact ih

/-- A pattern at the end of a template is replaced there, if it begins nowhere
else. -/
theorem replaceFrom_last {c : Char} {cs new start : List Char} (h : c ∉ start) :
    Routes.replaceFrom (c :: cs) new 0 (start ++ c :: cs) = start ++ new := by
  induction start with
  | nil =>
    rw [List.nil_append, Routes.replaceFrom, if_pos (List.prefix_refl _), List.length_cons,
      Nat.add_sub_cancel, replaceFrom_skip, List.append_nil]
    rfl
  | cons d start ih =>
    obtain ⟨hd, hs⟩ := not_or.mp (List.mem_cons.not.mp h)
    have hn : ¬ (c :: cs) <+: d :: (start ++ c :: cs) := by
      intro hp
      exact hd (List.cons_prefix_cons.mp hp).1
    rw [List.cons_append, Routes.replaceFrom, if_neg hn, ih hs, List.cons_append]

theorem whipSinkPath_eq (id : ConnectionId) : Routes.whipSinkPath id = "/whip_sink/" ++ id := by
  have hroute : Routes.whipSinkRoute.toList = "/whip_sink/".toList ++ "\x7bid\x7d".toList := by
    decide
  apply String.toList_injective
  rw [Routes.whipSinkPath, String.toList_ofList, String.toList_append, hroute]
  exact replaceFrom_last (by decide)

theorem Linked.answered {reply : Except SignalError Payload} (h : Linked config s cs os)
    (he : s.exchanges[n]? = some e) (ho : .send n reply true ∈ os) :
    ∃ cmd ∈ cs, cmd.channel = n ∧ Made e.request cmd ∧ Result cs os true cmd reply := by
  obtain ⟨cmd, hin, rfl, hres⟩ := h.history.results ho
  obtain ⟨e', he', -, hm⟩ := h.known cmd (List.mem_append_left _ hin)
  cases he.symm.trans he'
  exact ⟨cmd, hin, rfl, makes_made hm, hres⟩

theorem wire_code (err : SignalError) :
    err.errorResponse.wire.code = err.httpContract.1.code := rfl

theorem wire_retry (err : SignalError) :
    retryAfter err.errorResponse.wire ↔ err.errorResponse.wire.code = 503 := by
  cases err <;> simp [retryAfter, SignalError.errorResponse, SignalError.httpContract,
    HttpResponse.wire, StatusCode.code]

theorem failed_retry (r : Request) (err : SignalError) :
    retryAfter (failed r err) ↔ (failed r err).code = 503 := by
  unfold failed
  split
  · simp [retryAfter]
  · simp [retryAfter]
  · exact wire_retry err

theorem pipeline_code (e : PipelineError) :
    (SignalError.ofPipelineError e).httpContract.1.code = 500 ∨
      (SignalError.ofPipelineError e).httpContract.1.code = 503 := by
  cases e <;> simp [SignalError.ofPipelineError, SignalError.httpContract, StatusCode.code]

/-- A DELETE that fails is not told `NotFound` for an error of the pipeline. -/
theorem removed_code {path : ConnectionId} {reply : UnitReply}
    (hr : r = .terminateSession path ∨ r = .removeWhipSink path)
    (hf : Failure (.removeConnection path reply) err) : (failed r err).code ∈ codes r := by
  cases hf with
  | removeUnknown => obtain rfl | rfl := hr <;> simp [failed, codes]
  | removeFailed e =>
    have hwire :
        failed r (.ofPipelineError e) = (SignalError.ofPipelineError e).errorResponse.wire := by
      obtain rfl | rfl := hr <;> cases e <;> rfl
    rw [hwire, wire_code]
    obtain rfl | rfl := hr <;> obtain hc | hc := pipeline_code e <;> simp [codes, hc]
  | removeCutOff =>
    obtain rfl | rfl := hr <;>
      simp [failed, codes, wire_code, SignalError.httpContract, StatusCode.code]

theorem failed_code (hm : Made (some r) cmd) (hf : Failure cmd err) :
    (failed r err).code ∈ codes r := by
  cases hm with
  | list => cases hf
  | whep =>
    change err.httpContract.1.code ∈ _
    cases hf with
    | createFailed e => obtain hc | hc := pipeline_code e <;> simp [codes, hc]
    | _ => simp [codes, SignalError.httpContract, StatusCode.code]
  | whepPatch =>
    change err.httpContract.1.code ∈ _
    cases hf <;> simp [codes, SignalError.httpContract, StatusCode.code]
  | whip =>
    change err.httpContract.1.code ∈ _
    cases hf <;> simp [codes, SignalError.httpContract, StatusCode.code]
  | terminateSession => exact removed_code (.inl rfl) hf
  | removeWhipSink => exact removed_code (.inr rfl) hf

theorem failed_spared (hm : Made (some r) cmd) (hf : Failure cmd err) (hs : spared r = true) :
    (failed r err).code ≠ 500 := by
  cases hm with
  | list => cases hf
  | whepPatch =>
    change err.httpContract.1.code ≠ 500
    cases hf <;> simp [SignalError.httpContract, StatusCode.code]
  | _ => cases hs

theorem succeeded_code {b : Bool} {p : Payload} (hm : Made (some r) cmd)
    (hs : Success cs os b cmd p) : (succeeded r p).code ∈ codes r ∧
      (succeeded r p).code ≠ 500 ∧ (succeeded r p).code ≠ 503 ∧ ¬ retryAfter (succeeded r p) := by
  cases hm <;> cases hs <;> simp [succeeded, codes, Routes.created, retryAfter]

theorem unavailable_code (r : Request) :
    SignalError.unavailable.errorResponse.wire.code ∈ codes r := by
  cases r <;> simp [codes, wire_code, SignalError.httpContract, StatusCode.code]

theorem fail_refused (h : Handler.fail err = .refuse response)
    (he : err.httpContract = (.badRequest, none)) :
    response.code = 400 ∧ ¬ retryAfter response := by
  cases h
  simp [respond, SignalError.errorResponse, HttpResponse.wire, he, retryAfter, StatusCode.code]

theorem handled_refused {body : Body} {handler : String → Handler}
    (h : body.handled handler = .refuse response)
    (hform : ∀ form, handler form = .refuse response →
      response.code = 400 ∧ ¬ retryAfter response) :
    (response.code = 400 ∨ response.code = 413) ∧ ¬ retryAfter response := by
  have hrefusal : ∀ code, ¬ retryAfter (body.refusal code) := by
    intro code
    simp [Body.refusal, retryAfter]
  unfold Body.handled at h
  split at h
  · exact (hform _ h).imp_left .inl
  · rename_i hx
    cases h
    unfold Body.extract at hx
    split at hx
    · cases hx
      exact ⟨.inl rfl, hrefusal 400⟩
    · split at hx
      · cases hx
        exact ⟨.inr rfl, hrefusal 413⟩
      · split at hx
        · cases hx
        · cases hx
          exact ⟨.inl rfl, hrefusal 400⟩

theorem refused_cases (hh : r.handler = .refuse response) :
    (response.code = 400 ∨ response.code = 413) ∧ ¬ retryAfter response ∧
      400 ∈ codes r ∧ 413 ∈ codes r := by
  cases r with
  | list => cases hh
  | whep body id =>
    obtain ⟨hc, hn⟩ := handled_refused hh fun form hf => by
      simp only [Routes.whepHandler] at hf
      split at hf
      · exact fail_refused hf rfl
      · cases hf
    exact ⟨hc, hn, by simp [codes], by simp [codes]⟩
  | whepPatch path body =>
    obtain ⟨hc, hn⟩ := handled_refused hh fun form hf => by
      simp only [Routes.whepPatchHandler] at hf
      split at hf
      · exact fail_refused hf rfl
      · cases hf
    exact ⟨hc, hn, by simp [codes], by simp [codes]⟩
  | terminateSession path => cases hh
  | whip path body =>
    obtain ⟨hc, hn⟩ := handled_refused hh fun form hf => by
      simp only [Routes.whipHandler] at hf
      split at hf
      · exact fail_refused hf rfl
      · cases hf
    exact ⟨hc, hn, by simp [codes], by simp [codes]⟩
  | removeWhipSink path => cases hh

/-- A response is of a body that was refused, of a coordinator that is gone, or
of the one result sent to its request. -/
theorem Linked.response_cases (h : Linked config s cs os) (he : s.exchanges[n]? = some e)
    (hq : e.request = some r) (hr : e.response = some response) :
    r.handler = .refuse response ∨
      (s.service.alive = false ∧ response = SignalError.unavailable.errorResponse.wire) ∨
      ∃ cmd ∈ cs, cmd.channel = n ∧ Made (some r) cmd ∧
        ((∃ err, Failure cmd err ∧ response = failed r err) ∨
          ∃ p, Success cs os true cmd p ∧ response = succeeded r p) := by
  have hfits := h.fits n e he
  cases hs : e.stage with
  | finished reply =>
    obtain ⟨make, resume, hh, rfl⟩ := finished_response hq hs hr
    have hsends := handler_sends hh
    rw [hs] at hfits
    cases hfits with
    | answered hs' ho =>
      cases hs'
      rename_i result
      obtain ⟨cmd, hin, hch, hm, hres⟩ := h.answered he ho
      rw [hq] at hm
      refine .inr (.inr ⟨cmd, hin, hch, hm, ?_⟩)
      cases result with
      | error err => exact .inl ⟨err, hres, hsends.failed err⟩
      | ok p => exact .inr ⟨p, hres, hsends.succeeded p⟩
    | unavailable hs' hd h0 =>
      cases hs'
      exact .inr (.inl ⟨hd, by rw [hsends.unavailable]; rfl⟩)
  | refused response' =>
    simp only [Exchange.response, hq, hs, Option.some.injEq] at hr
    subst hr
    rw [hs] at hfits
    cases hfits with
    | refused hq' hh =>
      cases hq.symm.trans hq'
      exact .inl hh
    | answered hs' => cases hs'
    | unavailable hs' => cases hs'
  | _ =>
    simp only [Exchange.response, hq, hs] at hr
    cases hr

end Runs

/-- Where a request stands, by its stage: refused, with its handler, in the mailbox
or in the coordinator's hands, in the map, answered, left by its client, or left
behind by a coordinator that is gone. -/
inductive Stands (s : System) (os : List Effect) (n : Nat) : Stage → Prop
  | sending {cmd} : sends os n = 0 → Stands s os n (.sending cmd)
  | pending {cmd} : s.service.alive = true → cmd.channel = n → cmd ∈ s.service.pending →
      sends os n = 0 →
      (∀ id state, s.service.coordinator.connections.lookup id = some state →
        state.parked ≠ some n) →
      Stands s os n (.waiting cmd)
  | parked {cmd id state} : s.service.alive = true → cmd.channel = n → cmd ∉ s.service.pending →
      sends os n = 0 → s.service.coordinator.connections.lookup id = some state →
      cmd.connection = some id → ParksFor state cmd → Stands s os n (.waiting cmd)
  | replied {reply} : sends os n = 1 → .send n reply true ∈ os →
      Stands s os n (.replied (some reply))
  | finished {reply} : sends os n = 1 → .send n reply true ∈ os →
      Stands s os n (.finished (some reply))
  | unread {reply} : sends os n = 1 → .send n reply true ∈ os → Stands s os n (.unread (some reply))
  | unavailable {stage} : stage.outcome = some none → s.service.alive = false → sends os n = 0 →
      Stands s os n stage
  | refused {response} : sends os n = 0 → Stands s os n (.refused response)
  | dropped : sends os n ≤ 1 → Stands s os n .dropped

def hearing (order : List ConnectionId) (ns : List Nat) : Env :=
  { Env.calm 0 order with listening := fun n => decide (n ∈ ns) }

def plain (size : Nat) (form : String) : Body := ⟨true, size, some form, ""⟩

def handshake : List Input :=
  Generations.firstRun.map .service ++
    [.arrive (.whep (plain 0 "") "a"), .send 0, .service .receive, .service .attach,
      .finish (hearing [] [0]),
      .arrive (.whip "a" (plain 14 "v=0 a=sendonly")), .send 1, .service .receive,
      .finish (hearing ["a"] [0, 1]), .wake 0,
      .arrive (.whepPatch "a" (plain 14 "v=0 a=recvonly")), .send 2, .service .receive,
      .finish (hearing ["a"] [1, 2])]

section Runs

variable {config : CoordinatorConfig} {ls : List (Input × List Effect)} {s : System}
  {cs : List Command} {os : List Effect} {n : Nat} {e : Exchange} {cmd : Command}
  {reply : Except SignalError Payload}

theorem Linked.taken_nodup (h : Linked config s cs os) : (cs.map Command.channel).Nodup := by
  have hall := h.nodup
  rw [List.map_append] at hall
  exact (List.nodup_append.mp hall).1

theorem Linked.taken_apart (h : Linked config s cs os) {cmd' : Command} (hin : cmd' ∈ cs)
    (hp : cmd ∈ s.service.pending) : cmd'.channel ≠ cmd.channel := by
  have hall := h.nodup
  rw [List.map_append] at hall
  exact (List.nodup_append.mp hall).2.2 _ (List.mem_map_of_mem hin) _ (List.mem_map_of_mem hp)

theorem Linked.sends_one (h : Linked config s cs os) (ho : .send n reply true ∈ os) :
    sends os n = 1 := by
  have hpos : 0 < sends os n := List.count_pos_iff.mpr (List.mem_filterMap.mpr ⟨_, ho, rfl⟩)
  exact Nat.le_antisymm (h.history.sends_once h.taken_nodup n) hpos

theorem Linked.stands_waiting (h : Linked config s cs os) (ha : s.service.alive = true)
    (hch : cmd.channel = n) (hm : cmd ∈ cs ++ s.service.pending) (h0 : sends os n = 0) :
    Stands s os n (.waiting cmd) := by
  have hnodup := h.taken_nodup
  have hapart := @Linked.taken_apart _ _ _ _ cmd h
  have hhist := h.history
  rw [ha] at hhist
  obtain ⟨ms, hr, rfl, rfl⟩ := hhist.runs
  by_cases hin : cmd ∈ taken ms
  · obtain hone | ⟨-, id, state, hlook, hid, hf⟩ := Deadlines.answered_or_parked hr hnodup hin
    · rw [hch, h0] at hone
      cases hone
    · exact .parked ha hch (fun hp => hapart hin hp rfl) h0 hlook hid hf
  · have hp : cmd ∈ s.service.pending := (List.mem_append.mp hm).resolve_left hin
    refine .pending ha hch hp h0 fun id state hlook hpk => ?_
    obtain ⟨cmd', hin', -, -, hch'⟩ := parked_by hr hlook hpk
    exact hapart hin' hp (hch'.trans hch.symm)

theorem Linked.outcome {reply : Option (Except SignalError Payload)} (h : Linked config s cs os)
    (he : s.exchanges[n]? = some e) (ho : e.stage.outcome = some reply) :
    (∃ result, reply = some result ∧ sends os n = 1 ∧ .send n result true ∈ os) ∨
      reply = none ∧ s.service.alive = false ∧ sends os n = 0 := by
  have hfits := h.fits n e he
  generalize e.stage = stage at hfits ho
  cases hfits with
  | answered ho' hsent =>
    cases ho'.symm.trans ho
    exact .inl ⟨_, rfl, h.sends_one hsent, hsent⟩
  | unavailable ho' hd h0 =>
    cases ho'.symm.trans ho
    exact .inr ⟨rfl, hd, h0⟩
  | _ => cases ho

theorem requests_accounted (h : Run System.Step (.start config) ls s)
    (he : s.exchanges[n]? = some e) : Stands s (ls.flatMap Prod.snd) n e.stage := by
  obtain ⟨cs, hl⟩ := run_linked h
  cases hs : e.stage with
  | sending cmd => exact .sending (hl.silent he hs)
  | refused response =>
    refine .refused (hl.history.silent fun cmd hin hch => ?_)
    obtain ⟨e', he', hsent, -⟩ := hl.known cmd (List.mem_append_left _ hin)
    rw [hch] at he'
    cases he.symm.trans he'
    rw [hs] at hsent
    exact hsent
  | dropped => exact .dropped (hl.history.sends_once hl.taken_nodup n)
  | waiting cmd =>
    have hfits := hl.fits n e he
    rw [hs] at hfits
    cases hfits with
    | waiting hch hm h0 ha => exact hl.stands_waiting ha hch hm h0
    | answered hs' => cases hs'
    | unavailable hs' => cases hs'
  | replied reply =>
    obtain ⟨result, rfl, hone, ho⟩ | ⟨rfl, hd, h0⟩ := hl.outcome he (by rw [hs]; rfl)
    · exact .replied hone ho
    · exact .unavailable rfl hd h0
  | finished reply =>
    obtain ⟨result, rfl, hone, ho⟩ | ⟨rfl, hd, h0⟩ := hl.outcome he (by rw [hs]; rfl)
    · exact .finished hone ho
    · exact .unavailable rfl hd h0
  | unread reply =>
    obtain ⟨result, rfl, hone, ho⟩ | ⟨rfl, hd, h0⟩ := hl.outcome he (by rw [hs]; rfl)
    · exact .unread hone ho
    · exact .unavailable rfl hd h0

/-- A viewer's request is parked while its handler waits. -/
theorem requests_accounted_parked : ∃ ls s e, Run System.Step (.start {}) ls s ∧
    s.exchanges[0]? = some e ∧ e.stage.isWaiting = true ∧ s.service.pending = [] ∧
    Stands s (ls.flatMap Prod.snd) 0 e.stage := by
  obtain ⟨ls, s, h, -, hv⟩ := replayed System.next System.Step (fun _ _ _ _ h => h) (.start {})
    (handshake.take 9) (some true, [])
    (fun r => (r.1.exchanges[0]?.map (·.stage.isWaiting), r.1.service.pending)) (by decide)
  obtain ⟨hw, hp⟩ := Prod.mk.inj hv
  obtain ⟨e, he, hw⟩ := Option.map_eq_some_iff.mp hw
  exact ⟨ls, s, e, h, he, hw, hp, requests_accounted h he⟩

/-- Every response has one of the statuses of its route, and says when to retry
exactly if it is a 503. A request that is not told of the pipeline's errors is
answered by a 500 only when the coordinator is gone. -/
theorem responses_in_contract {r : Request} {response : Response}
    (h : Run System.Step (.start config) ls s) (he : s.exchanges[n]? = some e)
    (hq : e.request = some r) (hr : e.response = some response) :
    response.code ∈ codes r ∧ (retryAfter response ↔ response.code = 503) ∧
      (spared r = true → response.code = 500 → s.service.alive = false) := by
  obtain ⟨cs, hl⟩ := run_linked h
  obtain hh | ⟨hd, rfl⟩ | ⟨cmd, -, -, hm, ⟨err, hf, rfl⟩ | ⟨p, hp, rfl⟩⟩ :=
    hl.response_cases he hq hr
  · obtain ⟨hc | hc, hretry, h400, h413⟩ := refused_cases hh
    · rw [hc]
      exact ⟨h400, iff_of_false hretry (by decide), fun _ h500 => by cases h500⟩
    · rw [hc]
      exact ⟨h413, iff_of_false hretry (by decide), fun _ h500 => by cases h500⟩
  · exact ⟨unavailable_code r, wire_retry _, fun _ _ => hd⟩
  · refine ⟨failed_code hm hf, failed_retry r err, fun hs h500 => ?_⟩
    exact absurd h500 (failed_spared hm hf hs)
  · obtain ⟨hin, hne, h503, hretry⟩ := succeeded_code hm hp
    exact ⟨hin, iff_of_false hretry h503, fun _ h500 => absurd h500 hne⟩

/-- With a sweep interval of zero there is no coordinator to make a list. -/
theorem responses_in_contract_unstarted : ∃ ls s e response,
    Run System.Step (.start { sweepInterval := 0 }) ls s ∧ s.exchanges[0]? = some e ∧
    e.request = some .list ∧ e.response = some response ∧ response.code = 500 ∧
    response.code ∈ codes .list ∧ (retryAfter response ↔ response.code = 503) ∧
    (spared .list = true → response.code = 500 → s.service.alive = false) := by
  obtain ⟨ls, s, h, -, hv⟩ := replayed System.next System.Step (fun _ _ _ _ h => h)
    (.start { sweepInterval := 0 }) [.arrive .list, .send 0]
    (some (some .list, some ⟨500, [], "Signaling coordinator is unavailable"⟩))
    (fun r => r.1.exchanges[0]?.map fun e => (e.request, e.response)) (by decide)
  obtain ⟨e, he, hv⟩ := Option.map_eq_some_iff.mp hv
  obtain ⟨hq, hr⟩ := Prod.mk.inj hv
  exact ⟨ls, s, e, _, h, he, hq, hr, rfl, responses_in_contract h he hq hr⟩

end Runs

def System.Asked (s : System) (n : Nat) (r : Request) : Prop :=
  ∃ e, s.exchanges[n]? = some e ∧ e.request = some r

def System.Got (s : System) (n : Nat) (r : Request) (response : Response) : Prop :=
  ∃ e, s.exchanges[n]? = some e ∧ e.request = some r ∧ e.response = some response

/-- What a handler makes of the reply in its channel, unless its client has left
before it wakes up. -/
def Exchange.due (e : Exchange) : Option Response :=
  match e.stage with
  | .replied reply | .unread reply => ({ e with stage := .finished reply } : Exchange).response
  | _ => none

/-- A request has got a response, or the reply that makes it is in its channel. -/
def System.Told (s : System) (n : Nat) (r : Request) (response : Response) : Prop :=
  ∃ e, s.exchanges[n]? = some e ∧ e.request = some r ∧
    (e.response = some response ∨ e.due = some response)

def System.Left (s : System) (n : Nat) (r : Request) : Prop :=
  ∃ e, s.exchanges[n]? = some e ∧ e.request = some r ∧ e.stage = .dropped

/-- The three requests of a session carry the same two descriptions. -/
structure Agreement (s : System) : Prop where
  offered : ∀ n body id response, s.Got n (.whep body id) response → response.code = 201 →
    response = Routes.created ("/channel/" ++ id) response.body ∧
      ∃ m body', body'.extract = .ok response.body ∧ s.Asked m (.whip id body')
  answered : ∀ n body id response, s.Got n (.whip id body) response → response.code = 201 →
    response = Routes.created ("/whip_sink/" ++ id) response.body ∧
      ∃ m body', body'.extract = .ok response.body ∧
        (s.Told m (.whepPatch id body') ⟨204, [], ""⟩ ∨ s.Left m (.whepPatch id body'))
  established : ∀ n body id response, s.Got n (.whepPatch id body) response →
    response.code = 204 →
      ∃ m body' answer, body.extract = .ok answer ∧
        s.Told m (.whip id body') (Routes.created ("/whip_sink/" ++ id) answer)

section Sessions

variable {config : CoordinatorConfig} {ls : List (Input × List Effect)} {s : System}
  {cs : List Command} {os : List Effect} {n : Nat} {e : Exchange} {r : Request} {cmd : Command}
  {response : Response}

theorem Linked.success (h : Linked config s cs os) (hg : s.Got n r response)
    (hc : response.code = 201 ∨ response.code = 204) (hr : ∀ id, r ≠ .terminateSession id)
    (hr' : ∀ id, r ≠ .removeWhipSink id) : ∃ cmd ∈ cs, ∃ p, Made (some r) cmd ∧
      Success cs os true cmd p ∧ response = succeeded r p := by
  obtain ⟨e, he, hq, hresp⟩ := hg
  have hne : ∀ err : SignalError, response ≠ err.errorResponse.wire := by
    rintro err rfl
    rw [wire_code] at hc
    cases err <;> simp [SignalError.httpContract, StatusCode.code] at hc
  obtain hh | ⟨-, hw⟩ | ⟨cmd, hin, -, hm, ⟨err, -, hw⟩ | ⟨p, hp, hw⟩⟩ :=
    h.response_cases he hq hresp
  · obtain ⟨h400 | h413, -⟩ := refused_cases hh
    · simp [h400] at hc
    · simp [h413] at hc
  · exact absurd hw (hne _)
  · have hf : failed r err = err.errorResponse.wire := by
      cases r with
      | terminateSession id => exact absurd rfl (hr id)
      | removeWhipSink id => exact absurd rfl (hr' id)
      | _ => rfl
    exact absurd (hw.trans hf) (hne err)
  · exact ⟨cmd, hin, p, hm, hp, hw⟩

theorem finished_succeeded {p : Payload} (hm : Makes (some r) cmd) (hq : e.request = some r)
    (hs : e.stage = .finished (some (.ok p))) : e.response = some (succeeded r p) := by
  obtain ⟨make, resume, hh, -⟩ := hm
  rw [← (handler_sends hh).succeeded p]
  simp [Exchange.response, hq, hs, hh]

theorem outcome_told {p : Payload} (he : s.exchanges[n]? = some e) (hm : Makes (some r) cmd)
    (hq : e.request = some r) (ho : e.stage.outcome = some (some (.ok p))) :
    s.Told n r (succeeded r p) := by
  refine ⟨e, he, hq, ?_⟩
  cases hs : e.stage with
  | finished reply =>
    rw [hs] at ho
    cases ho
    exact .inl (finished_succeeded hm hq hs)
  | replied reply =>
    rw [hs] at ho
    cases ho
    refine .inr ?_
    simp only [Exchange.due, hs]
    exact finished_succeeded hm hq rfl
  | unread reply =>
    rw [hs] at ho
    cases ho
    refine .inr ?_
    simp only [Exchange.due, hs]
    exact finished_succeeded hm hq rfl
  | _ =>
    rw [hs] at ho
    cases ho

/-- Whoever is there for a success gets it, unless it leaves. -/
theorem Linked.told {p : Payload} (h : Linked config s cs os) (hin : cmd ∈ cs)
    (ho : .send cmd.channel (.ok p) true ∈ os) :
    ∃ q, Made q cmd ∧ ∀ r, q = some r → s.Told cmd.channel r (succeeded r p) := by
  obtain ⟨e, he, -, hmakes⟩ := h.known cmd (List.mem_append_left _ hin)
  obtain ⟨e', he', hout⟩ := h.sent _ _ ho
  cases he.symm.trans he'
  exact ⟨e.request, makes_made hmakes, fun r hq => outcome_told he (hq ▸ hmakes) hq hout⟩

theorem Linked.told_or_left {p : Payload} {b : Bool} (h : Linked config s cs os) (hin : cmd ∈ cs)
    (ho : .send cmd.channel (.ok p) b ∈ os) :
    ∃ q, Made q cmd ∧
      ∀ r, q = some r → s.Told cmd.channel r (succeeded r p) ∨ s.Left cmd.channel r := by
  obtain ⟨e, he, hsent, hmakes⟩ := h.known cmd (List.mem_append_left _ hin)
  refine ⟨e.request, makes_made hmakes, fun r hq => ?_⟩
  have hpos : 0 < sends os cmd.channel :=
    List.count_pos_iff.mpr (List.mem_filterMap.mpr ⟨_, ho, rfl⟩)
  have hfits := h.fits _ e he
  generalize hs : e.stage = stage at hsent hfits
  cases hfits with
  | answered hout hr =>
    have honce := h.history.sends_once h.taken_nodup cmd.channel
    cases (heard_once honce hr).symm.trans (heard_once honce ho)
    exact .inl (outcome_told he (hq ▸ hmakes) hq (hs ▸ hout))
  | waiting hch hm h0 ha => exact absurd h0 hpos.ne'
  | unavailable hout hd h0 => exact absurd h0 hpos.ne'
  | dropped => exact .inr ⟨e, he, hq, hs⟩
  | sending => exact hsent.elim
  | refused => exact hsent.elim

theorem sessions_agree (h : Run System.Step (.start config) ls s) : Agreement s := by
  obtain ⟨cs, hl⟩ := run_linked h
  refine ⟨?_, ?_, ?_⟩
  · intro n body id response hg hc
    obtain ⟨cmd, hin, p, hm, hp, rfl⟩ := hl.success hg (.inl hc) (by simp) (by simp)
    cases hm with
    | whep =>
      cases hp with
      | created ho =>
        obtain ⟨e, he, -, hmakes⟩ := hl.known _ (List.mem_append_left _ ho)
        have hm := makes_made hmakes
        generalize hq : e.request = q at hm
        cases hm with
        | @whip _ body' _ _ hb => exact ⟨rfl, _, body', hb, e, he, hq⟩
  · intro n body id response hg hc
    obtain ⟨cmd, hin, p, hm, hp, rfl⟩ := hl.success hg (.inl hc) (by simp) (by simp)
    cases hm with
    | whip =>
      cases hp with
      | answered ha hs =>
        obtain ⟨b, ho⟩ := hs rfl
        obtain ⟨q, hm, ht⟩ := hl.told_or_left ha ho
        cases hm with
        | @whepPatch _ body' _ _ hb =>
          exact ⟨by rw [succeeded, whipSinkPath_eq]; rfl, _, body', hb, ht _ rfl⟩
  · intro n body id response hg hc
    obtain ⟨cmd, hin, p, hm, hp, rfl⟩ := hl.success hg (.inr hc) (by simp) (by simp)
    cases hm with
    | whepPatch hb =>
      cases hp with
      | established ho hs =>
        obtain ⟨q, hm, ht⟩ := hl.told ho hs
        cases hm with
        | @whip _ body' _ _ _ =>
          have htold := ht _ rfl
          rw [succeeded, whipSinkPath_eq] at htold
          exact ⟨_, body', _, hb, htold⟩

theorem sessions_agree_handshake : ∃ ls s, Run System.Step (.start {}) ls s ∧ Agreement s ∧
    s.exchanges.map Exchange.response =
      [some (Routes.created "/channel/a" "v=0 a=sendonly"),
        some (Routes.created "/whip_sink/a" "v=0 a=recvonly"), some ⟨204, [], ""⟩] := by
  obtain ⟨ls, s, h, -, hv⟩ := replayed System.next System.Step (fun _ _ _ _ h => h) (.start {})
    (handshake ++ [.wake 1, .wake 2]) [some (Routes.created "/channel/a" "v=0 a=sendonly"),
      some (Routes.created "/whip_sink/a" "v=0 a=recvonly"), some ⟨204, [], ""⟩]
    (fun r => r.1.exchanges.map Exchange.response) (by decide)
  exact ⟨ls, s, h, sessions_agree h, hv⟩

-- The sink's request may die with the answer in its channel.
example : (replay System.next (handshake ++ [.disconnect 1, .wake 2]) (.start {})).map
    (fun r => r.1.exchanges.map Exchange.response) =
      some [some (Routes.created "/channel/a" "v=0 a=sendonly"), none, some ⟨204, [], ""⟩] := by
  decide

end Sessions

end SrtWhep.Gateway
