import SrtWhep.Rejections
import SrtWhep.Deliveries
import SrtWhep.Branches
import SrtWhep.Routes

namespace SrtWhep.WireContract

open Library.Runs Library.Tables Moves Deliveries

def byId : Command → Option ConnectionId
  | .offerReceived id _ _ => some id
  | .answerReceived id _ _ => some id
  | .removeConnection id _ => some id
  | _ => none

def removedOn (ch : Nat) : Effect → Option (Except SignalError Unit)
  | .send ch' (.ok .unit) true => if ch' = ch then some (.ok ()) else none
  | .send ch' (.error e) true => if ch' = ch then some (.error e) else none
  | _ => none

def responses (t : List Effect) (reply : UnitReply) : List HttpResponse :=
  (t.filterMap (removedOn reply.channel)).map fun r =>
    Routes.respond (Routes.delete (Routes.request (some r)))

def deleted (id : ConnectionId) (t : List Effect) : Command → Bool
  | .removeConnection i reply => i == id && (responses t reply).any (·.status == .ok)
  | _ => false

def deletes (id : ConnectionId) (cs : List Command) (t : List Effect) : Nat :=
  cs.countP (deleted id t)

def creation (id : ConnectionId) : Effect → Bool
  | .addBranch i call => i == id && call.succeeded
  | _ => false

/-- How often an id was created: its branch was attached and it entered the map. -/
def creates (id : ConnectionId) (t : List Effect) : Nat := t.countP (creation id)

/-- A turn that answers a request `Gone`: its connection had an entry, which
ended in this turn, by DELETE or a reap while the request was parked or as the
delivery the request asked for found the other waiter gone. -/
structure GoneTo (c : Coordinator) (l : Event × List Effect) (c' : Coordinator) (ch : Nat)
    (id : ConnectionId) : Prop where
  before : id ∈ c.connections
  after : id ∉ c'.connections
  request : (∃ state, ∃ reason ∈ [.deleted, .reaped], c.connections.lookup id = some state ∧
      state.parked = some ch ∧ .ended id reason ∈ l.2) ∨
    ∃ cmd env, l.1 = .command cmd env ∧ cmd.channel = ch ∧ byId cmd = some id ∧
      .ended id .peerGone ∈ l.2

structure Contract (config : CoordinatorConfig) (ls : List (Event × List Effect)) : Prop where
  notFound : ∀ ls₁ cmd env os ls₂ c id, ls = ls₁ ++ (.command cmd env, os) :: ls₂ →
    Run Coordinator.Step (.new config) ls₁ c → byId cmd = some id →
    ((∃ i b, .send cmd.channel (.error (.notFound i)) b ∈ trace ls) ↔ id ∉ c.connections)
  gone : ∀ ls₁ l ls₂ c c' ch id b, ls = ls₁ ++ l :: ls₂ →
    Run Coordinator.Step (.new config) ls₁ c → c.Step l c' →
    .send ch (.error (.gone id)) b ∈ l.2 → GoneTo c l c' ch id ∧
      ∃ cmd ∈ taken (ls₁ ++ [l]), cmd.channel = ch ∧ cmd.connection = some id
  forgotten : ∀ ls₁ ls₂ cmd env os ls₃ c id, ls = ls₁ ++ (ls₂ ++ (.command cmd env, os) :: ls₃) →
    Run Coordinator.Step (.new config) ls₁ c → id ∉ c.connections →
    creates id (trace ls₂) = 0 → byId cmd = some id →
    ∃ b, .send cmd.channel (.error (.notFound id)) b ∈ os
  deletes : ∀ id, deletes id (taken ls) (trace ls) ≤ creates id (trace ls)
  repeated : ∀ ls₁ id reply env os ls₂ c,
    ls = ls₁ ++ (.command (.removeConnection id reply) env, os) :: ls₂ →
    Run Coordinator.Step (.new config) ls₁ c → id ∉ c.connections →
    (∀ response ∈ responses (trace ls) reply, response.status = .noContent) ∧
      (env.listening reply.channel = true → responses (trace ls) reply ≠ [])

/-- Why a move sends an error on a channel: it refuses the command it took, it
ends the entry that parks the channel, or it abandons the delivery it was
asked for. -/
inductive Fails (c : Coordinator) (cs : List Command) (os : List Effect) (c' : Coordinator)
    (ch : Nat) : SignalError → Prop
  | refused {cmd calls err} : cs = [cmd] → cmd.channel = ch → Rejects c cmd calls err →
      Fails c cs os c' ch err
  | noticed {id state reason} : c.connections.lookup id = some state → state.parked = some ch →
      id ∉ c'.connections → .ended id reason ∈ os → reason ≠ .peerGone →
      Fails c cs os c' ch (state.notice id reason.policy.waiter)
  | abandoned {id cmd} : cs = [cmd] → cmd.channel = ch → byId cmd = some id →
      id ∈ c.connections → id ∉ c'.connections → .ended id .peerGone ∈ os →
      Fails c cs os c' ch (.gone id)

section Errors

variable {c c' : Coordinator} {cs : List Command} {os os' : List Effect} {ch : Nat} {b : Bool}
  {err : SignalError} {id : ConnectionId}

theorem notify_sends {state : ConnectionState} {env : Env} {n : WaiterNotice}
    (h : .send ch (.error err) b ∈ state.notify env n id) :
    state.parked = some ch ∧ state.notice id n = err := by
  simp only [ConnectionState.notify_eq, List.mem_map, Option.mem_toList, Effect.send.injEq,
    Except.error.injEq] at h
  obtain ⟨ch', hp, rfl, he, -⟩ := h
  exact ⟨hp, he⟩

theorem drain_noticed {env : Env} {w : Watchdog} (hsub : ∀ o ∈ drain c env, o ∈ os)
    (h : .send ch (.error err) b ∈ drain c env) :
    Fails c cs os { c with connections := ∅, watchdog := w } ch err := by
  obtain ⟨⟨id, state⟩, he, ho⟩ := List.mem_flatMap.mp h
  have hl := ((mem_walk id state).mp he).2
  have hend : .ended id .reset ∈ drain c env :=
    List.mem_flatMap.mpr ⟨⟨id, state⟩, he, by simp⟩
  obtain ⟨hp, rfl⟩ := notify_sends (by simpa using ho)
  exact @Fails.noticed c cs os _ ch id state .reset hl hp Finmap.notMem_empty (hsub _ hend)
    (by simp)

theorem erase_noticed {i : ConnectionId} {state : ConnectionState} {env : Env} {w : Watchdog}
    {reason : TerminateReason} (hl : c.connections.lookup i = some state)
    (hend : .ended i reason ∈ os) (hr : reason ≠ .peerGone)
    (h : .send ch (.error err) b ∈ state.notify env reason.policy.waiter i) :
    Fails c cs os { c with connections := c.connections.erase i, watchdog := w } ch err := by
  obtain ⟨hp, rfl⟩ := notify_sends h
  exact .noticed hl hp Finmap.notMem_erase_self hend hr

theorem move_fails (hm : Move c (cs, os) c') (ho : .send ch (.error err) b ∈ os) :
    Fails c cs os c' ch err := by
  cases hm with
  | @reject cmd calls e b' hr =>
    have hcalls : ∀ ch r b', Effect.send ch r b' ∉ calls :=
      fun ch r b' => (Rejections.rejects_sends hr).1 ch r b'
    simp only [List.mem_append, hcalls, List.mem_singleton, Effect.send.injEq, Except.error.injEq,
      false_or] at ho
    obtain ⟨rfl, rfl, -⟩ := ho
    exact .refused rfl rfl hr
  | @abandonOffer i sdp reply whep d call tripped w b' hl hw =>
    simp only [List.mem_cons, Effect.send.injEq, Except.error.injEq, reduceCtorEq, and_false,
      false_and, List.not_mem_nil, or_false, false_or] at ho
    obtain ⟨rfl, rfl, -⟩ := ho
    exact .abandoned rfl rfl rfl (Finmap.mem_of_lookup_eq_some hl) Finmap.notMem_erase_self
      (by simp)
  | @abandonAnswer i sdp reply whip d call tripped w b' hl hw =>
    simp only [List.mem_cons, Effect.send.injEq, Except.error.injEq, reduceCtorEq, and_false,
      false_and, List.not_mem_nil, or_false, false_or] at ho
    obtain ⟨rfl, rfl, -⟩ := ho
    exact .abandoned rfl rfl rfl (Finmap.mem_of_lookup_eq_some hl) Finmap.notMem_erase_self
      (by simp)
  | @delete i reply state call env b' hl hs =>
    have hn : .send ch (.error err) b ∈ state.notify env .gone i := by simpa using ho
    exact @erase_noticed _ _ _ _ _ _ i state env _ .deleted hl (by simp) (by simp) hn
  | @expire i state call tripped w env hl hd hw =>
    have hn : .send ch (.error err) b ∈ state.notify env .expiredLeg i := by simpa using ho
    exact @erase_noticed _ _ _ _ _ _ i state env _ .expired hl (by simp) (by simp) hn
  | @reap i state call env hl =>
    have hn : .send ch (.error err) b ∈ state.notify env .gone i := by simpa using ho
    exact @erase_noticed _ _ _ _ _ _ i state env _ .reaped hl (by simp) (by simp) hn
  | trip env hc =>
    have hd : .send ch (.error err) b ∈ drain c env := by simpa using ho
    exact drain_noticed (fun o hm => List.mem_append_left _ hm) hd
  | reset env b' hc =>
    have hd : .send ch (.error err) b ∈ drain c env := by simpa using ho
    exact drain_noticed (fun o hm => List.mem_append_left _ hm) hd
  | _ => simp at ho

theorem settles_fails (h : Settles c os os' c') (ho : .send ch (.error err) b ∈ os') :
    err = .unavailable := by
  cases h with
  | calm => cases ho
  | trip env ht hc =>
    simp only [drain, List.mem_append, List.mem_flatMap, List.mem_singleton, reduceCtorEq,
      or_false] at ho
    obtain ⟨e, -, ho⟩ := ho
    exact (notify_sends ho).2.symm

theorem attachError_kind (call : BranchCall) :
    attachError call ≠ .notFound id ∧ attachError call ≠ .gone id := by
  unfold attachError
  split
  next e _ => cases e <;> simp [SignalError.ofPipelineError]
  next => simp

theorem detachError_kind (call : BranchCall) :
    detachError call ≠ .notFound id ∧ detachError call ≠ .gone id := by
  unfold detachError
  split
  next e _ => cases e <;> simp [SignalError.ofPipelineError]
  next => simp

theorem rejects_notFound {cmd : Command} {calls : List Effect}
    (h : Rejects c cmd calls (.notFound id)) : byId cmd = some id ∧ id ∉ c.connections := by
  generalize he : SignalError.notFound id = e at h
  cases h with
  | attach hl hf => exact absurd he.symm (attachError_kind _).1
  | detach hl hf => exact absurd he.symm (detachError_kind _).1
  | unknownOffer hl | unknownAnswer hl | unknownRemove hl =>
    cases he
    exact ⟨rfl, Finmap.lookup_eq_none.mp hl⟩
  | _ => cases he

theorem rejects_not_gone {cmd : Command} {calls : List Effect}
    (h : Rejects c cmd calls err) : err ≠ .gone id := by
  cases h with
  | attach hl hf => exact (attachError_kind _).2
  | detach hl hf => exact (detachError_kind _).2
  | _ => simp

theorem notice_not_notFound (state : ConnectionState) (n : WaiterNotice) (i : ConnectionId) :
    state.notice i n ≠ .notFound id := by
  cases n <;> cases state <;> simp [ConnectionState.notice]

theorem notice_gone {state : ConnectionState} {n : WaiterNotice} {i : ConnectionId}
    (h : state.notice i n = .gone id) : n = .gone ∧ i = id := by
  cases n <;> cases state <;> simp_all [ConnectionState.notice]

end Errors

section Steps

variable {c c' : Coordinator} {l : Event × List Effect} {ch : Nat} {b : Bool}
  {err : SignalError} {id : ConnectionId}

theorem Fails.lift {cs : List Command} {os os' : List Effect} {d : Coordinator}
    (h : Fails c cs os d ch err) (hos : ∀ o ∈ os, o ∈ os')
    (hd : ∀ id ∉ d.connections, id ∉ c'.connections) : Fails c cs os' c' ch err := by
  cases h with
  | refused hc hch hr => exact .refused hc hch hr
  | noticed hl hp hn he hr => exact .noticed hl hp (hd _ hn) (hos _ he) hr
  | abandoned hc hch hi hb hn he => exact .abandoned hc hch hi hb (hd _ hn) (hos _ he)

/-- What moves that take no command send is owed to entries that were there
before them and are gone after them. -/
theorem uncommanded_fails {ms : List (List Command × List Effect)} (h : Run Move c ms c')
    (hn : ms.flatMap Prod.fst = []) (ho : .send ch (.error err) b ∈ ms.flatMap Prod.snd) :
    Fails c [] (ms.flatMap Prod.snd) c' ch err := by
  induction h with
  | nil c => cases ho
  | @cons c d c' m ms hm hr ih =>
    obtain ⟨cs, os⟩ := m
    obtain ⟨rfl, hn⟩ : cs = [] ∧ ms.flatMap Prod.fst = [] := by simpa using hn
    have hgone : ∀ id ∉ d.connections, id ∉ c'.connections := fun id hid hid' => by
      obtain ⟨state, hl⟩ := Finmap.mem_iff.mp hid'
      exact hid (Finmap.mem_of_lookup_eq_some ((uncommanded_run hr hn).1 id state hl))
    rw [List.flatMap_cons] at ho ⊢
    obtain ho | ho := List.mem_append.mp ho
    · exact (move_fails hm ho).lift (fun o => List.mem_append_left _) hgone
    · cases ih hn ho with
      | refused hc => cases hc
      | noticed hl hp hid he hne =>
        exact .noticed (uncommanded_entry hm hl) hp hid (List.mem_append_right _ he) hne
      | abandoned hc => cases hc

theorem step_fails (h : c.Step l c') (ho : .send ch (.error err) b ∈ l.2) :
    err = .unavailable ∨ Fails c (commands l.1) l.2 c' ch err := by
  obtain ⟨e, os⟩ := l
  cases e with
  | command cmd env =>
    obtain ⟨os₁, c₁, os₂, hm, hs, rfl⟩ := handle_move h.1 h.2
    obtain ho | ho := List.mem_append.mp ho
    · refine .inr ((move_fails hm ho).lift (fun o => List.mem_append_left _) fun id hid hid' => ?_)
      obtain ⟨state, hl⟩ := Finmap.mem_iff.mp hid'
      obtain he | he := hs.lookup id
      · exact hid (Finmap.mem_of_lookup_eq_some (he ▸ hl))
      · cases he.symm.trans hl
    · exact .inl (settles_fails hs ho)
  | branchFailure branch env =>
    obtain ⟨ms, hms, hcmd, rfl⟩ := step_moves h
    exact .inr (uncommanded_fails hms hcmd ho)
  | sweepTick env =>
    obtain ⟨ms, hms, hcmd, rfl⟩ := step_moves h
    exact .inr (uncommanded_fails hms hcmd ho)

theorem commands_eq_single {e : Event} {cmd : Command} (h : commands e = [cmd]) :
    ∃ env, e = .command cmd env := by
  cases e with
  | command cmd' env => exact ⟨env, by rw [List.singleton_inj.mp h]⟩
  | branchFailure => cases h
  | sweepTick => cases h

theorem step_notFound (h : c.Step l c') (ho : .send ch (.error (.notFound id)) b ∈ l.2) :
    ∃ cmd env, l.1 = .command cmd env ∧ cmd.channel = ch ∧ byId cmd = some id ∧
      id ∉ c.connections := by
  obtain he | hf := step_fails h ho
  · cases he
  generalize he : SignalError.notFound id = e, hcs : commands l.1 = cs at hf
  cases hf with
  | refused hc hch hr =>
    subst he
    obtain ⟨env, hl⟩ := commands_eq_single (hcs.trans hc)
    obtain ⟨hi, hn⟩ := rejects_notFound hr
    exact ⟨_, env, hl, hch, hi, hn⟩
  | noticed => exact absurd he.symm (notice_not_notFound _ _ _)
  | abandoned => cases he

theorem step_gone (h : c.Step l c') (ho : .send ch (.error (.gone id)) b ∈ l.2) :
    GoneTo c l c' ch id := by
  obtain he | hf := step_fails h ho
  · cases he
  generalize he : SignalError.gone id = e, hcs : commands l.1 = cs at hf
  cases hf with
  | refused hc hch hr => exact absurd he.symm (rejects_not_gone hr)
  | @noticed i state reason hl hp hn hend hr =>
    obtain ⟨hw, rfl⟩ := notice_gone he.symm
    have hreason : reason ∈ [.deleted, .reaped] := by
      cases reason <;> simp_all [TerminateReason.policy]
    exact ⟨Finmap.mem_of_lookup_eq_some hl, hn, .inl ⟨state, reason, hreason, hl, hp, hend⟩⟩
  | abandoned hc hch hi hb hn hend =>
    cases he
    obtain ⟨env, hl⟩ := commands_eq_single (hcs.trans hc)
    exact ⟨hb, hn, .inr ⟨_, env, hl, hch, hi, hend⟩⟩

theorem step_unknown {cmd : Command} {env : Env} {os : List Effect}
    (h : c.Step (.command cmd env, os) c') (hi : byId cmd = some id) (hn : id ∉ c.connections) :
    c' = c ∧ os = [.send cmd.channel (.error (.notFound id)) (env.listening cmd.channel)] := by
  have hl : c.connections.lookup id = none := Finmap.lookup_eq_none.mpr hn
  have ht := h.2
  cases cmd with
  | offerReceived i sdp reply =>
    cases hi
    simp only [Coordinator.turn, Coordinator.handle, Coordinator.offerReceived, hl,
      Option.some.injEq, Prod.mk.injEq] at ht
    exact ⟨ht.1.symm, ht.2.symm⟩
  | answerReceived i sdp reply =>
    cases hi
    simp only [Coordinator.turn, Coordinator.handle, Coordinator.answerReceived, hl,
      Option.some.injEq, Prod.mk.injEq] at ht
    exact ⟨ht.1.symm, ht.2.symm⟩
  | removeConnection i reply =>
    cases hi
    simp only [Coordinator.turn, Coordinator.handle, Coordinator.removeConnection,
      terminate_deleted_absent hl, Option.bind_eq_bind, Option.bind_some, Option.some.injEq,
      Prod.mk.injEq] at ht
    exact ⟨ht.1.symm, ht.2.symm⟩
  | _ => cases hi

theorem step_absent (h : c.Step l c') (hn : id ∉ c.connections) (hc : creates id l.2 = 0) :
    id ∉ c'.connections := by
  intro hin
  obtain ⟨e, os⟩ := l
  obtain ⟨state, hl⟩ := Finmap.mem_iff.mp hin
  have hno : ∀ state, c.connections.lookup id ≠ some state :=
    fun state hl => hn (Finmap.mem_of_lookup_eq_some hl)
  obtain ⟨-, hl', -⟩ | ⟨cmd, env, rfl, hm⟩ := step_entry h hl
  · exact hno _ hl'
  · obtain hl' | he := move_entry hm hl
    · exact hno _ hl'
    · cases he with
      | registered _ _ hs => simp [creates, creation, hs] at hc
      | offered _ ho => exact hno _ ho
      | established _ _ ho => exact hno _ ho

theorem run_absent {ls : List (Event × List Effect)} (h : Run Coordinator.Step c ls c')
    (hn : id ∉ c.connections) (hc : creates id (trace ls) = 0) : id ∉ c'.connections := by
  induction h with
  | nil => exact hn
  | @cons c d c' l ls hs _ ih =>
    have ht : trace (l :: ls) = l.2 ++ trace ls := rfl
    rw [ht, creates, List.countP_append, Nat.add_eq_zero_iff] at hc
    exact ih (step_absent hs hn hc.1) hc.2

end Steps

section Runs

variable {config : CoordinatorConfig} {ls ls₁ ls₂ : List (Event × List Effect)} {c u : Coordinator}
  {cmd : Command} {env : Env} {os : List Effect} {ch : Nat} {id : ConnectionId}
  {r : Except SignalError Payload} {b : Bool}

theorem send_taken (h : Run Coordinator.Step (.new config) ls c) (ho : .send ch r b ∈ trace ls) :
    ch ∈ (taken ls).map Command.channel := by
  have hm : ch ∈ Waiters.sent (trace ls) :=
    Multiset.mem_coe.mpr (List.mem_filterMap.mpr ⟨_, ho, rfl⟩)
  rw [← Multiset.mem_coe, ← Waiters.run_conserves h]
  exact Multiset.mem_add.mpr (.inl hm)

theorem run_at (h : Run Coordinator.Step (.new config) (ls₁ ++ (.command cmd env, os) :: ls₂) c)
    (hu : Run Coordinator.Step (.new config) ls₁ u) :
    ∃ v, u.Step (.command cmd env, os) v ∧ Run Coordinator.Step v ls₂ c := by
  obtain ⟨u', hu', hr⟩ := run_append.mp h
  obtain ⟨-, rfl⟩ := run_unique hu' hu rfl
  exact run_cons.mp hr

theorem channel_apart
    (hn : ((taken (ls₁ ++ (.command cmd env, os) :: ls₂)).map Command.channel).Nodup) :
    cmd.channel ∉ (taken ls₁).map Command.channel ∧
      cmd.channel ∉ (taken ls₂).map Command.channel := by
  have ht : taken (ls₁ ++ (.command cmd env, os) :: ls₂) = taken ls₁ ++ cmd :: taken ls₂ := by
    simp [taken, commands]
  rw [ht, List.map_append, List.map_cons, List.nodup_append, List.nodup_cons] at hn
  exact ⟨fun hm => hn.2.2 _ hm _ (by simp) rfl, hn.2.1.1⟩

theorem run_notFound
    (h : Run Coordinator.Step (.new config) (ls₁ ++ (.command cmd env, os) :: ls₂) c)
    (hn : ((taken (ls₁ ++ (.command cmd env, os) :: ls₂)).map Command.channel).Nodup)
    (hu : Run Coordinator.Step (.new config) ls₁ u) (hi : byId cmd = some id) :
    (∃ i b, .send cmd.channel (.error (.notFound i)) b ∈
      trace (ls₁ ++ (.command cmd env, os) :: ls₂)) ↔ id ∉ u.connections := by
  obtain ⟨v, hs, hr⟩ := run_at h hu
  obtain ⟨h₁, h₂⟩ := channel_apart hn
  have ht : trace (ls₁ ++ (.command cmd env, os) :: ls₂) = trace ls₁ ++ (os ++ trace ls₂) := by
    simp [trace]
  rw [ht]
  constructor
  · rintro ⟨i, b, ho⟩
    obtain ho | ho := List.mem_append.mp ho
    · exact absurd (send_taken hu ho) h₁
    obtain ho | ho := List.mem_append.mp ho
    · obtain ⟨cmd', env', he, -, hi', habs⟩ := step_notFound hs ho
      cases he
      rw [hi] at hi'
      cases hi'
      exact habs
    · -- A later turn answers `NotFound` to its own command only.
      obtain ⟨l, hl, ho⟩ := List.mem_flatMap.mp ho
      obtain ⟨d, d', hd⟩ := hr.step_of_mem hl
      obtain ⟨cmd', env', he, hch, -⟩ := step_notFound hd ho
      refine absurd (List.mem_map.mpr ⟨cmd', ?_, hch⟩) h₂
      exact List.mem_flatMap.mpr ⟨l, hl, by simp [he, commands]⟩
  · intro habs
    obtain ⟨-, rfl⟩ := step_unknown hs hi habs
    exact ⟨id, env.listening cmd.channel, by simp⟩

theorem run_sends_once (h : Run Coordinator.Step (.new config) ls c)
    (hn : ((taken ls).map Command.channel).Nodup) (ch : Nat) :
    ((trace ls).filterMap Waiters.channel).count ch ≤ 1 := by
  have hc := congrArg (Multiset.count ch) (Waiters.run_conserves h)
  rw [Multiset.count_add, Multiset.coe_count] at hc
  have hs : Multiset.count ch (Waiters.sent (trace ls)) =
      ((trace ls).filterMap Waiters.channel).count ch := Multiset.coe_count _ _
  have hle : ((taken ls).map Command.channel).count ch ≤ 1 := List.nodup_iff_count_le_one.mp hn ch
  omega

theorem removedOn_channel {o : Effect} {x : Except SignalError Unit}
    (h : removedOn ch o = some x) : Waiters.channel o = some ch := by
  unfold removedOn at h
  split at h
  · split at h
    next he => exact congrArg some he
    next => cases h
  · split at h
    next he => exact congrArg some he
    next => cases h
  · cases h

theorem removed_nil {t : List Effect} (h : (t.filterMap Waiters.channel).count ch = 0) :
    t.filterMap (removedOn ch) = [] := by
  refine List.filterMap_eq_nil_iff.mpr fun o ho => ?_
  by_contra hne
  obtain ⟨x, hx⟩ := Option.ne_none_iff_exists'.mp hne
  refine List.count_eq_zero.mp h (List.mem_filterMap.mpr ⟨o, ho, removedOn_channel hx⟩)

theorem run_repeated {reply : UnitReply}
    (h : Run Coordinator.Step (.new config)
      (ls₁ ++ (.command (.removeConnection id reply) env, os) :: ls₂) c)
    (hn : ((taken (ls₁ ++ (.command (.removeConnection id reply) env, os) :: ls₂)).map
      Command.channel).Nodup)
    (hu : Run Coordinator.Step (.new config) ls₁ u) (habs : id ∉ u.connections) :
    responses (trace (ls₁ ++ (.command (.removeConnection id reply) env, os) :: ls₂)) reply =
      if env.listening reply.channel then [⟨.noContent, [], ""⟩] else [] := by
  obtain ⟨v, hs, -⟩ := run_at h hu
  obtain ⟨-, rfl⟩ := step_unknown hs rfl habs
  have hone := run_sends_once h hn reply.channel
  have ht : ∀ os, trace (ls₁ ++ (.command (.removeConnection id reply) env, os) :: ls₂) =
      trace ls₁ ++ (os ++ trace ls₂) := by simp [trace]
  rw [ht] at hone ⊢
  simp only [List.filterMap_append, List.count_append, Command.channel, List.filterMap_cons,
    Waiters.channel, List.filterMap_nil, List.count_singleton_self] at hone
  have h₁ : (trace ls₁).filterMap (removedOn reply.channel) = [] := removed_nil (by omega)
  have h₂ : (trace ls₂).filterMap (removedOn reply.channel) = [] := removed_nil (by omega)
  simp only [responses, List.filterMap_append, h₁, h₂, List.nil_append, List.append_nil,
    Command.channel]
  cases env.listening reply.channel <;>
    simp [removedOn, Routes.request, Routes.delete, Routes.respond]

end Runs

section Counting

variable {c c' : Coordinator} {cs cs' : List Command} {os os' : List Effect} {id : ConnectionId}
  {cmd : Command}

theorem deleted_iff : deleted id os cmd = true ↔
    ∃ reply, cmd = .removeConnection id reply ∧ .send reply.channel (.ok .unit) true ∈ os := by
  cases cmd with
  | removeConnection i reply =>
    simp only [deleted, responses, Routes.request, Option.getD_some, List.any_map,
      Bool.and_eq_true, beq_iff_eq, List.any_eq_true, List.mem_filterMap, Function.comp_apply,
      Routes.delete_ok]
    constructor
    · rintro ⟨rfl, r, ⟨o, ho, hr⟩, rfl⟩
      unfold removedOn at hr
      split at hr
      · split at hr
        next he => exact ⟨reply, rfl, he ▸ ho⟩
        next => cases hr
      · split at hr <;> cases hr
      · cases hr
    · rintro ⟨reply', he, ho⟩
      cases he
      exact ⟨rfl, .ok (), ⟨_, ho, if_pos rfl⟩, rfl⟩
  | _ => simp [deleted]

theorem move_unit {ch : Nat} {b : Bool} (hm : Move c (cs, os) c')
    (ho : .send ch (.ok .unit) b ∈ os) : ch ∈ cs.map Command.channel := by
  cases cs with
  | nil => exact absurd ho (uncommanded_sends_errors hm)
  | cons cmd cs =>
    obtain rfl : cs = [] := by cases hm <;> rfl
    generalize hp : Payload.unit = p at ho
    cases move_delivers hm ho with
    | own => simp
    | _ => cases hp

theorem move_single (hm : Move c (cs, os) c') : cs.length ≤ 1 := by
  cases hm <;> simp

theorem move_deleted (hm : Move c (cs, os) c') (hc : cmd ∈ cs) (hd : deleted id os cmd = true) :
    id ∈ c.connections ∧ id ∉ c'.connections := by
  obtain ⟨reply, rfl, ho⟩ := deleted_iff.mp hd
  cases hm with
  | reject b hr =>
    obtain rfl := List.mem_singleton.mp hc
    cases hr <;> simp at ho
  | delete env b hl hs =>
    cases List.mem_singleton.mp hc
    exact ⟨Finmap.mem_of_lookup_eq_some hl, Finmap.notMem_erase_self⟩
  | _ => simp at hc

theorem move_created (hm : Move c (cs, os) c') (hn : id ∉ c.connections)
    (hin : id ∈ c'.connections) : 1 ≤ creates id os := by
  obtain ⟨state, hl⟩ := Finmap.mem_iff.mp hin
  have hno : ∀ state, c.connections.lookup id ≠ some state :=
    fun state hl => hn (Finmap.mem_of_lookup_eq_some hl)
  obtain hl' | he := move_entry hm hl
  · exact absurd hl' (hno _)
  · cases he with
    | registered _ _ hs => simp [creates, creation, hs]
    | offered _ ho => exact absurd ho (hno _)
    | established _ _ ho => exact absurd ho (hno _)

def present (c : Coordinator) (id : ConnectionId) : Nat := if id ∈ c.connections then 1 else 0

theorem move_deletes (hm : Move c (cs, os) c') (id : ConnectionId) :
    deletes id cs os + present c' id ≤ present c id + creates id os := by
  have hle : deletes id cs os ≤ 1 := (List.countP_le_length).trans (move_single hm)
  have hd : deletes id cs os ≠ 0 → id ∈ c.connections ∧ id ∉ c'.connections := by
    intro h
    obtain ⟨cmd, hc, hcmd⟩ := List.countP_pos_iff.mp (Nat.pos_of_ne_zero h)
    exact move_deleted hm hc hcmd
  have hb : id ∉ c.connections → id ∈ c'.connections → 1 ≤ creates id os := move_created hm
  unfold present
  by_cases h : id ∈ c.connections
  · by_cases h' : id ∈ c'.connections
    · have : deletes id cs os = 0 := by_contra fun hne => (hd hne).2 h'
      simp [h, h', this]
    · simp [h, h']
      omega
  · have : deletes id cs os = 0 := by_contra fun hne => h (hd hne).1
    by_cases h' : id ∈ c'.connections
    · simpa [h, h', this] using hb h h'
    · simp [h, h', this]

theorem deletes_append (hn : ((cs ++ cs').map Command.channel).Nodup)
    (h : ∀ ch b, .send ch (.ok .unit) b ∈ os → ch ∈ cs.map Command.channel)
    (h' : ∀ ch b, .send ch (.ok .unit) b ∈ os' → ch ∈ cs'.map Command.channel) :
    deletes id (cs ++ cs') (os ++ os') = deletes id cs os + deletes id cs' os' := by
  rw [List.map_append, List.nodup_append] at hn
  rw [deletes, List.countP_append]
  congr 1
  · refine List.countP_congr fun cmd hc => ?_
    simp only [deleted_iff, List.mem_append]
    refine exists_congr fun reply => and_congr_right fun he => or_iff_left fun ho => ?_
    exact hn.2.2 _ (List.mem_map_of_mem hc) _ (h' _ _ ho) (by rw [he]; rfl)
  · refine List.countP_congr fun cmd hc => ?_
    simp only [deleted_iff, List.mem_append]
    refine exists_congr fun reply => and_congr_right fun he => or_iff_right fun ho => ?_
    exact hn.2.2 _ (h _ _ ho) _ (List.mem_map_of_mem hc) (by rw [he]; rfl)

theorem run_deletes {config : CoordinatorConfig} {ls : List (Event × List Effect)}
    (h : Run Coordinator.Step (.new config) ls c)
    (hn : ((taken ls).map Command.channel).Nodup) (id : ConnectionId) :
    deletes id (taken ls) (trace ls) + present c id ≤ creates id (trace ls) := by
  refine (move_history (P := fun cs os d => (cs.map Command.channel).Nodup →
    (∀ ch b, .send ch (.ok .unit) b ∈ os → ch ∈ cs.map Command.channel) ∧
      deletes id cs os + present d id ≤ creates id os) h ?_ ?_ hn).2
  · intro _
    exact ⟨by simp, by simp [deletes, creates, present, Coordinator.new, Finmap.notMem_empty]⟩
  · intro cs os d cs' os' d' hp hm hnd
    obtain ⟨hu, hle⟩ := hp (by
      rw [List.map_append] at hnd
      exact hnd.of_append_left)
    have hu' : ∀ ch b, .send ch (.ok .unit) b ∈ os' → ch ∈ cs'.map Command.channel :=
      fun ch b ho => move_unit hm ho
    refine ⟨fun ch b ho => ?_, ?_⟩
    · rw [List.map_append, List.mem_append]
      exact (List.mem_append.mp ho).imp (hu ch b) (hu' ch b)
    · have hmv := move_deletes hm id
      rw [deletes_append hnd hu hu', creates, List.countP_append]
      simp only [creates] at hle hmv
      omega

end Counting

/-- Every run keeps the contract: `NotFound` to exactly the commands that find
no entry, `Gone` only as an entry ends, and no DELETE confirmed twice. -/
theorem wire_contract {config : CoordinatorConfig} {ls : List (Event × List Effect)}
    {c : Coordinator} (h : Run Coordinator.Step (.new config) ls c)
    (hn : ((taken ls).map Command.channel).Nodup) : Contract config ls where
  notFound := by
    rintro ls₁ cmd env os ls₂ u id rfl hu hi
    exact run_notFound h hn hu hi
  gone := by
    rintro ls₁ l ls₂ u v ch id b rfl hu hs ho
    have hg := step_gone hs ho
    refine ⟨hg, ?_⟩
    obtain ⟨state, reason, -, hl, hp, -⟩ | ⟨cmd, env, he, hch, hi, -⟩ := hg.request
    · obtain hq | ⟨cmd, hm, hid, hf⟩ := Waiters.run_placed hu id state hl
      · rw [hq] at hp
        cases hp
      · exact ⟨cmd, by simp [hm], Option.some.inj (hf.channel.symm.trans hp), hid⟩
    · refine ⟨cmd, by simp [he, commands], hch, ?_⟩
      cases cmd <;> first | exact hi | cases hi
  forgotten := by
    rintro ls₁ ls₂ cmd env os ls₃ u id rfl hu habs hc hi
    obtain ⟨u', hu', hr⟩ := run_append.mp h
    obtain ⟨-, rfl⟩ := run_unique hu' hu rfl
    obtain ⟨v, hv, hr⟩ := run_append.mp hr
    obtain ⟨w, hs, -⟩ := run_cons.mp hr
    obtain ⟨-, rfl⟩ := step_unknown hs hi (run_absent hv habs hc)
    exact ⟨_, List.mem_singleton_self _⟩
  deletes id := Nat.le_of_add_right_le (run_deletes h hn id)
  repeated := by
    rintro ls₁ id reply env os ls₂ u rfl hu habs
    rw [run_repeated h hn hu habs]
    cases env.listening reply.channel <;> simp

/-- A viewer is deleted while it waits for its offer, and deleted again. -/
theorem wire_contract_delete : ∃ ls c, Run Coordinator.Step (.new {}) ls c ∧
    responses (trace ls) ⟨1⟩ = [⟨.ok, [], ""⟩] ∧
    responses (trace ls) ⟨2⟩ = [⟨.noContent, [], ""⟩] ∧ Contract {} ls := by
  obtain ⟨ls, c, h, -, hv⟩ := replayed Coordinator.next Coordinator.Step
    (fun _ _ _ _ => Coordinator.next_eq_some.mp) (.new {})
    [.command (.createConnection "a" ⟨0⟩) (.calm 0 []),
      .command (.removeConnection "a" ⟨1⟩) (.calm 1 ["a"]),
      .command (.removeConnection "a" ⟨2⟩) (.calm 2 [])]
    ([0, 1, 2], [⟨.ok, [], ""⟩], [⟨.noContent, [], ""⟩])
    (fun r => ((taken r.2).map Command.channel, responses (trace r.2) ⟨1⟩,
      responses (trace r.2) ⟨2⟩)) (by decide)
  obtain ⟨ht, h₁, h₂⟩ : (taken ls).map Command.channel = [0, 1, 2] ∧
      responses (trace ls) ⟨1⟩ = [⟨.ok, [], ""⟩] ∧
      responses (trace ls) ⟨2⟩ = [⟨.noContent, [], ""⟩] := by simpa using hv
  exact ⟨ls, c, h, h₁, h₂, wire_contract h (by rw [ht]; decide)⟩

end SrtWhep.WireContract
