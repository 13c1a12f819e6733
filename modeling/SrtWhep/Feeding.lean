import SrtWhep.Feeding.Courses

namespace SrtWhep.Feeding

open Library.Runs Library.Tables Moves Deliveries Branches Handshake

def AnsweredIn (id : ConnectionId) (l : Event × List Effect) : Prop :=
  ∃ sdp reply env ch, l.1 = .command (.answerReceived id sdp reply) env ∧
    .send ch (.ok (.answer sdp)) true ∈ l.2

def call : Effect → Option (Feed × Bool)
  | .recordFailure _ tripped => some (.failure, tripped)
  | .recordSuccess _ => some (.success, false)
  | _ => none

def calls (os : List Effect) : List (Feed × Bool) := os.filterMap call

def kind : Watchdog.Record × Bool → Feed × Bool
  | (.failure _, tripped) => (.failure, tripped)
  | (.success _, tripped) => (.success, tripped)

/-- A connection from its creation on: still in the map, or given up by the
last of its steps. -/
inductive Lifetime (config : CoordinatorConfig) (id : ConnectionId) (whep : OfferReply)
    (ls : List (Event × List Effect)) : List (Event × List Effect) → Coordinator → Prop
  | live {ms c} : Incarnation config id whep ls ms c → Lifetime config id whep ls ms c
  | gone {ms c l c'} : Incarnation config id whep ls ms c → c.Step l c' → id ∉ c'.connections →
      Lifetime config id whep ls (ms ++ [l]) c'

/-- What one connection has fed the watchdog: at most one call, and which one
is told by how it ended and whether it was answered. -/
structure FedOnce (id : ConnectionId) (ms : List (Event × List Effect)) : Prop where
  once : (feeds id (trace ms)).length ≤ 1
  failure : .failure ∈ feeds id (trace ms) ↔
    ∃ reason ∈ endings id (trace ms), reason ∈ [.expired, .peerGone]
  success : .success ∈ feeds id (trace ms) ↔ ∃ l ∈ ms, AnsweredIn id l
  unfed : (∀ l ∈ ms, ¬ AnsweredIn id l) →
    ∀ reason ∈ endings id (trace ms), reason ∈ [.deleted, .reaped, .reset] →
      feeds id (trace ms) = []

/-- What one turn makes of the watchdog: its state comes of the calls made,
each for an entry the turn met, but for the clear of a Reset; and a rejected
command makes none. -/
structure TurnFeeds (c : Coordinator) (l : Event × List Effect) (c' : Coordinator) : Prop where
  records : ∃ rs, Run Watchdog.Step c.watchdog rs c'.watchdog ∧ rs.map kind = calls l.2
  known : ∀ id, feeds id l.2 ≠ [] → id ∈ c.connections
  cleared : .recordSuccess none ∈ l.2 → ∃ reply env, l.1 = .command (.reset reply) env
  rejected : ∀ cmd env err b, l.1 = .command cmd env → .send cmd.channel (.error err) b ∈ l.2 →
    (∀ id, err ≠ .gone id) → calls l.2 = []

section Answers

variable {c c' : Coordinator} {id : ConnectionId}

theorem ends_no_success {s t : Standing} {fs : List Feed} {rs : List TerminateReason}
    (h : Ends s fs rs t) : .success ∉ fs := by
  cases h <;> simp

/-- The success of an id is recorded by the turn that delivers its answer. -/
theorem step_answered {l : Event × List Effect} (h : c.Step l c') :
    .success ∈ feeds id l.2 ↔ AnsweredIn id l := by
  obtain ⟨e, os⟩ := l
  have hquiet : commands e = [] → (.success ∈ feeds id os ↔ AnsweredIn id (e, os)) := by
    intro hn
    obtain ⟨ms, hms, hcmd, rfl⟩ := step_moves h
    refine iff_of_false (ends_no_success (uncommanded_run_ends hms (hcmd.trans hn))) ?_
    rintro ⟨sdp, reply, env, ch, he, -⟩
    rw [show e = _ from he] at hn
    cases hn
  cases e with
  | command cmd env =>
    obtain ⟨os₁, c₁, os₂, hm, hs, rfl⟩ := handle_move h.1 h.2
    have hleft : .success ∈ feeds id (os₁ ++ os₂) ↔ .success ∈ feeds id os₁ := by
      simp [ends_no_success (settles_ends hs)]
    have hright : AnsweredIn id (.command cmd env, os₁ ++ os₂) ↔
        AnsweredIn id (.command cmd env, os₁) := by
      simp [AnsweredIn, settles_sends_errors hs]
    rw [hleft, hright]
    cases hm with
    | reject b hr => cases hr <;> simp [AnsweredIn]
    | @establish i sdp reply whip d since b hl =>
      simp only [AnsweredIn]
      by_cases hi : i = id <;> simp [hi]
    | delete env' b hl hs => simp [AnsweredIn]
    | reset env' b hc => simp [AnsweredIn]
    | _ => simp [AnsweredIn]
  | branchFailure branch env => exact hquiet rfl
  | sweepTick env => exact hquiet rfl

theorem run_answered {ms : List (Event × List Effect)} (h : Run Coordinator.Step c ms c') :
    .success ∈ feeds id (trace ms) ↔ ∃ l ∈ ms, AnsweredIn id l := by
  induction h with
  | nil c => simp [trace]
  | @cons c d c' l ms hs _ ih =>
    have ht : trace (l :: ms) = l.2 ++ trace ms := rfl
    simp [ht, step_answered hs, ih]

end Answers

section Calls

variable {c c' : Coordinator} {cs : List Command} {os os' : List Effect}

@[simp] theorem calls_nil : calls [] = [] := rfl

@[simp] theorem calls_append : calls (os ++ os') = calls os ++ calls os' :=
  List.filterMap_append

@[simp] theorem calls_cons (o : Effect) : calls (o :: os) = (call o).toList ++ calls os := by
  cases o <;> rfl

@[simp] theorem calls_notify (state : ConnectionState) (env : Env) (n : WaiterNotice)
    (i : ConnectionId) : calls (state.notify env n i) = [] := by
  rw [ConnectionState.notify_eq]
  cases state.parked <;> rfl

@[simp] theorem calls_drain (c : Coordinator) (env : Env) : calls (drain c env) = [] := by
  rw [drain]
  induction walk c.connections env.order with
  | nil => rfl
  | cons e es ih => simpa [call] using ih

theorem failure_records {w w' : Watchdog} {now : Instant} {tripped : Bool}
    (h : w.recordFailure now = some (tripped, w')) :
    ∃ rs, Run Watchdog.Step w rs w' ∧ rs.map kind = [(.failure, tripped)] :=
  ⟨[(.failure now, tripped)], .single (by simp [Watchdog.Step, Watchdog.record, h]), rfl⟩

theorem success_records (w : Watchdog) :
    ∃ rs, Run Watchdog.Step w rs w.recordSuccess ∧ rs.map kind = [(.success, false)] :=
  ⟨[(.success 0, false)], .single rfl, rfl⟩

theorem move_records (hm : Move c (cs, os) c') :
    ∃ rs, Run Watchdog.Step c.watchdog rs c'.watchdog ∧ rs.map kind = calls os := by
  cases hm with
  | reject b hr => exact ⟨[], .nil _, by cases hr <;> rfl⟩
  | establish since b hl => exact success_records _
  | abandonOffer b hl hw => exact failure_records hw
  | abandonAnswer b hl hw => exact failure_records hw
  | expire env hl hd hw => simpa [call] using failure_records hw
  | reset env b hc => simpa [call] using success_records _
  | _ => exact ⟨[], .nil _, by simp [call]⟩

theorem step_records {l : Event × List Effect} (h : c.Step l c') :
    ∃ rs, Run Watchdog.Step c.watchdog rs c'.watchdog ∧ rs.map kind = calls l.2 := by
  obtain ⟨ms, hms, -, hos⟩ := step_moves h
  rw [← hos]
  clear hos h
  induction hms with
  | nil c => exact ⟨[], .nil _, rfl⟩
  | @cons c d c' m ms hm _ ih =>
    obtain ⟨rs, hr, hk⟩ := move_records hm
    obtain ⟨rs', hr', hk'⟩ := ih
    exact ⟨rs ++ rs', hr.append hr', by simp [hk, hk']⟩

theorem move_clears (hm : Move c (cs, os) c') (h : .recordSuccess none ∈ os) :
    ∃ reply, cs = [.reset reply] := by
  cases hm with
  | reject b hr => cases hr <;> simp at h
  | reset env b hc => exact ⟨_, rfl⟩
  | _ => simp [drain, ConnectionState.notify_eq] at h

theorem step_clears {l : Event × List Effect} (h : c.Step l c')
    (ho : .recordSuccess none ∈ l.2) : ∃ reply env, l.1 = .command (.reset reply) env := by
  obtain ⟨e, os⟩ := l
  obtain ⟨ms, hms, hcmd, rfl⟩ := step_moves h
  obtain ⟨⟨cs, os⟩, hm, ho⟩ := List.mem_flatMap.mp ho
  have hcs : ∀ cmd ∈ cs, cmd ∈ commands e := by
    rw [← hcmd]
    exact fun cmd hc => List.mem_flatMap.mpr ⟨_, hm, hc⟩
  obtain ⟨u, v, hmv⟩ := hms.step_of_mem hm
  obtain ⟨reply, rfl⟩ := move_clears hmv ho
  have hmem := hcs _ (List.mem_singleton_self _)
  cases e with
  | command cmd env => exact ⟨reply, env, by rw [List.mem_singleton.mp hmem]⟩
  | branchFailure => cases hmem
  | sweepTick => cases hmem

theorem step_known {l : Event × List Effect} (h : c.Step l c') {id : ConnectionId}
    (hf : feeds id l.2 ≠ []) : id ∈ c.connections := by
  by_contra hn
  have hc := step_course h id
  rw [standing_eq_absent.mpr hn] at hc
  exact hf hc.of_absent.1

theorem rejects_calls {cmd : Command} {err : SignalError} (h : Rejects c cmd os err) :
    calls os = [] := by
  cases h <;> rfl

theorem turn_feeds {config : CoordinatorConfig} {ls : List (Event × List Effect)}
    {l : Event × List Effect} (h : Run Coordinator.Step (.new config) ls c) (hs : c.Step l c')
    (hn : ((taken (ls ++ [l])).map Command.channel).Nodup) : TurnFeeds c l c' := by
  refine ⟨step_records hs, fun id => step_known hs, step_clears hs, ?_⟩
  rintro cmd env err b he hr hg
  obtain ⟨e, os⟩ := l
  obtain rfl : e = _ := he
  obtain ⟨os₁, c₁, os₂, hm, hset, rfl⟩ := handle_move hs.1 hs.2
  rw [taken_append, taken_single] at hn
  obtain ⟨rfl, calls', err', b', hrej, rfl⟩ :=
    Rejections.move_rejects (Rejections.fresh_of_run h hn) hm hset hr hg
  obtain ⟨-, -, htrip⟩ := Rejections.rejects_sends hrej
  obtain ⟨rfl, rfl⟩ := hset.of_calm (by simpa using htrip)
  simp [rejects_calls hrej, call]

end Calls

section Lifetimes

variable {config : CoordinatorConfig} {id : ConnectionId} {whep : OfferReply}
  {ls ms : List (Event × List Effect)} {c c' : Coordinator}

def Tally (id : ConnectionId) (ms : List (Event × List Effect)) : Standing → Prop
  | .absent => False
  | .pending => feeds id (trace ms) = [] ∧ endings id (trace ms) = []
  | .established => feeds id (trace ms) = [.success] ∧ endings id (trace ms) = []

theorem Tally.course {s t : Standing} {l : Event × List Effect} (h : Tally id ms s)
    (hc : Course s (feeds id l.2) (endings id l.2) t) (ht : t ≠ .absent) :
    Tally id (ms ++ [l]) t := by
  generalize hf : feeds id l.2 = fs, hr : endings id l.2 = rs at hc
  have hfs : feeds id (trace (ms ++ [l])) = feeds id (trace ms) ++ fs := by simp [hf]
  have hrs : endings id (trace (ms ++ [l])) = endings id (trace ms) ++ rs := by simp [hr]
  cases hc with
  | ends he =>
    cases he with
    | stay =>
      rw [List.append_nil] at hfs hrs
      cases s with
      | absent => exact h
      | pending => exact ⟨hfs.trans h.1, hrs.trans h.2⟩
      | established => exact ⟨hfs.trans h.1, hrs.trans h.2⟩
    | failed => exact absurd rfl ht
    | closed => exact absurd rfl ht
  | born => exact h.elim
  | answered => exact ⟨by rw [hfs, h.1]; rfl, by rw [hrs, h.2]; rfl⟩

theorem incarnation_mem (h : Incarnation config id whep ls ms c) : id ∈ c.connections := by
  cases h <;> assumption

theorem incarnation_tally (h : Incarnation config id whep ls ms c) :
    Tally id ms (standing c id) := by
  induction h with
  | @registered ls c env os c' hr habs hs hin =>
    have hc := step_course hs id
    rw [standing_eq_absent.mpr habs] at hc
    have ha : standing c' id ≠ .absent := mt standing_eq_absent.mp (not_not_intro hin)
    have he : standing c' id ≠ .established := hc.of_absent.2.2
    cases ht : standing c' id with
    | absent => exact (ha ht).elim
    | pending => exact ⟨rfl, rfl⟩
    | established => exact (he ht).elim
  | next _ hs hin ih =>
    exact ih.course (step_course hs id) (mt standing_eq_absent.mp (not_not_intro hin))

theorem Lifetime.run (h : Lifetime config id whep ls ms c) :
    ∃ c₀, Run Coordinator.Step c₀ ms c := by
  cases h with
  | live hi =>
    obtain ⟨c₀, -, hr⟩ := run_append.mp hi.run
    exact ⟨c₀, hr⟩
  | gone hi hs =>
    obtain ⟨c₀, -, hr⟩ := run_append.mp hi.run
    exact ⟨c₀, hr.snoc hs⟩

inductive Total : List Feed → List TerminateReason → Prop
  | waiting : Total [] []
  | answered : Total [.success] []
  | failed {reason} : reason.policy.feedsWatchdog = true → Total [.failure] [reason]
  | closed {fs reason} : fs = [] ∨ fs = [.success] → reason.policy.feedsWatchdog = false →
      Total fs [reason]

theorem Tally.gone {s : Standing} {l : Event × List Effect} (h : Tally id ms s)
    (hc : Course s (feeds id l.2) (endings id l.2) .absent) :
    Total (feeds id (trace (ms ++ [l]))) (endings id (trace (ms ++ [l]))) := by
  simp only [trace_append, trace_single, feeds_append, endings_append]
  generalize feeds id l.2 = fs, endings id l.2 = rs at hc
  cases hc with
  | ends he =>
    cases he with
    | stay => exact h.elim
    | failed hr =>
      rw [h.1, h.2]
      exact .failed hr
    | closed hs hr =>
      cases s with
      | absent => exact h.elim
      | pending =>
        rw [h.1, h.2]
        exact .closed (.inl rfl) hr
      | established =>
        rw [h.1, h.2]
        exact .closed (.inr rfl) hr

theorem Lifetime.total (h : Lifetime config id whep ls ms c) :
    Total (feeds id (trace ms)) (endings id (trace ms)) := by
  cases h with
  | live hi =>
    have ht := incarnation_tally hi
    have ha : standing c id ≠ .absent :=
      mt standing_eq_absent.mp (not_not_intro (incarnation_mem hi))
    cases hs : standing c id with
    | absent => exact absurd hs ha
    | pending =>
      rw [hs] at ht
      rw [ht.1, ht.2]
      exact .waiting
    | established =>
      rw [hs] at ht
      rw [ht.1, ht.2]
      exact .answered
  | gone hi hs hn =>
    have hc := step_course hs id
    rw [standing_eq_absent.mpr hn] at hc
    exact (incarnation_tally hi).gone hc

theorem feedsWatchdog_iff {reason : TerminateReason} :
    reason.policy.feedsWatchdog = true ↔ reason ∈ [.expired, .peerGone] := by
  cases reason <;> decide

theorem Total.length_le {fs : List Feed} {rs : List TerminateReason} (h : Total fs rs) :
    fs.length ≤ 1 := by
  cases h with
  | closed hf => obtain rfl | rfl := hf <;> simp
  | _ => simp

theorem Total.failure_iff {fs : List Feed} {rs : List TerminateReason} (h : Total fs rs) :
    .failure ∈ fs ↔ ∃ reason ∈ rs, reason ∈ [.expired, .peerGone] := by
  simp only [← feedsWatchdog_iff]
  cases h with
  | failed hr => simp [hr]
  | closed hf hr => obtain rfl | rfl := hf <;> simp [hr]
  | _ => simp

/-- The reasons that do not feed the watchdog end an unanswered connection
without a trace in it. -/
theorem Total.unfed {fs : List Feed} {rs : List TerminateReason} (h : Total fs rs)
    (hs : .success ∉ fs) {reason : TerminateReason} (hm : reason ∈ rs)
    (hk : reason ∈ [.deleted, .reaped, .reset]) : fs = [] := by
  cases h with
  | waiting => rfl
  | answered => cases hm
  | failed hr =>
    obtain rfl := List.mem_singleton.mp hm
    cases reason <;> simp_all [TerminateReason.policy]
  | closed hf =>
    obtain rfl | rfl := hf
    · rfl
    · simp at hs

theorem Lifetime.fedOnce (h : Lifetime config id whep ls ms c) : FedOnce id ms := by
  obtain ⟨c₀, hr⟩ := h.run
  have ht := h.total
  refine ⟨ht.length_le, ht.failure_iff, run_answered hr, fun hno reason hm hk => ?_⟩
  refine ht.unfed (fun hs => ?_) hm hk
  obtain ⟨l, hl, ha⟩ := (run_answered hr).mp hs
  exact hno l hl ha

end Lifetimes

/-- In every run each connection feeds the watchdog at most once, for the end
or the answer it had, and nothing else does but the clear of a Reset. -/
theorem watchdog_fed_once {config : CoordinatorConfig} {ls : List (Event × List Effect)}
    {c : Coordinator} (h : Run Coordinator.Step (.new config) ls c)
    (hn : ((taken ls).map Command.channel).Nodup) :
    (∀ id whep ls₀ ms ls₁ d, ls = ls₀ ++ ms ++ ls₁ → Lifetime config id whep ls₀ ms d →
      FedOnce id ms) ∧
    ∀ ls₀ l ls₁ d d', ls = ls₀ ++ l :: ls₁ → Run Coordinator.Step (.new config) ls₀ d →
      d.Step l d' → TurnFeeds d l d' ∧ ∀ id, feeds id l.2 ≠ [] →
        ∃ whep ls₂ ms, ls₀ = ls₂ ++ ms ∧ Incarnation config id whep ls₂ ms d := by
  refine ⟨fun id whep ls₀ ms ls₁ d _ hl => hl.fedOnce, ?_⟩
  rintro ls₀ l ls₁ d d' rfl hr hs
  have hn' : ((taken (ls₀ ++ [l])).map Command.channel).Nodup := by
    rw [List.append_cons, taken_append, List.map_append] at hn
    exact hn.of_append_left
  have ht := turn_feeds hr hs hn'
  exact ⟨ht, fun id hf => exists_incarnation hr id (ht.known id hf)⟩

theorem watchdog_fed_once_expiry : ∃ ls c, Run Coordinator.Step (.new {}) ls c ∧
    calls (trace ls) = [(.failure, false)] ∧
    (∀ id whep ls₀ ms ls₁ d, ls = ls₀ ++ ms ++ ls₁ → Lifetime {} id whep ls₀ ms d →
      FedOnce id ms) ∧
    ∀ ls₀ l ls₁ d d', ls = ls₀ ++ l :: ls₁ → Run Coordinator.Step (.new {}) ls₀ d →
      d.Step l d' → TurnFeeds d l d' ∧ ∀ id, feeds id l.2 ≠ [] →
        ∃ whep ls₂ ms, ls₀ = ls₂ ++ ms ∧ Incarnation {} id whep ls₂ ms d := by
  obtain ⟨ls, c, h, -, hv⟩ := replayed Coordinator.next Coordinator.Step
    (fun _ _ _ _ => Coordinator.next_eq_some.mp) (.new {})
    [.command (.createConnection "a" ⟨0⟩) (.calm 0 []),
      .sweepTick (.calm 10000000000 ["a"])]
    ([0], [(.failure, false)]) (fun r => ((taken r.2).map Command.channel, calls (trace r.2)))
    (by decide)
  obtain ⟨ht, hf⟩ := Prod.mk.inj hv
  exact ⟨ls, c, h, hf, watchdog_fed_once h (by rw [ht]; decide)⟩

end SrtWhep.Feeding
