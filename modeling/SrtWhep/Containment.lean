import SrtWhep.Reaping
import SrtWhep.Stream.Bus

namespace SrtWhep.Containment

open Library.Runs Library.Channels Moves Reaping SrtWhep.Stream

/-- The bus watch between the main loop and the coordinator, and whether it has
told the loop to quit. -/
structure State where
  reaping : ReapSystem
  quit : Bool

inductive Input
  | message (m : Message)
  | begin (turn : Reaping.Turn)
  | finish (env : Env)
  | reap (env : Env)

namespace State

def start (config : CoordinatorConfig) : State := ⟨.start config, false⟩

def watch (s : State) (m : Message) : State :=
  match classifyBusMessage m with
  | .quit => { s with quit := true }
  | .reapBranch branch => { s with reaping := s.reaping.busWatch branch }
  | .ignore => s

def lift (s : State) (i : Reaping.Input) : Option (State × List Effect) :=
  (s.reaping.next i).map fun t => ({ s with reaping := t.1 }, t.2)

def next (s : State) : Input → Option (State × List Effect)
  | .message m => some (s.watch m, [])
  | .begin turn => s.lift (.begin turn)
  | .finish env => s.lift (.finish env)
  | .reap env => s.lift (.reap env)

def Step (s : State) (l : Input × List Effect) (s' : State) : Prop := s.next l.1 = some (s', l.2)

end State

def Input.message? : Input → Option Message
  | message m => some m
  | _ => none

def messages (ls : List (Input × List Effect)) : List Message :=
  ls.filterMap fun l => l.1.message?

/-- An error has come out of a viewer's branch. -/
def Erred (ls : List (Input × List Effect)) (id : ConnectionId) : Prop :=
  ∃ obj : Object, .error (some obj) ∈ messages ls ∧ Serves obj id

inductive Fatal : Message → Prop
  | eos : Fatal .eos
  | sourceless : Fatal (.error none)
  | core {obj} : (∀ id, ¬ Serves obj id) → Fatal (.error (some obj))

section Turns

variable {c c' : Coordinator} {e : Event} {env : Env} {os : List Effect} {id : ConnectionId}

theorem terminateExpired_reaps {ids : List ConnectionId}
    (h : Coordinator.terminateExpired env ids c = some (c', os)) : .ended id .reaped ∉ os := by
  induction ids generalizing c os with
  | nil =>
    cases h
    simp
  | cons i ids ih =>
    obtain ⟨r, d, os₁, os₂, ht, hr, rfl⟩ := terminateExpired_cons h
    rw [List.mem_append, not_or]
    refine ⟨?_, ih hr⟩
    cases hl : c.connections.lookup i with
    | none =>
      rw [terminate_expired_absent hl] at ht
      cases ht
      simp
    | some state =>
      obtain ⟨tripped, w, hw, ⟨rfl, rfl, rfl⟩ | ⟨rfl, rfl, rfl⟩⟩ := terminate_expired_cases hl ht
      · simp [ConnectionState.notify_eq]
      · simp [ConnectionState.notify_eq, drain]

theorem step_reaps (h : c.Step (e, os) c') (ho : .ended id .reaped ∈ os) :
    ∃ env, e = .branchFailure ⟨id⟩ env := by
  cases e with
  | command cmd env =>
    obtain ⟨os₁, c₁, os₂, hm, hs, rfl⟩ := handle_move h.1 h.2
    obtain ho | ho := List.mem_append.mp ho
    · cases hm with
      | reject b hr => cases hr <;> simp at ho
      | delete env b hl hs => simp [ConnectionState.notify_eq] at ho
      | reset env b hc => simp [drain, ConnectionState.notify_eq] at ho
      | _ => simp at ho
    · cases hs with
      | calm => cases ho
      | trip env hf hc => simp [drain, ConnectionState.notify_eq] at ho
  | branchFailure branch env =>
    obtain ⟨-, -, rfl⟩ | ⟨state, -, -, rfl⟩ := reapBranch_move h.2
    · cases ho
    · have hid : id = branch.intoString := by simpa [ConnectionState.notify_eq] using ho
      exact ⟨env, by rw [hid]; rfl⟩
  | sweepTick env => exact absurd ho (terminateExpired_reaps h.2)

end Turns

section Runs

variable {config : CoordinatorConfig} {ls : List (Input × List Effect)} {s s' : State}
  {l : Input × List Effect}

theorem watch_cases (s : State) (m : Message)
    (hp : ∀ obj, m = .error (some obj) → ∃ ids, Placed ids obj) :
    (¬ Fatal m ∧ s.watch m = s) ∨ (Fatal m ∧ s.watch m = { s with quit := true }) ∨
      ∃ obj id, m = .error (some obj) ∧ Serves obj id ∧ ¬ Fatal m ∧
        s.watch m = { s with reaping := s.reaping.busWatch ⟨id⟩ } := by
  cases m with
  | eos => exact .inr (.inl ⟨.eos, rfl⟩)
  | other => exact .inl ⟨(by rintro ⟨⟩), rfl⟩
  | error src =>
    cases src with
    | none => exact .inr (.inl ⟨.sourceless, rfl⟩)
    | some obj =>
      obtain ⟨ids, hobj⟩ := hp obj rfl
      obtain ⟨id, -, hc, hs⟩ | ⟨hc, hs⟩ := hobj.classify
      · refine .inr (.inr ⟨obj, id, rfl, (hs id).mpr rfl, fun hf => ?_, ?_⟩)
        · cases hf with
          | core hn => exact hn id ((hs id).mpr rfl)
        · simp [State.watch, classifyBusMessage, hc]
      · refine .inr (.inl ⟨.core hs, ?_⟩)
        simp [State.watch, classifyBusMessage, hc]

structure Contained (ls : List (Input × List Effect)) (s : State) : Prop where
  reports : ∀ branch ∈ s.reaping.reports.queue, Erred ls branch.raw
  reaped : ∀ id, .ended id .reaped ∈ ls.flatMap Prod.snd → Erred ls id
  quits : s.quit = true ↔ ∃ m ∈ messages ls, Fatal m

theorem messages_snoc : messages (ls ++ [l]) = messages ls ++ l.1.message?.toList := by
  rw [messages, List.filterMap_append]
  cases h : l.1.message? <;> simp [messages, h]

theorem Contained.turn {t : ReapSystem} (h : Contained ls s) (hm : l.1.message? = none)
    (hq : ∀ branch ∈ t.reports.queue, branch ∈ s.reaping.reports.queue)
    (hr : ∀ id, .ended id .reaped ∈ l.2 → ⟨id⟩ ∈ s.reaping.reports.queue) :
    Contained (ls ++ [l]) { s with reaping := t } := by
  have hsame : messages (ls ++ [l]) = messages ls := by
    rw [messages_snoc, hm]
    exact List.append_nil _
  refine ⟨fun branch hb => ?_, fun id ho => ?_, ?_⟩
  · rw [Erred, hsame]
    exact h.reports branch (hq branch hb)
  · rw [Erred, hsame]
    rw [List.flatMap_append, List.flatMap_singleton] at ho
    obtain ho | ho := List.mem_append.mp ho
    · exact h.reaped id ho
    · exact h.reports ⟨id⟩ (hr id ho)
  · rw [hsame]
    exact h.quits

theorem Contained.step (h : Contained ls s) (hs : s.Step l s')
    (hp : ∀ obj, .error (some obj) ∈ messages (ls ++ [l]) → ∃ ids, Placed ids obj) :
    Contained (ls ++ [l]) s' := by
  obtain ⟨i, os⟩ := l
  cases i with
  | message m =>
    cases hs
    have hms : messages (ls ++ [(.message m, [])]) = messages ls ++ [m] := messages_snoc
    have hlift : ∀ {id}, Erred ls id → Erred (ls ++ [(.message m, [])]) id := by
      rintro id ⟨obj, hobj, hserves⟩
      exact ⟨obj, by rw [hms]; exact List.mem_append_left _ hobj, hserves⟩
    have hreaped : ∀ id,
        Effect.ended id .reaped ∈ (ls ++ [(Input.message m, [])]).flatMap Prod.snd →
          Erred (ls ++ [(.message m, [])]) id := by
      intro id ho
      rw [List.flatMap_append, List.flatMap_singleton, List.append_nil] at ho
      exact hlift (h.reaped id ho)
    have hquits : ∀ {q : Bool}, (q = true ↔ s.quit = true ∨ Fatal m) →
        (q = true ↔ ∃ m' ∈ messages (ls ++ [(.message m, [])]), Fatal m') := by
      intro q hq
      rw [hq, h.quits, hms]
      simp
    have hobj : ∀ obj, m = .error (some obj) → ∃ ids, Placed ids obj := by
      rintro obj rfl
      exact hp obj (by rw [hms]; simp)
    obtain ⟨hf, hw⟩ | ⟨hf, hw⟩ | ⟨obj, id, rfl, hserves, hf, hw⟩ := watch_cases s m hobj
    · rw [hw]
      exact ⟨fun branch hb => hlift (h.reports branch hb), hreaped, hquits (by simp [hf])⟩
    · rw [hw]
      exact ⟨fun branch hb => hlift (h.reports branch hb), hreaped, hquits (by simp [hf])⟩
    · rw [hw]
      refine ⟨fun branch hb => ?_, hreaped, hquits (by simp [hf])⟩
      obtain ⟨-, -, hq⟩ | ⟨-, hq⟩ := s.reaping.reports.trySend_cases ⟨id⟩
      · simp only [ReapSystem.busWatch, hq, List.mem_append, List.mem_singleton] at hb
        obtain hb | rfl := hb
        · exact hlift (h.reports branch hb)
        · exact ⟨obj, by rw [hms]; simp, hserves⟩
      · simp only [ReapSystem.busWatch, hq] at hb
        exact hlift (h.reports branch hb)
  | begin turn =>
    obtain ⟨⟨t, os'⟩, ht, he⟩ := Option.map_eq_some_iff.mp hs
    obtain ⟨rfl, rfl⟩ := Prod.mk.inj he
    obtain ⟨-, ht⟩ := Option.ite_none_left_eq_some.mp ht
    cases ht
    exact h.turn rfl (fun _ hb => hb) (by simp)
  | finish env =>
    obtain ⟨⟨t, os'⟩, ht, he⟩ := Option.map_eq_some_iff.mp hs
    obtain ⟨rfl, rfl⟩ := Prod.mk.inj he
    simp only [ReapSystem.next, Option.bind_eq_bind, Option.bind_eq_some_iff, Option.some.injEq,
      Prod.mk.injEq] at ht
    obtain ⟨turn, -, ⟨c, os₁⟩, hc, rfl, rfl⟩ := ht
    refine h.turn rfl (fun _ hb => hb) fun id ho => ?_
    obtain ⟨env', he⟩ := step_reaps (Coordinator.next_eq_some.mp hc) ho
    cases turn <;> cases he
  | reap env =>
    obtain ⟨⟨t, os'⟩, ht, he⟩ := Option.map_eq_some_iff.mp hs
    obtain ⟨rfl, rfl⟩ := Prod.mk.inj he
    obtain ⟨-, ht⟩ := Option.ite_none_left_eq_some.mp ht
    simp only [Option.bind_eq_bind, Option.bind_eq_some_iff, Option.some.injEq,
      Prod.mk.injEq] at ht
    obtain ⟨⟨branch, reports⟩, hb, ⟨c, os₁⟩, hc, rfl, rfl⟩ := ht
    have hq := Channel.tryRecv_eq_some.mp hb
    refine h.turn rfl (fun b hm => ?_) fun id ho => ?_
    · rw [hq]
      exact List.mem_cons_of_mem _ hm
    · obtain ⟨env', he⟩ := step_reaps (Coordinator.next_eq_some.mp hc) ho
      cases he
      rw [hq]
      exact List.mem_cons_self ..

/-- A viewer is reaped only for an error that came out of its own branch, and
the main loop is told to quit exactly by the end of the stream or an error that
came out of no viewer's. -/
theorem errors_end_to_end (h : Run State.Step (.start config) ls s)
    (hp : ∀ obj, .error (some obj) ∈ messages ls → ∃ ids, Placed ids obj) :
    (∀ id, .ended id .reaped ∈ ls.flatMap Prod.snd → Erred ls id) ∧
      (s.quit = true ↔ ∃ m ∈ messages ls, Fatal m) := by
  have hc : (∀ obj, .error (some obj) ∈ messages ls → ∃ ids, Placed ids obj) →
      Contained ls s := by
    refine h.history (P := fun ls s =>
      (∀ obj, .error (some obj) ∈ messages ls → ∃ ids, Placed ids obj) → Contained ls s) ?_ ?_
    · exact fun _ => ⟨by rintro branch ⟨⟩, by rintro id ⟨⟩, by simp [State.start, messages]⟩
    · intro ls s s' l hc hs hp
      refine (hc fun obj hm => hp obj ?_).step hs hp
      rw [messages_snoc]
      exact List.mem_append_left _ hm
  exact ⟨(hc hp).reaped, (hc hp).quits⟩

theorem errors_end_to_end_nested : ∃ ls s, Run State.Step (.start {}) ls s ∧
    .ended "a" .reaped ∈ ls.flatMap Prod.snd ∧ Erred ls "a" ∧ ¬ ∃ m ∈ messages ls, Fatal m := by
  let sink : Object := .element (.attach "a") (whipSinkName "a") (.pipeline 0)
  let obj : Object := .element .inner "webrtcbin0" sink
  obtain ⟨ls, s, h, hi, hv⟩ := replayed State.next State.Step (fun _ _ _ _ h => h) (.start {})
    [.begin (.command (.createConnection "a" ⟨0⟩)), .finish (.calm 0 []),
      .message (.error (some obj)), .reap (.calm 1 ["a"])]
    (true, false)
    (fun r => (decide (.ended "a" .reaped ∈ r.2.flatMap Prod.snd), r.1.quit)) (by decide)
  obtain ⟨hr, hq⟩ := Prod.mk.inj hv
  have hms : messages ls = [.error (some obj)] := by
    have he : messages ls = (ls.map Prod.fst).filterMap Input.message? := by
      rw [messages, List.filterMap_map]
      rfl
    rw [he, hi]
    rfl
  have hsink : Placed {"a"} sink :=
    @Placed.attach _ "a" ⟨"whipclientsink", some (whipSinkName "a")⟩ 0 0 (by decide) (by decide)
  have hinner : ∀ stem ∈ stems, ∀ text, "webrtcbin0" ≠ stem ++ "-" ++ text := by
    intro stem hs text he
    have hn := branchIdFromName_eq_some.mpr ⟨stem, hs, he⟩
    rw [show branchIdFromName "webrtcbin0" = none by decide] at hn
    cases hn
  have hp : ∀ obj, .error (some obj) ∈ messages ls → ∃ ids, Placed ids obj := by
    intro obj' hm
    rw [hms, List.mem_singleton] at hm
    cases hm
    exact ⟨_, .inner hsink (by decide) hinner⟩
  obtain ⟨hreaped, hquit⟩ := errors_end_to_end h hp
  refine ⟨ls, s, h, of_decide_eq_true hr, hreaped _ (of_decide_eq_true hr), fun hf => ?_⟩
  cases hq.symm.trans (hquit.mpr hf)

end Runs

end SrtWhep.Containment
