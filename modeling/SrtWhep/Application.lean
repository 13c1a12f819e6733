import SrtWhep.Shutdown

namespace SrtWhep

open Library.Runs Lifecycle

inductive IoError
  | invalidInput (message : String)
  | server (message : String)
  | other (message : String)
deriving DecidableEq, Repr

inductive ServerEnd
  | finished (result : Except IoError Unit)
  | failed (joinError : String)

def ServerEnd.result : ServerEnd → Except IoError Unit
  | finished result => result
  | failed joinError => .error (.other joinError)

/-- Where `run_until_stopped` stands: it serves, it has seen `stop` or the
server's end and waits for the supervisor, or it has returned. -/
inductive Stage
  | serving
  | stopping
  | exited (e : ServerEnd)
  | returned (r : Except IoError Unit)

structure Application where
  port : UInt16
  system : System
  server : Option ServerEnd
  stage : Stage

namespace Application

inductive Input
  | wake (w : Wake)
  | effect (o : Effect)
  | serverEnds (e : ServerEnd)
  | stop
  | serverExit
  | done

/-- The loopback offers go to a fixed port, so the listener has to have it. -/
def assemble (port : UInt16) (expectedWhipPort : Option UInt16) : Except IoError Application :=
  match expectedWhipPort with
  | none => .ok ⟨port, .start, none, .serving⟩
  | some expected =>
    if expected ≠ port then
      .error (.invalidInput ("HTTP listener bound to port " ++ toString port ++
        " but the pipeline posts loopback WHIP offers to port " ++ toString expected ++
        "; they must match"))
    else .ok ⟨port, .start, none, .serving⟩

def send (a : Application) (stage : Stage) : Option (Application × List Entry) :=
  (a.system.next .shutdown).map fun t => ({ a with system := t.1, stage }, t.2)

def next (a : Application) : Input → Option (Application × List Entry)
  | .wake w => (a.system.next (.wake w)).map fun t => ({ a with system := t.1 }, t.2)
  | .effect o => (a.system.next (.effect o)).map fun t => ({ a with system := t.1 }, t.2)
  | .serverEnds e => if a.server.isSome then none else some ({ a with server := some e }, [])
  | .stop =>
    match a.stage with
    | .serving => a.send .stopping
    | _ => none
  | .serverExit =>
    match a.stage, a.server with
    | .serving, some e => a.send (.exited e)
    | _, _ => none
  | .done =>
    if a.system.phase = .stopped then
      match a.stage, a.server with
      | .stopping, some _ => some ({ a with stage := .returned (.ok ()) }, [])
      | .exited e, _ => some ({ a with stage := .returned e.result }, [])
      | _, _ => none
    else none

def Step (a : Application) (l : Input × List Entry) (a' : Application) : Prop :=
  a.next l.1 = some (a', l.2)

def isServing : Stage → Bool
  | .serving => true
  | _ => false

def Input.lifecycle : Input → List Lifecycle.Input
  | wake w => [.wake w]
  | effect o => [.effect o]
  | stop | serverExit => [.shutdown]
  | serverEnds _ | done => []

def isStop : Input → Bool
  | .stop => true
  | _ => false

def stopped (ls : List (Input × List Entry)) : Bool := ls.any fun l => isStop l.1

def wakes (ls : List (Input × List Entry)) : Nat :=
  (ls.map fun l => ((l.1.lifecycle.map fun i => (isWake i).toNat)).sum).sum

def trips (ls : List (Input × List Entry)) : Nat :=
  (ls.map fun l => ((l.1.lifecycle.map fun i => (isTrip i).toNat)).sum).sum

/-- What the application's stage says of its parts and of what it has seen. -/
def Settled (a : Application) (ls : List (Input × List Entry)) : Prop :=
  match a.stage with
  | .serving => stopped ls = false
  | .stopping => stopped ls = true
  | .exited e => stopped ls = false ∧ a.server = some e
  | .returned r => a.system.phase = .stopped ∧
      ∃ e, a.server = some e ∧ r = if stopped ls then .ok () else e.result

section Steps

variable {a a' : Application} {l : Input × List Entry} {ls : List (Input × List Entry)}

theorem send_eq_some {stage : Stage} {t : List Entry} (h : a.send stage = some (a', t)) :
    t = [] ∧ a.system.dropped = false ∧
      a' = { a with system := { a.system with shutdown := true }, stage } := by
  obtain ⟨⟨system, t'⟩, hs, he⟩ := Option.map_eq_some_iff.mp h
  obtain ⟨hd, hs⟩ := Option.ite_none_left_eq_some.mp hs
  cases hs
  cases he
  exact ⟨rfl, by simpa using hd, rfl⟩

inductive Takes (a : Application) : Input → List Entry → Application → Prop
  | wake {w t system} : a.system.Step (.wake w, t) system → Takes a (.wake w) t { a with system }
  | effect {o t system} : a.system.Step (.effect o, t) system →
      Takes a (.effect o) t { a with system }
  | serverEnds {e} : a.server = none → Takes a (.serverEnds e) [] { a with server := some e }
  | stop : a.stage = .serving → a.system.dropped = false → Takes a .stop []
      { a with system := { a.system with shutdown := true }, stage := .stopping }
  | serverExit {e} : a.stage = .serving → a.server = some e → a.system.dropped = false →
      Takes a .serverExit []
        { a with system := { a.system with shutdown := true }, stage := .exited e }
  | stopped {e} : a.system.phase = .stopped → a.stage = .stopping → a.server = some e →
      Takes a .done [] { a with stage := .returned (.ok ()) }
  | exited {e} : a.system.phase = .stopped → a.stage = .exited e →
      Takes a .done [] { a with stage := .returned e.result }

theorem step_takes (h : a.Step l a') : a.Takes l.1 l.2 a' := by
  obtain ⟨i, t⟩ := l
  cases i with
  | wake w =>
    obtain ⟨⟨system, t'⟩, hs, he⟩ := Option.map_eq_some_iff.mp h
    cases he
    exact .wake hs
  | effect o =>
    cases h
    exact .effect rfl
  | serverEnds e =>
    obtain ⟨hn, h⟩ := Option.ite_none_left_eq_some.mp h
    cases h
    exact .serverEnds (by simpa using hn)
  | stop =>
    simp only [Step, next] at h
    split at h
    next hs =>
      obtain ⟨rfl, hd, rfl⟩ := send_eq_some h
      exact .stop hs hd
    next => cases h
  | serverExit =>
    simp only [Step, next] at h
    split at h
    next e hs he =>
      obtain ⟨rfl, hd, rfl⟩ := send_eq_some h
      exact .serverExit hs he hd
    next => cases h
  | done =>
    obtain ⟨hp, h⟩ := Option.ite_none_right_eq_some.mp h
    split at h
    next e hs he =>
      cases h
      exact .stopped hp hs he
    next e hs =>
      cases h
      exact .exited hp hs
    next => cases h

theorem step_system (h : a.Step l a') :
    ∃ ms, Run System.Step a.system ms a'.system ∧ ms.map Prod.fst = l.1.lifecycle ∧
      log ms = l.2 := by
  obtain ⟨i, t⟩ := l
  cases step_takes h with
  | wake hs => exact ⟨_, .single hs, rfl, by simp [log]⟩
  | effect hs => exact ⟨_, .single hs, rfl, by simp [log]⟩
  | serverEnds => exact ⟨[], .nil _, rfl, rfl⟩
  | stop _ hd =>
    exact ⟨[(.shutdown, [])], .single (by simp [System.Step, System.next, hd]), rfl, rfl⟩
  | serverExit _ _ hd =>
    exact ⟨[(.shutdown, [])], .single (by simp [System.Step, System.next, hd]), rfl, rfl⟩
  | stopped => exact ⟨[], .nil _, rfl, rfl⟩
  | exited => exact ⟨[], .nil _, rfl, rfl⟩

theorem run_system (h : Run Step a ls a') :
    ∃ ms, Run System.Step a.system ms a'.system ∧ Lifecycle.wakes ms = wakes ls ∧
      Lifecycle.trips ms = trips ls ∧ log ms = ls.flatMap Prod.snd := by
  induction h with
  | nil a => exact ⟨[], .nil _, rfl, rfl, rfl⟩
  | @cons a b a' l ls hs _ ih =>
    obtain ⟨ms, hm, hi, hl⟩ := step_system hs
    obtain ⟨ns, hn, hw, ht, hlog⟩ := ih
    refine ⟨ms ++ ns, hm.append hn, ?_, ?_, ?_⟩
    · have hwakes : Lifecycle.wakes ms = (l.1.lifecycle.map fun i => (isWake i).toNat).sum := by
        rw [← hi, List.map_map]
        rfl
      rw [Lifecycle.wakes, List.map_append, List.sum_append]
      exact congrArg₂ (· + ·) hwakes hw
    · have htrips : Lifecycle.trips ms = (l.1.lifecycle.map fun i => (isTrip i).toNat).sum := by
        rw [← hi, List.map_map]
        rfl
      rw [Lifecycle.trips, List.map_append, List.sum_append]
      exact congrArg₂ (· + ·) htrips ht
    · rw [log, List.flatMap_append]
      exact congrArg₂ (· ++ ·) hl hlog

theorem stopped_snoc : stopped (ls ++ [l]) = (stopped ls || isStop l.1) := by
  simp [stopped]

structure Ordered (a : Application) (ls : List (Input × List Entry)) : Prop where
  serving : isServing a.stage = !a.system.shutdown
  kept : a.system.dropped = false
  settled : a.Settled ls

theorem wake_keeps {s s' : System} {w : Wake} {t : List Entry} (h : s.Step (.wake w, t) s') :
    s'.shutdown = s.shutdown ∧ s'.dropped = s.dropped ∧ s.phase ≠ .stopped := by
  obtain ⟨-, h⟩ := Option.ite_none_right_eq_some.mp h
  simp only [Option.bind_eq_bind, Option.bind_eq_some_iff, Option.some.injEq, Prod.mk.injEq] at h
  obtain ⟨⟨v, cs⟩, hv, q, -, rfl, -⟩ := h
  refine ⟨rfl, rfl, fun hp => ?_⟩
  obtain ⟨⟨⟨phase, failures⟩, requests⟩, shutdown, dropped⟩ := s
  obtain rfl : phase = .stopped := hp
  cases w <;> cases hv

theorem effect_keeps {s s' : System} {o : Effect} {t : List Entry}
    (h : s.Step (.effect o, t) s') :
    s'.shutdown = s.shutdown ∧ s'.dropped = s.dropped ∧ s'.phase = s.phase := by
  cases h
  exact ⟨rfl, rfl, congrArg Supervisor.phase
    (RestartRequests.RestartSystem.feed_supervisor s.restarts [o])⟩

theorem Ordered.step (h : Ordered a ls) (hs : a.Step l a') : Ordered a' (ls ++ [l]) := by
  obtain ⟨i, t⟩ := l
  obtain ⟨hserving, hkept, hsettled⟩ := h
  cases step_takes hs with
  | wake hw =>
    obtain ⟨hsh, hd, hp⟩ := wake_keeps hw
    refine ⟨by rw [hserving, hsh], hd.trans hkept, ?_⟩
    cases hst : a.stage with
    | returned r =>
      simp only [Settled, hst] at hsettled
      exact absurd hsettled.1 hp
    | _ => simpa [Settled, hst, stopped_snoc, isStop] using hsettled
  | effect ho =>
    obtain ⟨hsh, hd, hp⟩ := effect_keeps ho
    refine ⟨by rw [hserving, hsh], hd.trans hkept, ?_⟩
    cases hst : a.stage with
    | _ => simpa [Settled, hst, stopped_snoc, isStop, hp] using hsettled
  | serverEnds hn =>
    refine ⟨hserving, hkept, ?_⟩
    cases hst : a.stage with
    | serving | stopping => simpa [Settled, hst, stopped_snoc, isStop] using hsettled
    | exited e =>
      simp only [Settled, hst] at hsettled
      cases hn.symm.trans hsettled.2
    | returned r =>
      simp only [Settled, hst] at hsettled
      obtain ⟨-, e, he, -⟩ := hsettled
      cases hn.symm.trans he
  | stop hst hd => exact ⟨rfl, hkept, by simp [Settled, stopped_snoc, isStop]⟩
  | serverExit hst he hd =>
    refine ⟨rfl, hkept, ?_⟩
    simpa [Settled, hst, he, stopped_snoc, isStop] using hsettled
  | @stopped e hp hst he =>
    rw [hst] at hserving
    refine ⟨hserving, hkept, hp, e, he, ?_⟩
    simp only [Settled, hst] at hsettled
    simp [stopped_snoc, hsettled]
  | @exited e hp hst =>
    rw [hst] at hserving
    simp only [Settled, hst] at hsettled
    exact ⟨hserving, hkept, hp, e, hsettled.2, by simp [stopped_snoc, hsettled.1, isStop]⟩

end Steps

section Runs

variable {a₀ a a' : Application} {ls ls' : List (Input × List Entry)} {port : UInt16}
  {expectedWhipPort : Option UInt16}

theorem assemble_ok (h : assemble port expectedWhipPort = .ok a₀) :
    a₀ = ⟨port, .start, none, .serving⟩ := by
  unfold assemble at h
  split at h
  next =>
    cases h
    rfl
  next expected =>
    split at h
    · cases h
    · cases h
      rfl

theorem run_ordered (ha : assemble port expectedWhipPort = .ok a₀) (h : Run Step a₀ ls a) :
    Ordered a ls := by
  obtain rfl := assemble_ok ha
  exact h.history (P := fun ls a => Ordered a ls) ⟨rfl, rfl, rfl⟩ fun ho hs => ho.step hs

theorem Ordered.waits (h : Ordered a ls) (hs : isServing a.stage = false) :
    (∃ r, a.stage = .returned r) ∨ a.server = none ∨ (∃ a', a.Step (.done, []) a') ∨
      ∃ w t a', unhindered w = true ∧ a.Step (.wake w, t) a' := by
  have hshut : a.system.shutdown = true := by simpa [hs] using h.serving.symm
  by_cases hp : a.system.phase = .stopped
  · cases hst : a.stage with
    | serving =>
      rw [hst] at hs
      cases hs
    | stopping =>
      cases he : a.server with
      | none => exact .inr (.inl rfl)
      | some e => exact .inr (.inr (.inl ⟨_, by simp only [Step, next, hp, hst, he]; rfl⟩))
    | exited e => exact .inr (.inr (.inl ⟨_, by simp only [Step, next, hp, hst]; rfl⟩))
    | returned r => exact .inl ⟨r, rfl⟩
  · obtain ⟨w, t, system, hw, hstep⟩ := never_stuck hshut hp
    have hnext : a.next (.wake w) = some ({ a with system }, t) := by
      simp only [next, show a.system.next (.wake w) = some (system, t) from hstep]
      rfl
    exact .inr (.inr (.inr ⟨w, t, _, hw, hnext⟩))

/-- The supervisor is not given up while the application serves. When it stops
serving the supervisor exits in a few steps, none of which the pipeline's run or
the coordinator can hold up; only then, and when the server has ended, does the
application return, with every `init` cleaned up and reset after. -/
theorem stops_in_order (ha : assemble port expectedWhipPort = .ok a₀) (h : Run Step a₀ ls a) :
    (isServing a.stage = true → leaving a.system.phase = false) ∧
    (isServing a.stage = false →
      (∀ ls' a', Run Step a ls' a' → wakes ls' ≤ remaining a.system.phase + 1 + trips ls') ∧
      ((∃ r, a.stage = .returned r) ∨ a.server = none ∨ (∃ a', a.Step (.done, []) a') ∨
        ∃ w t a', unhindered w = true ∧ a.Step (.wake w, t) a')) ∧
    ∀ r, a.stage = .returned r → a.system.phase = .stopped ∧
      (∃ e, a.server = some e ∧ r = if stopped ls then .ok () else e.result) ∧
      (calls (ls.flatMap Prod.snd)).count .init = (calls (ls.flatMap Prod.snd)).count .cleanUp ∧
      (calls (ls.flatMap Prod.snd)).count .init = (calls (ls.flatMap Prod.snd)).count .reset := by
  have ho := run_ordered ha h
  obtain rfl := assemble_ok ha
  obtain ⟨ms, hm, -, -, hlog⟩ := run_system h
  refine ⟨fun hs => ?_, fun hs => ⟨fun ls' a' h' => ?_, ho.waits hs⟩, fun r hr => ?_⟩
  · have hshut : a.system.shutdown = false := by simpa [hs] using ho.serving.symm
    rw [Bool.eq_false_iff]
    intro hl
    obtain hx | hx := run_leaving hm hl
    · cases hshut.symm.trans hx
    · cases ho.kept.symm.trans hx
  · have hshut : a.system.shutdown = true := by simpa [hs] using ho.serving.symm
    obtain ⟨ns, hn, hw, ht, -⟩ := run_system h'
    rw [← hw, ← ht]
    exact run_distance hn hshut
  · have hsettled := ho.settled
    simp only [Settled, hr] at hsettled
    obtain ⟨hp, hres⟩ := hsettled
    have hcycles := (run_progress hm).inCycles
    rw [hp, hlog] at hcycles
    exact ⟨hp, hres, hcycles.paired⟩

theorem stops_in_order_hanging : ∃ a₀ ls a, assemble 8000 (some 8000) = .ok a₀ ∧
    Run Step a₀ ls a ∧ a.stage = .returned (.ok ()) ∧ a.system.phase = .stopped ∧
    (calls (ls.flatMap Prod.snd)).count .init = 1 ∧
    (calls (ls.flatMap Prod.snd)).count .cleanUp = 1 ∧
    (calls (ls.flatMap Prod.snd)).count .reset = 1 := by
  obtain ⟨ls, a, h, -, hv⟩ := replayed next Step (fun _ _ _ _ h => h)
    ⟨8000, .start, none, .serving⟩
    [.wake (.checked false), .wake (.received false), .wake (.initialized true), .stop,
      .wake .shutdownSeen, .wake .asked, .serverEnds (.finished (.ok ())), .wake (.joined none),
      .wake (.cleanedUp true), .wake (.answered none), .done]
    (.returned (.ok ()), 1)
    (fun r => (r.1.stage, (calls (r.2.flatMap Prod.snd)).count .init)) rfl
  obtain ⟨hr, hi⟩ := Prod.mk.inj hv
  have ha : assemble 8000 (some 8000) = .ok ⟨8000, .start, none, .serving⟩ := by
    simp [assemble]
  obtain ⟨hp, -, hc, hs⟩ := (stops_in_order ha h).2.2 _ hr
  exact ⟨_, ls, a, ha, h, hr, hp, hi, hc.symm.trans hi, hs.symm.trans hi⟩

end Runs

end Application

end SrtWhep
