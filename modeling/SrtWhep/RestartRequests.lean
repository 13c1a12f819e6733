import SrtWhep.ConnectionState
import SrtWhep.Library.Channels
import SrtWhep.Library.Runs
import SrtWhep.Supervisor

namespace SrtWhep.RestartRequests

open Library.Runs Library.Channels

structure RestartSystem where
  supervisor : Supervisor
  requests : Channel Unit 1
deriving DecidableEq

inductive Input
  | effect (o : Effect)
  | wake (w : Wake)

/-- What becomes of restart requests, next to the supervisor's calls. `drained`
is the drain loop finding the channel empty, `stopped` the end of a run, and
`abandoned` the end of waiting for one. -/
inductive Note
  | trip (accepted : Bool)
  | discarded
  | drained
  | served
  | stopped
  | abandoned
  | called (call : Call)
deriving DecidableEq, Repr

namespace RestartSystem

def start : RestartSystem := ⟨.spawn, .empty⟩

def receive (requests : Channel Unit 1) : Wake → Option (Channel Unit 1 × List Note)
  | .received true => requests.tryRecv.map fun r => (r.2, [.discarded])
  | .received false => if requests.queue = [] then some (requests, [.drained]) else none
  | .restartRequested => requests.tryRecv.map fun r => (r.2, [.served])
  | .ran _ => some (requests, [.stopped])
  | .joined (some _) => some (requests, [.stopped])
  | .joined none => some (requests, [.abandoned])
  | _ => some (requests, [])

def effect (s : RestartSystem) : Effect → RestartSystem × List Note
  | .requestRestart =>
    let (requests, accepted) := s.requests.trySend ()
    ({ s with requests }, [.trip accepted])
  | _ => (s, [])

def next (s : RestartSystem) : Input → Option (RestartSystem × List Note)
  | .effect o => some (s.effect o)
  | .wake w => do
    let (supervisor, calls) ← s.supervisor.step w
    let (requests, notes) ← receive s.requests w
    some (⟨supervisor, requests⟩, notes ++ calls.map .called)

def feed (s : RestartSystem) (os : List Effect) : RestartSystem :=
  os.foldl (fun s o => (s.effect o).1) s

def Step (s : RestartSystem) (l : Input × List Note) (s' : RestartSystem) : Prop :=
  s.next l.1 = some (s', l.2)

theorem feed_supervisor (s : RestartSystem) (os : List Effect) :
    (s.feed os).supervisor = s.supervisor := by
  induction os generalizing s with
  | nil => rfl
  | cons o os ih =>
    refine (ih (s.effect o).1).trans ?_
    cases o <;> rfl

theorem feed_run (s : RestartSystem) (os : List Effect) : ∃ ls, Run Step s ls (s.feed os) := by
  induction os generalizing s with
  | nil => exact ⟨[], .nil s⟩
  | cons o os ih =>
    obtain ⟨ls, h⟩ := ih (s.effect o).1
    exact ⟨(.effect o, (s.effect o).2) :: ls, .cons rfl h⟩

theorem next_wake {s : RestartSystem} {w : Wake} {r : RestartSystem × List Note}
    (h : s.next (.wake w) = some r) :
    ∃ calls, s.supervisor.step w = some (r.1.supervisor, calls) := by
  simp only [next, Option.bind_eq_bind, Option.bind_eq_some_iff, Option.some.injEq] at h
  obtain ⟨⟨v, calls⟩, hv, q, -, rfl⟩ := h
  exact ⟨calls, hv⟩

end RestartSystem

def notes (ls : List (Input × List Note)) : List Note := ls.flatMap Prod.snd

/-- What happened since the last drain ended, latest first. -/
def sinceDrain (t : List Note) : List Note := t.reverse.takeWhile (· ≠ .drained)

/-- A request raised since the last drain ended is still in the channel: none
was taken out after it was accepted. -/
def Pending (t : List Note) : Prop :=
  ∃ v u, sinceDrain t = v ++ .trip true :: u ∧ .served ∉ v ∧ .discarded ∉ v

def AllStopped (t : List Note) : Prop := t.count (.called .run) = t.count .stopped

/-- Every run so far has stopped, or its join has timed out. -/
def AllOver (t : List Note) : Prop :=
  t.count (.called .run) = t.count .stopped + t.count .abandoned

/-- When a note may come, given those before it and what has to hold of the
earlier runs when the drain discards a request. -/
def Justified (earlier : List Note → Prop) (t : List Note) : Note → Prop
  | .called .quit => .called .quit ∉ sinceDrain t ∧ (∃ b, .trip b ∈ sinceDrain t) ∧ .drained ∈ t
  | .discarded => Pending t ∧ earlier t
  | .trip false => Pending t
  | _ => True

section Traces

variable {t ns : List Note} {n : Note}

theorem sinceDrain_snoc (t : List Note) (n : Note) :
    sinceDrain (t ++ [n]) = if n = .drained then [] else n :: sinceDrain t := by
  by_cases h : n = .drained <;> simp [sinceDrain, h]

theorem Pending.trip (h : Pending t) : ∃ b, .trip b ∈ sinceDrain t := by
  obtain ⟨v, u, ht, -, -⟩ := h
  exact ⟨true, by simp [ht]⟩

theorem pending_snoc_trip (t : List Note) : Pending (t ++ [.trip true]) :=
  ⟨[], sinceDrain t, by simp [sinceDrain_snoc], by simp, by simp⟩

theorem sinceDrain_append (t : List Note) (h : .drained ∉ ns) :
    sinceDrain (t ++ ns) = ns.reverse ++ sinceDrain t := by
  have hns : ∀ n ∈ ns.reverse, decide (n ≠ .drained) = true := by
    intro n hn
    refine decide_eq_true ?_
    rintro rfl
    exact h (List.mem_reverse.mp hn)
  rw [sinceDrain, List.reverse_append, List.takeWhile_append_of_pos hns]
  rfl

theorem Pending.append (h : Pending t) (hd : .drained ∉ ns) (hs : .served ∉ ns)
    (hx : .discarded ∉ ns) : Pending (t ++ ns) := by
  obtain ⟨v, u, ht, hvs, hvx⟩ := h
  exact ⟨ns.reverse ++ v, u, by simp [sinceDrain_append t hd, ht], by simp [hvs, hs],
    by simp [hvx, hx]⟩

end Traces

def Phase.fresh : Phase → Bool
  | .initializing => true
  | .selecting => true
  | _ => false

def Phase.running : Phase → Bool
  | .selecting => true
  | .ending => true
  | .quitting => true
  | .joining _ => true
  | _ => false

structure Inv (t : List Note) (s : RestartSystem) : Prop where
  pending : s.requests.queue ≠ [] → Pending t
  kept : Phase.fresh s.supervisor.phase = true → (∃ b, .trip b ∈ sinceDrain t) →
    s.requests.queue ≠ []
  unquit : Phase.fresh s.supervisor.phase = true →
    .called .quit ∉ sinceDrain t ∧ .drained ∈ t
  counts : t.count (.called .run) =
    t.count .stopped + t.count .abandoned + (Phase.running s.supervisor.phase).toNat
  justified : Throughout (Justified AllOver) t

theorem inv_start : Inv [] .start :=
  ⟨fun h => absurd rfl h, by simp [RestartSystem.start, Supervisor.spawn, Phase.fresh],
    by simp [RestartSystem.start, Supervisor.spawn, Phase.fresh], rfl, throughout_nil⟩

def Quiet : Note → Prop
  | .stopped => True
  | .abandoned => True
  | .called call => call ≠ .quit
  | _ => False

section Steps

variable {t : List Note} {s : RestartSystem}

theorem Inv.quiet (h : Inv t s) {ns : List Note} {v : Supervisor} (hq : ∀ n ∈ ns, Quiet n)
    (hf : Phase.fresh v.phase = true → Phase.fresh s.supervisor.phase = true)
    (hc : ns.count (.called .run) + (Phase.running s.supervisor.phase).toNat =
      ns.count .stopped + ns.count .abandoned + (Phase.running v.phase).toNat) :
    Inv (t ++ ns) ⟨v, s.requests⟩ := by
  have hd : .drained ∉ ns := fun hn => hq _ hn
  have hsd := sinceDrain_append t hd
  refine ⟨fun hr => (h.pending hr).append hd (fun hn => hq _ hn) (fun hn => hq _ hn),
    fun hp ⟨b, hb⟩ => ?_, fun hp => ?_, ?_, ?_⟩
  · rw [hsd, List.mem_append, List.mem_reverse] at hb
    exact h.kept (hf hp) ⟨b, hb.resolve_left fun hn => hq _ hn⟩
  · obtain ⟨hno, hdr⟩ := h.unquit (hf hp)
    rw [hsd, List.mem_append, List.mem_reverse]
    exact ⟨not_or.mpr ⟨fun hn => hq _ hn rfl, hno⟩, List.mem_append_left _ hdr⟩
  · have hcounts := h.counts
    simp only [List.count_append]
    omega
  · refine throughout_append h.justified fun t' n hn => ?_
    have hqn := hq n hn
    cases n with
    | stopped => trivial
    | abandoned => trivial
    | called call =>
      cases call with
      | quit => exact absurd rfl hqn
      | _ => trivial
    | _ => exact hqn.elim

theorem Inv.trip (h : Inv t s) :
    Inv (t ++ [.trip (s.requests.trySend ()).2])
      { s with requests := (s.requests.trySend ()).1 } := by
  obtain ⟨-, hb, hq⟩ | ⟨hfull, hq⟩ := s.requests.trySend_cases ()
  · refine ⟨fun _ => ?_, fun _ _ => by simp [hq], fun hp => ?_, ?_, ?_⟩
    · rw [hb]
      exact pending_snoc_trip t
    · obtain ⟨hno, hdr⟩ := h.unquit hp
      exact ⟨by simp [sinceDrain_snoc, hno], by simp [hdr]⟩
    · simpa [List.count_append] using h.counts
    · rw [hb]
      exact throughout_snoc.mpr ⟨h.justified, trivial⟩
  · have hne : s.requests.queue ≠ [] := List.ne_nil_of_length_pos (by omega)
    rw [hq]
    refine ⟨fun _ => ?_, fun _ _ => hne, fun hp => ?_, ?_, ?_⟩
    · exact (h.pending hne).append (by simp) (by simp) (by simp)
    · obtain ⟨hno, hdr⟩ := h.unquit hp
      exact ⟨by simp [sinceDrain_snoc, hno], by simp [hdr]⟩
    · simpa [List.count_append] using h.counts
    · exact throughout_snoc.mpr ⟨h.justified, h.pending hne⟩

theorem Inv.discard (h : Inv t s) {r : Unit × Channel Unit 1} (hr : s.requests.tryRecv = some r)
    (hp : s.supervisor.phase = .draining) : Inv (t ++ [.discarded]) { s with requests := r.2 } := by
  have hq := Channel.tryRecv_eq_some.mp hr
  have hlen := s.requests.bounded
  have hnil : r.2.queue = [] := List.length_eq_zero_iff.mp (by rw [hq] at hlen; simpa using hlen)
  have hcounts : AllOver t := by simpa [AllOver, hp, Phase.running] using h.counts
  refine ⟨fun hne => absurd hnil hne, ?_, ?_, ?_, ?_⟩
  · simp [hp, Phase.fresh]
  · simp [hp, Phase.fresh]
  · simpa [List.count_append] using h.counts
  · exact throughout_snoc.mpr ⟨h.justified, h.pending (by simp [hq]), hcounts⟩

theorem Inv.drain (h : Inv t s) (hr : s.requests.queue = []) (hp : s.supervisor.phase = .draining) :
    Inv (t ++ [.drained, .called .init])
      ⟨{ s.supervisor with phase := .initializing }, s.requests⟩ := by
  have hsd : sinceDrain (t ++ [.drained, .called .init]) = [.called .init] := by
    rw [List.append_cons, sinceDrain_snoc, if_neg (by simp), sinceDrain_snoc, if_pos rfl]
  refine ⟨fun hne => absurd hr hne, ?_, ?_, ?_, ?_⟩
  · simp [hsd]
  · simp [hsd]
  · simpa [List.count_append, hp, Phase.running] using h.counts
  · rw [List.append_cons]
    exact throughout_snoc.mpr ⟨throughout_snoc.mpr ⟨h.justified, trivial⟩, trivial⟩

theorem Inv.serve (h : Inv t s) {r : Unit × Channel Unit 1} (hr : s.requests.tryRecv = some r)
    (hp : s.supervisor.phase = .selecting) :
    Inv (t ++ [.served, .called .quit]) ⟨{ s.supervisor with phase := .quitting }, r.2⟩ := by
  have hq := Channel.tryRecv_eq_some.mp hr
  have hlen := s.requests.bounded
  have hnil : r.2.queue = [] := List.length_eq_zero_iff.mp (by rw [hq] at hlen; simpa using hlen)
  obtain ⟨hno, hdr⟩ := h.unquit (by rw [hp]; rfl)
  obtain ⟨b, hb⟩ := (h.pending (by simp [hq])).trip
  refine ⟨fun hne => absurd hnil hne, ?_, ?_, ?_, ?_⟩
  · simp [Phase.fresh]
  · simp [Phase.fresh]
  · simpa [List.count_append, hp, Phase.running] using h.counts
  · rw [List.append_cons]
    refine throughout_snoc.mpr ⟨throughout_snoc.mpr ⟨h.justified, trivial⟩, ?_, ⟨b, ?_⟩, ?_⟩
    · simp [sinceDrain_snoc, hno]
    · simp [sinceDrain_snoc, hb]
    · simp [hdr]

/-- Whatever else lets the supervisor go on leaves the channel alone, and
keeps a run task from the select to the join. -/
theorem Inv.other (h : Inv t s) {w : Wake} {v : Supervisor} {calls : List Call}
    {r : Channel Unit 1 × List Note} (hv : s.supervisor.step w = some (v, calls))
    (hr : RestartSystem.receive s.requests w = some r) (hrecv : ∀ b, w ≠ .received b)
    (hreq : w ≠ .restartRequested) : Inv (t ++ (r.2 ++ calls.map .called)) ⟨v, r.1⟩ := by
  unfold Supervisor.step at hv
  split at hv
  case h_3 => exact absurd rfl (hrecv _)
  case h_4 => exact absurd rfl (hrecv _)
  case h_9 => exact absurd rfl hreq
  case h_12 outcome ok hp =>
    obtain ⟨rfl, rfl⟩ := Prod.mk.inj (Option.some.inj hv)
    cases ok with
    | none =>
      obtain rfl := Option.some.inj hr
      exact h.quiet (by simp [Quiet]) (by simp [Phase.fresh]) (by simp [Phase.running, hp])
    | some ok =>
      obtain rfl := Option.some.inj hr
      exact h.quiet (by simp [Quiet]) (by simp [Phase.fresh]) (by simp [Phase.running, hp])
  case h_14 outcome ok hp =>
    obtain ⟨rfl, rfl⟩ := Prod.mk.inj (Option.some.inj hv)
    obtain rfl := Option.some.inj hr
    obtain hs | hs := s.supervisor.settle_phase outcome
    all_goals exact h.quiet (by simp) (by simp [hs, Phase.fresh]) (by simp [hs, hp, Phase.running])
  case h_17 => cases hv
  all_goals
    obtain ⟨rfl, rfl⟩ := Prod.mk.inj (Option.some.inj hv)
    obtain rfl := Option.some.inj hr
    exact h.quiet (by simp [Quiet]) (by simp_all [Phase.fresh]) (by simp_all [Phase.running])

theorem Inv.step {l : Input × List Note} {s' : RestartSystem} (h : Inv t s) (hs : s.Step l s') :
    Inv (t ++ l.2) s' := by
  obtain ⟨i, ns⟩ := l
  cases i with
  | effect o =>
    cases o with
    | requestRestart =>
      obtain ⟨rfl, rfl⟩ := Prod.mk.inj (Option.some.inj hs)
      exact h.trip
    | _ =>
      obtain ⟨rfl, rfl⟩ := Prod.mk.inj (Option.some.inj hs)
      simpa using h
  | wake w =>
    simp only [RestartSystem.Step, RestartSystem.next, Option.bind_eq_bind,
      Option.bind_eq_some_iff, Option.some.injEq, Prod.mk.injEq] at hs
    obtain ⟨⟨v, calls⟩, hv, r, hr, rfl, rfl⟩ := hs
    cases w with
    | received found =>
      obtain ⟨hp, hv⟩ := Supervisor.step_received hv
      cases found with
      | true =>
        obtain ⟨rfl, rfl⟩ := Prod.mk.inj hv
        obtain ⟨q, hq, rfl⟩ := Option.map_eq_some_iff.mp hr
        exact h.discard hq hp
      | false =>
        obtain ⟨rfl, rfl⟩ := Prod.mk.inj hv
        obtain ⟨hq, hr⟩ := Option.ite_none_right_eq_some.mp hr
        obtain rfl := Option.some.inj hr
        exact h.drain hq hp
    | restartRequested =>
      obtain ⟨hp, hv⟩ := Supervisor.step_restartRequested hv
      obtain ⟨rfl, rfl⟩ := Prod.mk.inj hv
      obtain ⟨q, hq, rfl⟩ := Option.map_eq_some_iff.mp hr
      exact h.serve hq hp
    | _ => exact h.other hv hr (by simp) (by simp)

end Steps

theorem run_inv {ls : List (Input × List Note)} {s : RestartSystem}
    (h : Run RestartSystem.Step .start ls s) : Inv (notes ls) s := by
  refine h.history (P := fun ls s => Inv (notes ls) s) inv_start fun hi hs => ?_
  simpa [notes] using hi.step hs

/-- A request a run needs is in the channel when its select could take it. A
run is quit at most once, on a trip since its drain. The drain discards only
what was raised before it, when every earlier run had stopped or been
abandoned; and what finds the channel full finds a request there that is
served or discarded with it. -/
theorem restart_requests_kept {ls : List (Input × List Note)} {s : RestartSystem}
    (h : Run RestartSystem.Step .start ls s) :
    (s.supervisor.phase = .selecting → (∃ b, .trip b ∈ sinceDrain (notes ls)) →
        s.requests.queue ≠ [] ∧ (s.next (.wake .restartRequested)).isSome) ∧
      Throughout (Justified AllOver) (notes ls) := by
  have hi := run_inv h
  refine ⟨fun hp ht => ?_, hi.justified⟩
  have hq := hi.kept (by rw [hp]; rfl) ht
  refine ⟨hq, ?_⟩
  obtain ⟨⟨phase, f⟩, requests⟩ := s
  obtain rfl : phase = .selecting := hp
  cases hr : requests.tryRecv with
  | none => exact absurd (Channel.tryRecv_eq_none.mp hr) hq
  | some r => simp [RestartSystem.next, Supervisor.step, RestartSystem.receive, hr]

/-- The supervisor is selecting after two trips, of which the second was dropped. -/
theorem restart_requests_kept_coalesced :
    ∃ ls s, Run RestartSystem.Step .start ls s ∧
      notes ls = [.drained, .called .init, .called .run, .trip true, .trip false] ∧
      s.requests.queue ≠ [] ∧ Throughout (Justified AllOver) (notes ls) := by
  obtain ⟨ls, s, h, -, hv⟩ := replayed RestartSystem.next RestartSystem.Step (fun _ _ _ _ h => h)
    .start [.wake (.checked false), .wake (.received false), .wake (.initialized true),
      .effect .requestRestart, .effect .requestRestart]
    ([.drained, .called .init, .called .run, .trip true, .trip false], .selecting)
    (fun r => (notes r.2, r.1.supervisor.phase)) (by decide)
  obtain ⟨hn, hp⟩ := Prod.mk.inj hv
  obtain ⟨hkept, hjust⟩ := restart_requests_kept h
  exact ⟨ls, s, h, hn, (hkept hp ⟨true, by rw [hn]; decide⟩).1, hjust⟩

/-- The join of a quit run times out while a second trip waits. The next drain
discards that request although the run has never stopped. -/
theorem abandoned_run_still_up :
    ∃ ls s, Run RestartSystem.Step .start ls s ∧
      ¬ Throughout (Justified AllStopped) (notes ls) := by
  obtain ⟨ls, s, h, -, hv⟩ := replayed RestartSystem.next RestartSystem.Step (fun _ _ _ _ h => h)
    .start [.wake (.checked false), .wake (.received false), .wake (.initialized true),
      .effect .requestRestart, .wake .restartRequested, .effect .requestRestart, .wake .asked,
      .wake (.joined none), .wake (.cleanedUp true), .wake (.answered (some true)),
      .wake .slept, .wake (.checked false), .wake (.received true)]
    ([.drained, .called .init, .called .run, .trip true, .served, .called .quit, .trip true,
      .abandoned, .called .cleanUp, .called .reset] ++ .discarded :: [])
    (fun r => notes r.2) (by decide)
  refine ⟨ls, s, h, fun hj => ?_⟩
  obtain ⟨-, hs⟩ := hj _ _ _ hv
  exact absurd hs (by unfold AllStopped; decide)

end SrtWhep.RestartRequests
