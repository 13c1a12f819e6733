import SrtWhep.Branches
import SrtWhep.Handshake.Incarnations
import SrtWhep.Rejections
import SrtWhep.Watchdog.Histories

namespace SrtWhep.Feeding

open Library.Runs Library.Tables Moves Deliveries Branches Handshake

inductive Feed
  | failure
  | success
deriving DecidableEq, Repr

@[simp] def feeding (id : ConnectionId) : Effect → Option Feed
  | .recordFailure i _ => if i = id then some .failure else none
  | .recordSuccess (some i) => if i = id then some .success else none
  | _ => none

def feeds (id : ConnectionId) (os : List Effect) : List Feed := os.filterMap (feeding id)

inductive Standing
  | absent
  | pending
  | established
deriving DecidableEq, Repr

@[simp] def stage : ConnectionState → Standing
  | .established _ => .established
  | _ => .pending

def standing (c : Coordinator) (id : ConnectionId) : Standing :=
  (c.connections.lookup id).elim .absent stage

/-- What can happen to an id without a command that names it: it stays as it
is, or it is given up, with one failure for the reasons that feed the watchdog. -/
inductive Ends : Standing → List Feed → List TerminateReason → Standing → Prop
  | stay (s) : Ends s [] [] s
  | failed {reason} : reason.policy.feedsWatchdog = true →
      Ends .pending [.failure] [reason] .absent
  | closed {s reason} : s ≠ .absent → reason.policy.feedsWatchdog = false →
      Ends s [] [reason] .absent

inductive Course : Standing → List Feed → List TerminateReason → Standing → Prop
  | ends {s fs rs t} : Ends s fs rs t → Course s fs rs t
  | born : Course .absent [] [] .pending
  | answered : Course .pending [.success] [] .established

section Effects

variable {id : ConnectionId} {os os' : List Effect}

@[simp] theorem feeds_nil : feeds id [] = [] := rfl

@[simp] theorem feeds_append : feeds id (os ++ os') = feeds id os ++ feeds id os' :=
  List.filterMap_append

@[simp] theorem feeds_cons (o : Effect) :
    feeds id (o :: os) = (feeding id o).toList ++ feeds id os := by
  cases h : feeding id o with
  | none => exact List.filterMap_cons_none h
  | some f => exact List.filterMap_cons_some h

@[simp] theorem feeds_notify (state : ConnectionState) (env : Env) (n : WaiterNotice)
    (i : ConnectionId) : feeds id (state.notify env n i) = [] := by
  rw [ConnectionState.notify_eq]
  cases state.parked <;> rfl

@[simp] theorem feeds_drain (c : Coordinator) (env : Env) : feeds id (drain c env) = [] := by
  rw [drain]
  induction walk c.connections env.order with
  | nil => rfl
  | cons e es ih => simpa using ih

end Effects

section Standings

variable {c c' : Coordinator} {id i : ConnectionId} {state : ConnectionState} {w : Watchdog}

theorem standing_of_lookup (h : c.connections.lookup id = some state) :
    standing c id = stage state := by
  rw [standing, h]
  rfl

theorem standing_eq_absent : standing c id = .absent ↔ id ∉ c.connections := by
  rw [← Finmap.lookup_eq_none, standing]
  cases h : c.connections.lookup id with
  | none => simp
  | some state => cases state <;> simp [stage]

theorem standing_insert : standing { c with connections := c.connections.insert i state } id =
    if id = i then stage state else standing c id := by
  simp only [standing, lookup_insert]
  split <;> rfl

theorem standing_replace :
    standing { c with
        connections := (c.connections.erase i).insert i state
        watchdog := w } id =
      if id = i then stage state else standing c id := by
  simp only [standing, lookup_insert, lookup_erase]
  split <;> rfl

theorem standing_erase :
    standing { c with connections := c.connections.erase i, watchdog := w } id =
      if id = i then .absent else standing c id := by
  simp only [standing, lookup_erase]
  split <;> rfl

end Standings

theorem Ends.trans {s t u : Standing} {fs fs' : List Feed} {rs rs' : List TerminateReason}
    (h : Ends s fs rs t) (g : Ends t fs' rs' u) : Ends s (fs ++ fs') (rs ++ rs') u := by
  cases h with
  | stay => exact g
  | failed hr =>
    cases g with
    | stay => exact .failed hr
    | closed hs => exact absurd rfl hs
  | closed hs hr =>
    cases g with
    | stay => exact .closed hs hr
    | closed hs' => exact absurd rfl hs'

theorem Course.of_absent {fs : List Feed} {rs : List TerminateReason} {t : Standing}
    (h : Course .absent fs rs t) : fs = [] ∧ rs = [] ∧ t ≠ .established := by
  cases h with
  | ends he =>
    cases he with
    | stay => exact ⟨rfl, rfl, by simp⟩
    | closed hs => exact absurd rfl hs
  | born => exact ⟨rfl, rfl, by simp⟩

section Courses

variable {c c' : Coordinator} {cs : List Command} {os : List Effect} {id : ConnectionId}

theorem erase_ends {i : ConnectionId} {w : Watchdog} {fs : List Feed} {rs : List TerminateReason}
    (h : id = i → Ends (standing c id) fs rs .absent) (hn : id ≠ i → fs = [] ∧ rs = []) :
    Ends (standing c id) fs rs
      (standing { c with connections := c.connections.erase i, watchdog := w } id) := by
  rw [standing_erase]
  split
  next he => exact h he
  next hne =>
    obtain ⟨rfl, rfl⟩ := hn hne
    exact .stay _

theorem drain_ends {env : Env} {w : Watchdog} (hc : Covers env.order c.connections) :
    Ends (standing c id) [] (endings id (drain c env))
      (standing { c with connections := ∅, watchdog := w } id) := by
  have ht : standing { c with connections := ∅, watchdog := w } id = .absent :=
    standing_eq_absent.mpr Finmap.notMem_empty
  rw [ht, endings_drain hc]
  split
  next h => exact .closed (mt standing_eq_absent.mp (not_not_intro h)) rfl
  next h =>
    rw [standing_eq_absent.mpr h]
    exact .stay _

theorem uncommanded_ends (hm : Move c ([], os) c') :
    Ends (standing c id) (feeds id os) (endings id os) (standing c' id) := by
  cases hm with
  | @expire i state call tripped w env hl hd hw =>
    refine erase_ends (fun he => ?_) fun hne => by simp [Ne.symm hne]
    subst he
    have hp : standing c id = .pending := by
      rw [standing_of_lookup hl]
      cases state with
      | established since => simp [ConnectionState.deadline] at hd
      | awaitingOffer | awaitingAnswer => rfl
    rw [hp]
    simpa using @Ends.failed .expired rfl
  | @reap i state call env hl =>
    refine erase_ends (fun he => ?_) fun hne => by simp [Ne.symm hne]
    subst he
    have hs : standing c id ≠ .absent :=
      mt standing_eq_absent.mp (not_not_intro (Finmap.mem_of_lookup_eq_some hl))
    simpa using @Ends.closed _ .reaped hs rfl
  | trip env hc => simpa using drain_ends hc

theorem uncommanded_run_ends {ms : List (List Command × List Effect)} (h : Run Move c ms c')
    (hn : ms.flatMap Prod.fst = []) :
    Ends (standing c id) (feeds id (ms.flatMap Prod.snd)) (endings id (ms.flatMap Prod.snd))
      (standing c' id) := by
  induction h with
  | nil c => exact .stay _
  | @cons c d c' m ms hm _ ih =>
    obtain ⟨cs, os⟩ := m
    obtain ⟨rfl, hn⟩ : cs = [] ∧ ms.flatMap Prod.fst = [] := by simpa using hn
    rw [List.flatMap_cons, feeds_append, endings_append]
    exact (uncommanded_ends hm).trans (ih hn)

/-- A commanded move that can be followed by a wipe has only given up its id. -/
theorem move_course {cmd : Command} (hm : Move c ([cmd], os) c') :
    Ends (standing c id) (feeds id os) (endings id os) (standing c' id) ∨
      Course (standing c id) (feeds id os) (endings id os) (standing c' id) ∧
        ∀ i, .recordFailure i true ∉ os := by
  cases hm with
  | reject b hr =>
    refine .inl ?_
    cases hr <;> simpa using Ends.stay _
  | list infos b => exact .inl (by simpa using Ends.stay _)
  | @register i reply call deadline hl hs hd =>
    refine .inr ⟨?_, by simp⟩
    rw [standing_insert]
    split
    next he =>
      subst he
      rw [standing_eq_absent.mpr (Finmap.lookup_eq_none.mp hl)]
      exact .born
    next => exact .ends (by simpa using Ends.stay _)
  | @offer i sdp reply whep d now deadline hl hd =>
    refine .inl ?_
    rw [standing_replace]
    split
    next he =>
      subst he
      rw [standing_of_lookup hl]
      simpa using Ends.stay _
    next => simpa using Ends.stay _
  | @establish i sdp reply whip d since b hl =>
    refine .inr ⟨?_, by simp⟩
    rw [standing_replace]
    split
    next he =>
      subst he
      rw [standing_of_lookup hl]
      simpa using Course.answered
    next hne => exact .ends (by simpa [Ne.symm hne] using Ends.stay _)
  | @abandonOffer i sdp reply whep d call tripped w b hl hw =>
    refine .inl (erase_ends (fun he => ?_) fun hne => by simp [Ne.symm hne])
    subst he
    rw [standing_of_lookup hl]
    simpa using @Ends.failed .peerGone rfl
  | @abandonAnswer i sdp reply whip d call tripped w b hl hw =>
    refine .inl (erase_ends (fun he => ?_) fun hne => by simp [Ne.symm hne])
    subst he
    rw [standing_of_lookup hl]
    simpa using @Ends.failed .peerGone rfl
  | @delete i reply state call env b hl hs =>
    refine .inl (erase_ends (fun he => ?_) fun hne => by simp [Ne.symm hne])
    subst he
    have hs : standing c id ≠ .absent :=
      mt standing_eq_absent.mp (not_not_intro (Finmap.mem_of_lookup_eq_some hl))
    simpa using @Ends.closed _ .deleted hs rfl
  | reset env b hc => exact .inl (by simpa using drain_ends hc)

theorem settles_ends {os' : List Effect} (h : Settles c os os' c') :
    Ends (standing c id) (feeds id os') (endings id os') (standing c' id) := by
  cases h with
  | calm => exact .stay _
  | trip env ht hc => simpa using drain_ends hc

theorem step_course {l : Event × List Effect} (h : c.Step l c') (id : ConnectionId) :
    Course (standing c id) (feeds id l.2) (endings id l.2) (standing c' id) := by
  obtain ⟨e, os⟩ := l
  cases e with
  | command cmd env =>
    obtain ⟨os₁, c₁, os₂, hm, hs, rfl⟩ := handle_move h.1 h.2
    rw [feeds_append, endings_append]
    obtain he | ⟨hc, hn⟩ := @move_course _ _ _ id _ hm
    · exact .ends (he.trans (settles_ends hs))
    · obtain ⟨rfl, rfl⟩ := hs.of_calm hn
      simpa using hc
  | branchFailure branch env =>
    obtain ⟨ms, hms, hcmd, rfl⟩ := step_moves h
    exact .ends (uncommanded_run_ends hms hcmd)
  | sweepTick env =>
    obtain ⟨ms, hms, hcmd, rfl⟩ := step_moves h
    exact .ends (uncommanded_run_ends hms hcmd)

end Courses

end SrtWhep.Feeding
