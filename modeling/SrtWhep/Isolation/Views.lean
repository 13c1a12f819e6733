import SrtWhep.Moves

namespace SrtWhep.Isolation

open Library.Runs Library.Tables Moves

def only (a : ConnectionId) (env : Env) : Env := { env with order := env.order.filter (· = a) }

@[simp] theorem only_branch (a : ConnectionId) (env : Env) : (only a env).branch = env.branch := rfl

/-- What is left of an event when everything that names another id is deleted. -/
def concerning (a : ConnectionId) : Event → Option Event
  | .command cmd env =>
    if cmd.connection = some a ∨ cmd.connection = none then some (.command cmd (only a env))
    else none
  | .branchFailure branch env =>
    if branch.intoString = a then some (.branchFailure branch (only a env)) else none
  | .sweepTick env => some (.sweepTick (only a env))

@[simp] def shows (a : ConnectionId) (mine : Nat → Bool) : Effect → Bool
  | .send ch _ _ => mine ch
  | .addBranch id _ => decide (id = a)
  | .removeBranch id _ => decide (id = a)
  | _ => false

/-- What a viewer sees of a list of effects: the replies on its channels and
the calls made for its branch. -/
def view (a : ConnectionId) (mine : Nat → Bool) (os : List Effect) : List Effect :=
  os.filter (shows a mine)

section Views

variable {a : ConnectionId} {mine : Nat → Bool} {os os' : List Effect}

@[simp] theorem view_nil : view a mine [] = [] := rfl

@[simp] theorem view_cons (o : Effect) :
    view a mine (o :: os) = (if shows a mine o then [o] else []) ++ view a mine os := by
  by_cases h : shows a mine o
  · rw [if_pos h]
    exact List.filter_cons_of_pos h
  · rw [if_neg h]
    exact List.filter_cons_of_neg h

@[simp] theorem view_append : view a mine (os ++ os') = view a mine os ++ view a mine os' :=
  List.filter_append ..

theorem view_notify {state : ConnectionState} {env : Env} {n : WaiterNotice} {id : ConnectionId}
    (h : ∀ ch, state.parked = some ch → mine ch = false) :
    view a mine (state.notify env n id) = [] := by
  rw [ConnectionState.notify_eq]
  cases hp : state.parked with
  | none => rfl
  | some ch => simp [h ch hp]

@[simp] theorem notify_only (state : ConnectionState) (env : Env) (n : WaiterNotice)
    (id : ConnectionId) : state.notify (only a env) n id = state.notify env n id := by
  rw [ConnectionState.notify_eq, ConnectionState.notify_eq]
  rfl

@[simp] theorem send_only {T : Type} [Carried T] (s : Sender T) (env : Env)
    (r : Except SignalError T) : s.send (only a env) r = s.send env r := rfl

end Views

section Elsewhere

variable {a b : ConnectionId} {c d : Coordinator} {env : Env} {os : List Effect}
  {mine : Nat → Bool}

def Foreign (mine : Nat → Bool) (c : Coordinator) (id : ConnectionId) : Prop :=
  ∀ state ch, c.connections.lookup id = some state → state.parked = some ch → mine ch = false

theorem rejects_elsewhere {cmd : Command} {calls : List Effect} {err : SignalError}
    (h : Rejects c cmd calls err) (hb : cmd.connection ≠ some a) : view a mine calls = [] := by
  cases h with
  | @attach id reply call hl hf =>
    have hid : id ≠ a := fun he => hb (congrArg some he)
    simp [hid]
  | @detach id reply state call hl hf =>
    have hid : id ≠ a := fun he => hb (congrArg some he)
    simp [hid]
  | _ => rfl

theorem move_elsewhere {cmd : Command} (h : Move c ([cmd], os) d)
    (hb : cmd.connection = some b) (hne : b ≠ a) (hm : mine cmd.channel = false)
    (hf : Foreign mine c b) :
    d.connections.lookup a = c.connections.lookup a ∧ view a mine os = [] := by
  have hab : a ≠ b := Ne.symm hne
  cases h with
  | @reject _ calls err b' hr =>
    have hv : view a mine calls = [] := rejects_elsewhere hr (by simp [hb, hne])
    simp [hv, hm]
  | list infos b' => cases hb
  | register hl hs hd =>
    cases hb
    exact ⟨by simp [hab], by simp [hne]⟩
  | offer hl hd =>
    cases hb
    exact ⟨by simp [hab], by simp [hf _ _ hl rfl]⟩
  | establish since b' hl =>
    cases hb
    have hm' : mine _ = false := hm
    exact ⟨by simp [hab], by simp_all [hf _ _ hl rfl, Command.channel]⟩
  | abandonOffer b' hl hw =>
    cases hb
    exact ⟨by simp [hab], by simp_all [hf _ _ hl rfl, Command.channel]⟩
  | abandonAnswer b' hl hw =>
    cases hb
    exact ⟨by simp [hab], by simp_all [hf _ _ hl rfl, Command.channel]⟩
  | @delete id reply state call env b' hl hs =>
    cases hb
    have hv : view a mine (state.notify env .gone b) = [] := view_notify (hf _ · hl)
    exact ⟨by simp [hab], by simp_all [Command.channel]⟩
  | reset env b' hc => cases hb

theorem reap_elsewhere (h : c.reapBranch b env = some (d, os)) (hne : b ≠ a)
    (hf : Foreign mine c b) :
    d.connections.lookup a = c.connections.lookup a ∧ view a mine os = [] := by
  obtain ⟨-, rfl, rfl⟩ | ⟨state, hl, rfl, rfl⟩ := reapBranch_move h
  · exact ⟨rfl, rfl⟩
  · have hv : view a mine (state.notify env .gone b) = [] := view_notify (hf state · hl)
    exact ⟨by simp [Coordinator.remove, Ne.symm hne], by simp [hv, hne]⟩

theorem terminate_expired_calm {state : ConnectionState} {r : Except SignalError Unit}
    (hl : c.connections.lookup b = some state)
    (h : c.terminate b .expired env = some (r, d, os)) (ht : ∀ id, .recordFailure id true ∉ os) :
    ∃ w, d = { c with connections := c.connections.erase b, watchdog := w } ∧
      os = state.notify env .expiredLeg b ++
        [.ended b .expired, .removeBranch b (env.branch b), .recordFailure b false] := by
  obtain ⟨tripped, w, -, ⟨-, rfl, rfl⟩ | ⟨-, -, rfl⟩⟩ := terminate_expired_cases hl h
  · exact ⟨w, rfl, rfl⟩
  · exact absurd (by simp) (ht b)

theorem sweep_view {ids : List ConnectionId}
    (h : Coordinator.terminateExpired env ids c = some (d, os))
    (ht : ∀ id, .recordFailure id true ∉ os) (hn : ids.Nodup)
    (hf : ∀ id, id ≠ a → Foreign mine c id) :
    (a ∉ ids → d.connections.lookup a = c.connections.lookup a ∧ view a mine os = []) ∧
      (a ∈ ids → ∀ state, c.connections.lookup a = some state →
        d.connections.lookup a = none ∧ view a mine os =
          view a mine (state.notify env .expiredLeg a) ++ [.removeBranch a (env.branch a)]) := by
  induction ids generalizing c os with
  | nil =>
    cases h
    exact ⟨fun _ => ⟨rfl, rfl⟩, by simp⟩
  | cons id ids ih =>
    obtain ⟨r, d₁, os₁, os₂, hx, hr, rfl⟩ := terminateExpired_cons h
    have ht₁ : ∀ i, .recordFailure i true ∉ os₁ := fun i hm => ht i (by simp [hm])
    have ht₂ : ∀ i, .recordFailure i true ∉ os₂ := fun i hm => ht i (by simp [hm])
    obtain ⟨hid, hn⟩ := List.nodup_cons.mp hn
    cases hl : c.connections.lookup id with
    | none =>
      simp only [terminate_expired_absent hl, Option.some.injEq, Prod.mk.injEq] at hx
      obtain ⟨-, rfl, rfl⟩ := hx
      obtain ⟨hout, hin⟩ := ih hr ht₂ hn hf
      refine ⟨fun hm => hout fun hm' => hm (by simp [hm']), fun hm state hs => ?_⟩
      have hne : a ≠ id := by
        rintro rfl
        rw [hl] at hs
        cases hs
      exact hin (by simpa [hne] using hm) state hs
    | some state =>
      obtain ⟨w, rfl, rfl⟩ := terminate_expired_calm hl hx ht₁
      have hf' : ∀ i, i ≠ a → Foreign mine
          { c with connections := c.connections.erase id, watchdog := w } i := by
        intro i hi st ch hs
        rw [lookup_erase] at hs
        split at hs
        · cases hs
        · exact hf i hi st ch hs
      obtain ⟨hout, hin⟩ := ih hr ht₂ hn hf'
      by_cases he : id = a
      · subst he
        obtain ⟨hd, hv⟩ := hout hid
        refine ⟨fun hm => absurd (by simp) hm, fun _ st hs => ?_⟩
        obtain rfl := Option.some.inj (hl.symm.trans hs)
        exact ⟨by simpa using hd, by simp [hv]⟩
      · have hae : a ≠ id := Ne.symm he
        have hv₁ : view a mine (state.notify env .expiredLeg id) = [] :=
          view_notify (hf id he state · hl)
        have hk : (c.connections.erase id).lookup a = c.connections.lookup a := by
          simp [hae]
        refine ⟨fun hm => ?_, fun hm st hs => ?_⟩
        · obtain ⟨hd, hv⟩ := hout fun hm' => hm (by simp [hm'])
          exact ⟨hd.trans hk, by simp [hv, hv₁, he]⟩
        · obtain ⟨hd, hv⟩ := hin (by simpa [hae] using hm) st (hk.trans hs)
          exact ⟨hd, by simp [hv, hv₁, he]⟩

end Elsewhere

end SrtWhep.Isolation
