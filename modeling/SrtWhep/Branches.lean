import SrtWhep.Moves

namespace SrtWhep.Branches

open Library.Runs Library.Tables Moves

/-- The pipeline as its branch contract describes it: a call attaches or
detaches the branch exactly when it succeeds within the bound. -/
def apply (attached : Finset ConnectionId) : Effect → Finset ConnectionId
  | .addBranch id call => if call.succeeded then insert id attached else attached
  | .removeBranch id call => if call.succeeded then attached.erase id else attached
  | _ => attached

def after (attached : Finset ConnectionId) (os : List Effect) : Finset ConnectionId :=
  os.foldl apply attached

def attached (os : List Effect) : Finset ConnectionId := after ∅ os

@[simp] def ending (id : ConnectionId) : Effect → Option TerminateReason
  | .ended i reason => if i = id then some reason else none
  | _ => none

def endings (id : ConnectionId) (os : List Effect) : List TerminateReason :=
  os.filterMap (ending id)

def created : Command → Option ConnectionId
  | .createConnection id _ => some id
  | _ => none

/-- The entry was given up and the removal right behind it did not succeed. -/
def Abandoned (os : List Effect) (id : ConnectionId) (reason : TerminateReason) : Prop :=
  ∃ os₁ os₂ call, os = os₁ ++ .ended id reason :: .removeBranch id call :: os₂ ∧
    call.succeeded = false

/-- How an attached branch lost its entry: it was given up once, by a
best-effort removal that failed or by a wipe. -/
def Unowned (os : List Effect) (id : ConnectionId) : Prop :=
  ∃ reason, endings id os = [reason] ∧
    (reason ∈ [.expired, .peerGone, .reaped] ∧ Abandoned os id reason ∨ reason = .reset)

section Effects

variable {id : ConnectionId} {s : Finset ConnectionId} {os os' : List Effect}

@[simp] theorem after_nil : after s [] = s := rfl

@[simp] theorem after_cons (o : Effect) : after s (o :: os) = after (apply s o) os := rfl

@[simp] theorem after_append : after s (os ++ os') = after (after s os) os' :=
  List.foldl_append

@[simp] theorem endings_nil : endings id [] = [] := rfl

@[simp] theorem endings_append : endings id (os ++ os') = endings id os ++ endings id os' :=
  List.filterMap_append

@[simp] theorem endings_cons (o : Effect) :
    endings id (o :: os) = (ending id o).toList ++ endings id os := by
  cases h : ending id o with
  | none => exact List.filterMap_cons_none h
  | some reason => exact List.filterMap_cons_some h

@[simp] theorem after_notify (state : ConnectionState) (env : Env) (n : WaiterNotice)
    (i : ConnectionId) : after s (state.notify env n i) = s := by
  rw [ConnectionState.notify_eq]
  cases state.parked <;> rfl

@[simp] theorem endings_notify (state : ConnectionState) (env : Env) (n : WaiterNotice)
    (i : ConnectionId) : endings id (state.notify env n i) = [] := by
  rw [ConnectionState.notify_eq]
  cases state.parked <;> rfl

theorem after_drain (c : Coordinator) (env : Env) : after s (drain c env) = s := by
  rw [drain]
  induction walk c.connections env.order with
  | nil => rfl
  | cons e es ih => simpa [apply] using ih

theorem endings_wipe (env : Env) {es : List (ConnectionId × ConnectionState)}
    (hn : (es.map Prod.fst).Nodup) :
    endings id (es.flatMap fun e => e.2.notify env .unavailable e.1 ++ [.ended e.1 .reset]) =
      if id ∈ es.map Prod.fst then [.reset] else [] := by
  induction es with
  | nil => rfl
  | cons e es ih =>
    have hne := (List.nodup_cons.mp hn).1
    rw [List.flatMap_cons, endings_append, ih (List.nodup_cons.mp hn).2]
    by_cases he : e.1 = id
    · subst he
      simp_all
    · have hi : id ∈ (e :: es).map Prod.fst ↔ id ∈ es.map Prod.fst := by simp [Ne.symm he]
      simp only [hi]
      simp [he]

theorem endings_drain {c : Coordinator} {env : Env} (hc : Covers env.order c.connections) :
    endings id (drain c env) = if id ∈ c.connections then [.reset] else [] := by
  have hi : id ∈ (walk c.connections env.order).map Prod.fst ↔ id ∈ c.connections := by
    simp only [Finmap.mem_iff, List.mem_map, Prod.exists, exists_and_right, exists_eq_right,
      hc.mem_walk]
  rw [drain, endings_wipe env (walk_keys_nodup c.connections hc.1)]
  by_cases h : id ∈ c.connections
  · rw [if_pos (hi.mpr h), if_pos h]
  · rw [if_neg (mt hi.mp h), if_neg h]

theorem Unowned.append (h : Unowned os id) (hn : endings id os' = []) :
    Unowned (os ++ os') id := by
  obtain ⟨reason, he, ⟨hr, os₁, os₂, call, rfl, hf⟩ | hr⟩ := h
  · exact ⟨reason, by rw [endings_append, he, hn]; rfl,
      .inl ⟨hr, os₁, os₂ ++ os', call, by simp, hf⟩⟩
  · exact ⟨reason, by rw [endings_append, he, hn]; rfl, .inr hr⟩

theorem Unowned.of_append (h : Unowned os' id) (hn : endings id os = []) :
    Unowned (os ++ os') id := by
  obtain ⟨reason, he, ⟨hr, os₁, os₂, call, rfl, hf⟩ | hr⟩ := h
  · exact ⟨reason, by rw [endings_append, he, hn]; rfl,
      .inl ⟨hr, os ++ os₁, os₂, call, by simp, hf⟩⟩
  · exact ⟨reason, by rw [endings_append, he, hn]; rfl, .inr hr⟩

end Effects

/-- What one move does to one id: nothing, or it registers the id with its
branch, or ends it and leaves its branch detached or unowned. -/
inductive Change (c : Coordinator) (cs : List Command) (os : List Effect) (c' : Coordinator)
    (id : ConnectionId) : Prop
  | same : endings id os = [] → (∀ s, id ∈ after s os ↔ id ∈ s) →
      (id ∈ c'.connections ↔ id ∈ c.connections) → Change c cs os c' id
  | born : endings id os = [] → (∀ s, id ∈ after s os) → id ∈ cs.filterMap created →
      id ∉ c.connections → id ∈ c'.connections → Change c cs os c' id
  | torn : (∀ s, id ∉ after s os) → id ∈ c.connections → id ∉ c'.connections →
      Change c cs os c' id
  | lost : Unowned os id → (∀ s, id ∈ after s os ↔ id ∈ s) → id ∈ c.connections →
      id ∉ c'.connections → Change c cs os c' id

section Moves

variable {c c' : Coordinator} {cs : List Command} {os : List Effect}

theorem rejects_change {cmd : Command} {calls : List Effect} {err : SignalError} (b : Bool)
    (h : Rejects c cmd calls err) (id : ConnectionId) :
    Change c [cmd] (calls ++ [.send cmd.channel (.error err) b]) c id := by
  cases h with
  | attach hl hf => exact .same (by simp) (by simp [apply, hf]) Iff.rfl
  | detach hl hf => exact .same (by simp) (by simp [apply, hf]) Iff.rfl
  | _ => exact .same (by simp) (by simp [apply]) Iff.rfl

/-- Giving up an entry before its best-effort removal detaches the branch or
leaves it unowned, and concerns no other id. -/
theorem bestEffort_change {i : ConnectionId} {state : ConnectionState} {call : BranchCall}
    {w : Watchdog} (reason : TerminateReason) (os₁ os₂ : List Effect)
    (hr : reason ∈ [.expired, .peerGone, .reaped]) (hl : c.connections.lookup i = some state)
    (h₁ : ∀ id, endings id os₁ = []) (h₂ : ∀ id, endings id os₂ = [])
    (ha₁ : ∀ s, after s os₁ = s) (ha₂ : ∀ s, after s os₂ = s) (id : ConnectionId) :
    Change c cs (os₁ ++ .ended i reason :: .removeBranch i call :: os₂)
      { c with connections := c.connections.erase i, watchdog := w } id := by
  by_cases h : id = i
  · subst h
    have hm : id ∈ c.connections := Finmap.mem_of_lookup_eq_some hl
    have hn : id ∉ c.connections.erase id := Finmap.notMem_erase_self
    cases hs : call.succeeded with
    | true => exact .torn (by simp [ha₁, ha₂, apply, hs]) hm hn
    | false =>
      have hu : Unowned (os₁ ++ .ended id reason :: .removeBranch id call :: os₂) id :=
        ⟨reason, by simp [h₁, h₂], .inl ⟨hr, os₁, os₂, call, rfl, hs⟩⟩
      exact .lost hu (by simp [ha₁, ha₂, apply, hs]) hm hn
  · refine .same (by simp [h₁, h₂, Ne.symm h]) (fun s => ?_) (by simp [Finmap.mem_erase, h])
    by_cases hs : call.succeeded <;> simp [ha₁, ha₂, apply, hs, h]

theorem move_change (hm : Move c (cs, os) c') (id : ConnectionId) : Change c cs os c' id := by
  cases hm with
  | reject b hr => exact rejects_change b hr id
  | list infos b => exact .same (by simp) (by simp [apply]) Iff.rfl
  | @register i reply call deadline hl hs hd =>
    have hn : i ∉ c.connections := Finmap.lookup_eq_none.mp hl
    by_cases h : id = i
    · subst h
      exact .born (by simp) (by simp [apply, hs]) (by simp [created]) hn (by simp)
    · exact .same (by simp) (by simp [apply, hs, h]) (by simp [h])
  | @offer i sdp reply whep d now deadline hl hd =>
    have hi : i ∈ c.connections := Finmap.mem_of_lookup_eq_some hl
    refine .same (by simp) (by simp [apply]) ?_
    by_cases h : id = i <;> simp_all
  | @establish i sdp reply whip d since b hl =>
    have hi : i ∈ c.connections := Finmap.mem_of_lookup_eq_some hl
    refine .same (by simp) (by simp [apply]) ?_
    by_cases h : id = i <;> simp_all
  | @abandonOffer i sdp reply whep d call tripped w b hl hw =>
    exact bestEffort_change .peerGone [_, _] [_] (by simp) hl (by simp) (by simp)
      (by simp [apply]) (by simp [apply]) id
  | @abandonAnswer i sdp reply whip d call tripped w b hl hw =>
    exact bestEffort_change .peerGone [_, _] [_] (by simp) hl (by simp) (by simp)
      (by simp [apply]) (by simp [apply]) id
  | @delete i reply state call env b hl hs =>
    by_cases h : id = i
    · subst h
      exact .torn (by simp [apply, hs]) (Finmap.mem_of_lookup_eq_some hl) Finmap.notMem_erase_self
    · exact .same (by simp [Ne.symm h]) (by simp [apply, hs, h]) (by simp [Finmap.mem_erase, h])
  | @expire i state call tripped w env hl hd hw =>
    exact bestEffort_change .expired _ [_] (by simp) hl (by simp) (by simp)
      (by simp) (by simp [apply]) id
  | @reap i state call env hl =>
    exact bestEffort_change .reaped _ [] (by simp) hl (by simp) (by simp)
      (by simp) (by simp) id
  | trip env hc =>
    by_cases h : id ∈ c.connections
    · refine .lost ⟨.reset, by simp [endings_drain hc, h], .inr rfl⟩ ?_ h Finmap.notMem_empty
      simp [after_drain, apply]
    · exact .same (by simp [endings_drain hc, h]) (by simp [after_drain, apply])
        (by simp [h, Finmap.notMem_empty])
  | reset env b hc =>
    by_cases h : id ∈ c.connections
    · refine .lost ⟨.reset, by simp [endings_drain hc, h], .inr rfl⟩ ?_ h Finmap.notMem_empty
      simp [after_drain, apply]
    · exact .same (by simp [endings_drain hc, h]) (by simp [after_drain, apply])
        (by simp [h, Finmap.notMem_empty])

end Moves

def AddsDetached (s : Finset ConnectionId) : List Effect → Prop
  | [] => True
  | o :: os => (∀ id call, o = .addBranch id call → id ∉ s) ∧ AddsDetached (apply s o) os

theorem addsDetached_append {s : Finset ConnectionId} {os os' : List Effect} :
    AddsDetached s (os ++ os') ↔ AddsDetached s os ∧ AddsDetached (after s os) os' := by
  induction os generalizing s with
  | nil => simp [AddsDetached]
  | cons o os ih => simp [AddsDetached, ih, and_assoc]

theorem addsDetached_of_none {s : Finset ConnectionId} {os : List Effect}
    (h : ∀ id call, .addBranch id call ∉ os) : AddsDetached s os := by
  induction os generalizing s with
  | nil => trivial
  | cons o os ih =>
    have ho : ∀ id call, o ≠ .addBranch id call := fun id call he => h id call (by simp [he])
    exact ⟨fun id call he => absurd he (ho id call), ih fun id call hm => h id call (by simp [hm])⟩

theorem move_addsDetached {c c' : Coordinator} {cs : List Command} {os : List Effect}
    {s : Finset ConnectionId} (hm : Move c (cs, os) c')
    (hs : ∀ id ∈ cs.filterMap created, id ∉ s) : AddsDetached s os := by
  cases hm with
  | reject b hr =>
    cases hr with
    | @attach id reply call hl hf =>
      have hn : id ∉ s := hs id (by simp [created])
      simp [AddsDetached, hn]
    | _ => exact addsDetached_of_none (by simp)
  | @register id reply call deadline hl hok hd =>
    have hn : id ∉ s := hs id (by simp [created])
    simp [AddsDetached, hn]
  | _ => exact addsDetached_of_none (by simp [drain, ConnectionState.notify_eq])

/-- Where an id stands after a run: never created, in the map with its branch
attached, detached, or attached without an entry. -/
inductive Fate (cs : List Command) (os : List Effect) (c : Coordinator) (id : ConnectionId) : Prop
  | fresh : id ∉ cs.filterMap created → id ∉ c.connections → id ∉ attached os →
      endings id os = [] → Fate cs os c id
  | owned : id ∈ cs.filterMap created → id ∈ c.connections → id ∈ attached os →
      endings id os = [] → Fate cs os c id
  | detached : id ∈ cs.filterMap created → id ∉ c.connections → id ∉ attached os →
      Fate cs os c id
  | unowned : id ∈ cs.filterMap created → id ∉ c.connections → id ∈ attached os →
      Unowned os id → Fate cs os c id

theorem Fate.not_attached {cs : List Command} {os : List Effect} {c : Coordinator}
    {id : ConnectionId} (h : Fate cs os c id) (hn : id ∉ cs.filterMap created) :
    id ∉ attached os := by
  cases h with
  | fresh _ _ ha _ => exact ha
  | owned hc => exact absurd hc hn
  | detached hc => exact absurd hc hn
  | unowned hc => exact absurd hc hn

theorem Fate.step {cs cs' : List Command} {os os' : List Effect} {c c' : Coordinator}
    {id : ConnectionId} (h : Fate cs os c id) (hch : Change c cs' os' c' id)
    (hn : ((cs ++ cs').filterMap created).Nodup) : Fate (cs ++ cs') (os ++ os') c' id := by
  rw [List.filterMap_append, List.nodup_append] at hn
  have hdis : id ∈ cs.filterMap created → id ∉ cs'.filterMap created :=
    fun h h' => hn.2.2 id h id h' rfl
  have ha : attached (os ++ os') = after (attached os) os' := after_append
  have hcs : (cs ++ cs').filterMap created = cs.filterMap created ++ cs'.filterMap created :=
    List.filterMap_append
  cases h with
  | fresh hc hm hat he =>
    cases hch with
    | same he' hs hk =>
      by_cases hc' : id ∈ cs'.filterMap created
      · exact .detached (by simp [hcs, hc']) (by rwa [hk]) (by rwa [ha, hs])
      · exact .fresh (by simp [hcs, hc, hc']) (by rwa [hk]) (by rwa [ha, hs]) (by simp [he, he'])
    | born he' hs hc' _ hk =>
      exact .owned (by simp [hcs, hc']) hk (ha ▸ hs _) (by simp [he, he'])
    | torn _ hk => exact absurd hk hm
    | lost _ _ hk => exact absurd hk hm
  | owned hc hm hat he =>
    cases hch with
    | same he' hs hk =>
      exact .owned (by simp [hcs, hc]) (by rwa [hk]) (by rwa [ha, hs]) (by simp [he, he'])
    | born _ _ _ hk => exact absurd hm hk
    | torn hs _ hk => exact .detached (by simp [hcs, hc]) hk (ha ▸ hs _)
    | lost hu hs _ hk =>
      exact .unowned (by simp [hcs, hc]) hk (by rwa [ha, hs]) (hu.of_append he)
  | detached hc hm hat =>
    cases hch with
    | same _ hs hk => exact .detached (by simp [hcs, hc]) (by rwa [hk]) (by rwa [ha, hs])
    | born _ _ hc' => exact absurd hc' (hdis hc)
    | torn _ hk => exact absurd hk hm
    | lost _ _ hk => exact absurd hk hm
  | unowned hc hm hat hu =>
    cases hch with
    | same he' hs hk =>
      exact .unowned (by simp [hcs, hc]) (by rwa [hk]) (by rwa [ha, hs]) (hu.append he')
    | born _ _ hc' => exact absurd hc' (hdis hc)
    | torn _ hk => exact absurd hk hm
    | lost _ _ hk => exact absurd hk hm

theorem run_fate {config : CoordinatorConfig} {ls : List (Event × List Effect)} {c : Coordinator}
    (h : Run Coordinator.Step (.new config) ls c)
    (hn : ((taken ls).filterMap created).Nodup) :
    (∀ id, Fate (taken ls) (trace ls) c id) ∧ AddsDetached ∅ (trace ls) := by
  refine move_history (P := fun cs os d => (cs.filterMap created).Nodup →
    (∀ id, Fate cs os d id) ∧ AddsDetached ∅ os) h (fun _ => ⟨fun id => ?_, trivial⟩) ?_ hn
  · exact .fresh (by simp) Finmap.notMem_empty (by simp [attached]) rfl
  · intro cs os d cs' os' d' hp hm hnd
    have hnd' : (cs.filterMap created).Nodup := by
      rw [List.filterMap_append] at hnd
      exact hnd.of_append_left
    obtain ⟨hf, had⟩ := hp hnd'
    refine ⟨fun id => (hf id).step (move_change hm id) hnd, addsDetached_append.mpr ⟨had, ?_⟩⟩
    refine move_addsDetached hm fun id hid => (hf id).not_attached fun hid' => ?_
    rw [List.filterMap_append, List.nodup_append] at hnd
    exact hnd.2.2 id hid' id hid rfl

/-- Connections and branches stay matched: what is in the map is attached, a
branch without an entry was abandoned by a failed removal or kept by a wipe,
and no branch is attached twice. -/
theorem branches_conserved {config : CoordinatorConfig} {ls : List (Event × List Effect)}
    {c : Coordinator} (h : Run Coordinator.Step (.new config) ls c)
    (hn : ((taken ls).filterMap created).Nodup) :
    (∀ id ∈ c.connections, id ∈ attached (trace ls)) ∧
      (∀ id ∈ attached (trace ls), id ∉ c.connections → Unowned (trace ls) id) ∧
      ∀ os₁ os₂ id call, trace ls = os₁ ++ .addBranch id call :: os₂ → id ∉ attached os₁ := by
  obtain ⟨hf, had⟩ := run_fate h hn
  refine ⟨fun id hm => ?_, fun id ha hm => ?_, fun os₁ os₂ id call he => ?_⟩
  · cases hf id with
    | owned _ _ ha _ => exact ha
    | fresh _ hm' => exact absurd hm hm'
    | detached _ hm' => exact absurd hm hm'
    | unowned _ hm' => exact absurd hm hm'
  · cases hf id with
    | unowned _ _ _ hu => exact hu
    | owned _ hm' => exact absurd hm' hm
    | fresh _ _ ha' => exact absurd ha ha'
    | detached _ _ ha' => exact absurd ha ha'
  · rw [he, addsDetached_append] at had
    exact had.2.1 id call rfl

/-- A reaped viewer whose detach is cut off leaves its branch unowned. -/
theorem branches_conserved_reap : ∃ ls c, Run Coordinator.Step (.new {}) ls c ∧
    "a" ∈ attached (trace ls) ∧ "a" ∉ c.connections ∧
    (∀ id ∈ c.connections, id ∈ attached (trace ls)) ∧
      (∀ id ∈ attached (trace ls), id ∉ c.connections → Unowned (trace ls) id) ∧
      ∀ os₁ os₂ id call, trace ls = os₁ ++ .addBranch id call :: os₂ → id ∉ attached os₁ := by
  obtain ⟨ls, c, h, -, hv⟩ := replayed Coordinator.next Coordinator.Step
    (fun _ _ _ _ => Coordinator.next_eq_some.mp) (.new {})
    [.command (.createConnection "a" ⟨0⟩) (.calm 0 []),
      .branchFailure ⟨"a"⟩ { Env.calm 1 ["a"] with branch := fun _ => ⟨none, 5⟩ }]
    (["a"], true, false)
    (fun r => ((taken r.2).filterMap created, decide ("a" ∈ attached (trace r.2)),
      decide ("a" ∈ r.1.connections))) (by decide)
  obtain ⟨ht, ha, hm⟩ : (taken ls).filterMap created = ["a"] ∧ "a" ∈ attached (trace ls) ∧
      "a" ∉ c.connections := by simpa using hv
  exact ⟨ls, c, h, ha, hm, branches_conserved h (by rw [ht]; decide)⟩

end SrtWhep.Branches
