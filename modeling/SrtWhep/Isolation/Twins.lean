import SrtWhep.Isolation.Views
import SrtWhep.Panics
import SrtWhep.Waiters

namespace SrtWhep.Isolation

open Library.Runs Library.Tables Moves

/-- Two coordinators that agree on one viewer, the second holding no other. -/
structure Twin (a : ConnectionId) (c c' : Coordinator) : Prop where
  config : c'.config = c.config
  entry : c'.connections.lookup a = c.connections.lookup a
  alone : ∀ id, id ≠ a → c'.connections.lookup id = none

section Twins

variable {a : ConnectionId} {c c' d : Coordinator} {env : Env} {os : List Effect}

theorem Twin.remove (h : Twin a c c') (w w' : Watchdog) :
    Twin a { c with connections := c.connections.erase a, watchdog := w }
      { c' with connections := c'.connections.erase a, watchdog := w' } where
  config := h.config
  entry := by simp
  alone id hid := by simp [lookup_erase, h.alone id hid]

theorem Twin.insert (h : Twin a c c') (state : ConnectionState) (w w' : Watchdog) :
    Twin a { c with connections := c.connections.insert a state, watchdog := w }
      { c' with connections := c'.connections.insert a state, watchdog := w' } where
  config := h.config
  entry := by simp
  alone id hid := by simp [hid, h.alone id hid]

theorem Twin.empty (h : Twin a c c') (hn : c.connections.lookup a = none) :
    c'.connections = ∅ := by
  apply Finmap.ext_lookup
  intro id
  by_cases hid : id = a
  · subst hid
    rw [h.entry, hn]
    rfl
  · rw [h.alone id hid]
    rfl

theorem Twin.covers (h : Twin a c c') (hc : Covers env.order c.connections) :
    Covers (only a env).order c'.connections := by
  refine ⟨hc.1.filter _, fun id hid => ?_⟩
  obtain ⟨state, hl⟩ := Finmap.mem_iff.mp hid
  by_cases he : id = a
  · subst he
    rw [h.entry] at hl
    exact List.mem_filter.mpr ⟨hc.2 id (Finmap.mem_of_lookup_eq_some hl), by simp⟩
  · rw [h.alone id he] at hl
    cases hl

/-- With an empty map a trip has nothing left to tell a viewer. -/
theorem feedWatchdog_alone (h : c'.connections = ∅) : ∃ w os,
    c'.feedWatchdog a env = some ({ c' with watchdog := w }, os) ∧ ∀ mine, view a mine os = [] := by
  obtain ⟨⟨d', os'⟩, hf⟩ := Option.isSome_iff_exists.mp
    (@Panics.feedWatchdog_isSome c' env a)
  obtain ⟨tripped, w, -, ⟨-, rfl, rfl⟩ | ⟨-, rfl, rfl⟩⟩ := feedWatchdog_cases hf
  · exact ⟨w, _, hf, fun mine => rfl⟩
  · have hd : drain c' env = [] := by simp [drain, h]
    exact ⟨w, _, by rw [hf, h], fun mine => by simp [hd]⟩

/-- Another failure count may trip the watchdog, but not for anything that
the viewer could see: its entry is gone already. -/
theorem feedWatchdog_twin (h : Twin a c c') (hn : c.connections.lookup a = none)
    (hf : c.feedWatchdog a env = some (d, os)) (ht : ∀ id, .recordFailure id true ∉ os) :
    ∃ d' os', c'.feedWatchdog a (only a env) = some (d', os') ∧ Twin a d d' ∧
      ∀ mine, view a mine os' = view a mine os := by
  obtain ⟨w', os', hf', hv⟩ := @feedWatchdog_alone a c' (only a env) (h.empty hn)
  refine ⟨_, os', hf', ?_⟩
  obtain ⟨tripped, w, -, ⟨-, rfl, rfl⟩ | ⟨-, -, rfl⟩⟩ := feedWatchdog_cases hf
  · exact ⟨⟨h.config, h.entry, h.alone⟩, fun mine => hv mine⟩
  · exact absurd List.mem_cons_self (ht a)

/-- What a turn for one viewer does, done again where it is alone. -/
def Echoes (a : ConnectionId) (d : Coordinator) (os : List Effect)
    (r : Option (Coordinator × List Effect)) : Prop :=
  ∃ d' os', r = some (d', os') ∧ Twin a d d' ∧ ∀ mine, view a mine os' = view a mine os

theorem Twin.echoes (h : Twin a d c') {r : Option (Coordinator × List Effect)}
    (hr : r = some (c', os)) : Echoes a d os r := ⟨c', os, hr, h, fun _ => rfl⟩

theorem createConnection_twin (h : Twin a c c') {reply : OfferReply}
    (hs : c.createConnection a reply env = some (d, os)) :
    Echoes a d os (c'.createConnection a reply (only a env)) := by
  unfold Coordinator.createConnection Coordinator.containsKey at hs ⊢
  rw [h.entry]
  cases hl : c.connections.lookup a with
  | some state =>
    simp only [hl, Option.isSome_some, if_true, Option.some.injEq, Prod.mk.injEq] at hs
    obtain ⟨rfl, rfl⟩ := hs
    exact h.echoes rfl
  | none =>
    simp only [hl, Option.isSome_none, Bool.false_eq_true, if_false, only_branch] at hs ⊢
    rcases hr : (env.branch a).result with _ | e | u
    · simp only [hr, Option.some.injEq, Prod.mk.injEq] at hs ⊢
      obtain ⟨rfl, rfl⟩ := hs
      exact h.echoes rfl
    · simp only [hr, Option.some.injEq, Prod.mk.injEq] at hs ⊢
      obtain ⟨rfl, rfl⟩ := hs
      exact h.echoes rfl
    · simp only [hr, Option.bind_eq_bind, Option.bind_eq_some_iff, Coordinator.insert, hl,
        Option.some.injEq, Prod.mk.injEq] at hs
      obtain ⟨deadline, hd, rfl, rfl⟩ := hs
      refine (h.insert (.awaitingOffer reply deadline) c.watchdog c'.watchdog).echoes ?_
      have hd' : (env.branch a).returned.checkedAdd c'.config.offerTimeout = some deadline := by
        rw [h.config, hd]
      simp [hd', Coordinator.insert, h.entry, hl]

theorem peerGone_twin (h : Twin a c c') {r : Except SignalError Unit}
    (hs : (c.remove a).terminate a .peerGone env = some (r, d, os))
    (ht : ∀ id, .recordFailure id true ∉ os) :
    ∃ r' d' os', (c'.remove a).terminate a .peerGone (only a env) = some (r', d', os') ∧
      Twin a d d' ∧ ∀ mine, view a mine os' = view a mine os := by
  rw [terminate_peerGone (by simp [Coordinator.remove])] at hs
  obtain ⟨⟨d₁, os₁⟩, hf, hs⟩ := Option.bind_eq_some_iff.mp hs
  simp only [Option.some.injEq, Prod.mk.injEq] at hs
  obtain ⟨-, rfl, rfl⟩ := hs
  have htw : Twin a (c.remove a) (c'.remove a) := h.remove c.watchdog c'.watchdog
  obtain ⟨d', os', hf', htw', hv⟩ := feedWatchdog_twin htw (by simp [Coordinator.remove]) hf
    fun id hm => ht id (by simp [hm])
  rw [terminate_peerGone (by simp [Coordinator.remove]), hf']
  refine ⟨_, _, _, rfl, htw', fun mine => ?_⟩
  rw [view_append, view_append, hv mine]
  rfl

theorem offerReceived_twin (h : Twin a c c') {sdp : SdpOffer} {reply : AnswerReply}
    (hs : c.offerReceived a sdp reply env = some (d, os))
    (ht : ∀ id, .recordFailure id true ∉ os) :
    Echoes a d os (c'.offerReceived a sdp reply (only a env)) := by
  unfold Coordinator.offerReceived at hs ⊢
  rw [h.entry]
  cases hl : c.connections.lookup a with
  | none =>
    simp only [hl, Option.some.injEq, Prod.mk.injEq] at hs ⊢
    obtain ⟨rfl, rfl⟩ := hs
    exact h.echoes rfl
  | some state =>
    have hl' : c'.connections.lookup a = some state := h.entry.trans hl
    simp only [hl] at hs ⊢
    cases state with
    | awaitingOffer whep t =>
      cases hb : env.listening whep.channel with
      | true =>
        have hb' : (only a env).listening whep.channel = true := hb
        simp only [ConnectionState.deliverOffer, hb, if_true, Option.bind_eq_bind,
          Option.bind_eq_some_iff, Coordinator.insert, Coordinator.remove, Finmap.lookup_erase,
          Option.some.injEq, Prod.mk.injEq] at hs
        obtain ⟨deadline, hd, rfl, rfl⟩ := hs
        have hd' : Instant.checkedAdd (only a env).now c'.config.answerTimeout = some deadline := by
          rw [h.config]
          exact hd
        refine ((h.remove c.watchdog c'.watchdog).insert (.awaitingAnswer reply deadline)
          c.watchdog c'.watchdog).echoes ?_
        simp [ConnectionState.deliverOffer, hb', hd', Coordinator.insert, Coordinator.remove, hb]
      | false =>
        have hb' : (only a env).listening whep.channel = false := hb
        simp only [ConnectionState.deliverOffer, hb, Bool.false_eq_true, if_false,
          Option.bind_eq_bind, Option.bind_eq_some_iff, Option.some.injEq, Prod.mk.injEq] at hs
        obtain ⟨⟨r, d₁, os₁⟩, hg, rfl, rfl⟩ := hs
        obtain ⟨r', d', os', hg', htw, hv⟩ := peerGone_twin h hg fun id hm => ht id (by simp [hm])
        refine ⟨d', [whep.send env (.ok sdp)] ++ reply.send env (.error (.gone a)) :: os', ?_, htw,
          fun mine => ?_⟩
        · simp only [ConnectionState.deliverOffer, hb', Bool.false_eq_true, if_false,
            Option.bind_eq_bind, hg', Option.bind_some]
          rfl
        · simp [hv mine, hb]
    | _ =>
      simp only [ConnectionState.deliverOffer, Coordinator.insert, Coordinator.remove,
        Finmap.lookup_erase, insert_erase hl, insert_erase hl', Option.some.injEq,
        Prod.mk.injEq] at hs ⊢
      obtain ⟨rfl, rfl⟩ := hs
      exact h.echoes rfl

theorem answerReceived_twin (h : Twin a c c') {sdp : SdpAnswer} {reply : UnitReply}
    (hs : c.answerReceived a sdp reply env = some (d, os))
    (ht : ∀ id, .recordFailure id true ∉ os) :
    Echoes a d os (c'.answerReceived a sdp reply (only a env)) := by
  unfold Coordinator.answerReceived at hs ⊢
  rw [h.entry]
  cases hl : c.connections.lookup a with
  | none =>
    simp only [hl, Option.some.injEq, Prod.mk.injEq] at hs ⊢
    obtain ⟨rfl, rfl⟩ := hs
    exact h.echoes rfl
  | some state =>
    have hl' : c'.connections.lookup a = some state := h.entry.trans hl
    simp only [hl] at hs ⊢
    cases state with
    | awaitingAnswer whip t =>
      cases hb : env.listening whip.channel with
      | true =>
        have hb' : (only a env).listening whip.channel = true := hb
        simp only [ConnectionState.deliverAnswer, hb, if_true, Coordinator.insert,
          Coordinator.remove, Finmap.lookup_erase, Option.some.injEq, Prod.mk.injEq] at hs
        obtain ⟨rfl, rfl⟩ := hs
        refine ((h.remove c.watchdog c'.watchdog).insert (.established env.now)
          c.watchdog.recordSuccess c'.watchdog.recordSuccess).echoes ?_
        simp only [ConnectionState.deliverAnswer, hb', if_true, Coordinator.insert,
          Coordinator.remove, Finmap.lookup_erase]
        rfl
      | false =>
        have hb' : (only a env).listening whip.channel = false := hb
        simp only [ConnectionState.deliverAnswer, hb, Bool.false_eq_true, if_false,
          Option.bind_eq_bind, Option.bind_eq_some_iff, Option.some.injEq, Prod.mk.injEq] at hs
        obtain ⟨⟨r, d₁, os₁⟩, hg, rfl, rfl⟩ := hs
        obtain ⟨r', d', os', hg', htw, hv⟩ := peerGone_twin h hg fun id hm => ht id (by simp [hm])
        refine ⟨d', [whip.send env (.ok sdp)] ++ reply.send env (.error (.gone a)) :: os', ?_, htw,
          fun mine => ?_⟩
        · simp only [ConnectionState.deliverAnswer, hb', Bool.false_eq_true, if_false,
            Option.bind_eq_bind, hg', Option.bind_some]
          rfl
        · simp [hv mine, hb]
    | _ =>
      simp only [ConnectionState.deliverAnswer, Coordinator.insert, Coordinator.remove,
        Finmap.lookup_erase, insert_erase hl, insert_erase hl', Option.some.injEq,
        Prod.mk.injEq] at hs ⊢
      obtain ⟨rfl, rfl⟩ := hs
      exact h.echoes rfl

theorem removeConnection_twin (h : Twin a c c') {reply : UnitReply}
    (hs : c.removeConnection a reply env = some (d, os)) :
    Echoes a d os (c'.removeConnection a reply (only a env)) := by
  simp only [Coordinator.removeConnection, Option.bind_eq_bind, Option.bind_eq_some_iff,
    Option.some.injEq, Prod.mk.injEq] at hs
  obtain ⟨⟨r, d₁, os₁⟩, hg, rfl, rfl⟩ := hs
  cases hl : c.connections.lookup a with
  | none =>
    have hl' : c'.connections.lookup a = none := h.entry.trans hl
    simp only [terminate_deleted_absent hl, Option.some.injEq, Prod.mk.injEq] at hg
    obtain ⟨rfl, rfl, rfl⟩ := hg
    refine h.echoes ?_
    rw [Coordinator.removeConnection, terminate_deleted_absent hl']
    rfl
  | some state =>
    have hl' : c'.connections.lookup a = some state := h.entry.trans hl
    cases hok : (env.branch a).succeeded with
    | false =>
      have hok' : ((only a env).branch a).succeeded = false := hok
      simp only [terminate_deleted_failed hl hok, Option.some.injEq, Prod.mk.injEq] at hg
      obtain ⟨rfl, rfl, rfl⟩ := hg
      refine h.echoes ?_
      rw [Coordinator.removeConnection, terminate_deleted_failed hl' hok']
      rfl
    | true =>
      have hok' : ((only a env).branch a).succeeded = true := hok
      simp only [terminate_deleted hl hok, Option.some.injEq, Prod.mk.injEq] at hg
      obtain ⟨rfl, rfl, rfl⟩ := hg
      refine (h.remove c.watchdog c'.watchdog).echoes ?_
      rw [Coordinator.removeConnection, terminate_deleted hl' hok', notify_only]
      rfl

end Twins

section Turns

variable {a : ConnectionId} {c c' d : Coordinator} {env : Env} {e : Event} {os : List Effect}

/-- Channels a viewer does not call its own: those of this turn's commands
for others and those parked under other ids. -/
def Private (a : ConnectionId) (mine : Nat → Bool) (c : Coordinator) (e : Event) : Prop :=
  (∀ cmd ∈ commands e, cmd.connection ≠ some a → mine cmd.channel = false) ∧
    ∀ id, id ≠ a → Foreign mine c id

theorem reapBranch_twin (h : Twin a c c') (hs : c.reapBranch a env = some (d, os)) :
    Echoes a d os (c'.reapBranch a (only a env)) := by
  obtain ⟨hl, rfl, rfl⟩ | ⟨state, hl, rfl, rfl⟩ := reapBranch_move hs
  · refine h.echoes ?_
    simp [Coordinator.reapBranch, Coordinator.containsKey, h.entry, hl]
  · have hl' : c'.connections.lookup a = some state := h.entry.trans hl
    refine (h.remove c.watchdog c'.watchdog).echoes ?_
    rw [Coordinator.reapBranch, if_pos (by simp [Coordinator.containsKey, hl']),
      terminate_reaped hl', notify_only]
    rfl

theorem expired_alone (h : Twin a c c') (hc : Covers env.order c'.connections) :
    c'.expired env = if a ∈ c'.expired env then [a] else [] := by
  have hall : ∀ id ∈ c'.expired env, id = a := by
    intro id hid
    obtain ⟨state, hl, -⟩ := (mem_expired hc).mp hid
    by_contra hne
    rw [h.alone id hne] at hl
    cases hl
  have hn : (c'.expired env).Nodup := expired_nodup hc
  by_cases ha : a ∈ c'.expired env
  · rw [if_pos ha]
    exact List.perm_singleton.mp ((List.perm_ext_iff_of_nodup hn (List.nodup_singleton a)).mpr
      fun id => ⟨fun hid => by simp [hall id hid], fun hid => by simp_all⟩)
  · rw [if_neg ha, List.eq_nil_iff_forall_not_mem]
    exact fun id hid => ha (hall id hid ▸ hid)

theorem sweepExpired_twin (h : Twin a c c') (hc : Covers env.order c.connections)
    (hs : c.sweepExpired env = some (d, os)) (ht : ∀ id, .recordFailure id true ∉ os) :
    ∃ d' os', c'.sweepExpired (only a env) = some (d', os') ∧
      (d.config = c.config → Twin a d d') ∧
      ∀ mine, (∀ id, id ≠ a → Foreign mine c id) → view a mine os' = view a mine os := by
  have hn : (c.expired env).Nodup := expired_nodup hc
  have hiff : a ∈ c'.expired (only a env) ↔ a ∈ c.expired env := by
    rw [mem_expired (h.covers hc), mem_expired hc, h.entry]
    rfl
  have hnone : ∀ id, id ≠ a → Foreign (fun _ => false) c id := fun _ _ _ _ _ _ => rfl
  by_cases ha : a ∈ c.expired env
  · obtain ⟨state, hl, -⟩ := (mem_expired hc).mp ha
    have hl' : c'.connections.lookup a = some state := h.entry.trans hl
    obtain ⟨w, os', hf, hv⟩ := @feedWatchdog_alone a (c'.remove a) (only a env)
      ((h.remove c.watchdog c'.watchdog).empty (by simp))
    have hs' : c'.sweepExpired (only a env) = some ({ c'.remove a with watchdog := w },
        state.notify env .expiredLeg a ++
          [.ended a .expired, .removeBranch a (env.branch a)] ++ os' ++ []) := by
      rw [Coordinator.sweepExpired, expired_alone h (h.covers hc), if_pos (hiff.mpr ha)]
      simp only [Coordinator.terminateExpired, terminate_expired hl', hf, Option.bind_eq_bind,
        Option.bind_some, notify_only]
      rfl
    refine ⟨_, _, hs', fun hcfg => ?_, fun mine hm => ?_⟩
    · obtain ⟨hd, -⟩ := (sweep_view hs ht hn hnone).2 ha state hl
      exact ⟨h.config.trans hcfg.symm, by simp [Coordinator.remove, hd],
        fun id hid => by simp [Coordinator.remove, hid, h.alone id hid]⟩
    · obtain ⟨-, hv'⟩ := (sweep_view hs ht hn hm).2 ha state hl
      simp [hv', hv mine]
  · refine ⟨c', [], ?_, fun hcfg => ?_, fun mine hm => ?_⟩
    · rw [Coordinator.sweepExpired, expired_alone h (h.covers hc), if_neg (mt hiff.mp ha)]
      rfl
    · obtain ⟨hd, -⟩ := (sweep_view hs ht hn hnone).1 ha
      exact ⟨h.config.trans hcfg.symm, h.entry.trans hd.symm, h.alone⟩
    · exact ((sweep_view hs ht hn hm).1 ha).2.symm

theorem step_config {l : Event × List Effect} (h : c.Step l d) : d.config = c.config :=
  Panics.run_config (.single h)

/-- A turn about somebody else is invisible to a viewer. -/
theorem step_elsewhere (hs : c.Step (e, os) d) (ht : ∀ id, .recordFailure id true ∉ os)
    (he : concerning a e = none) {mine : Nat → Bool} (hm : Private a mine c e) :
    d.connections.lookup a = c.connections.lookup a ∧ view a mine os = [] := by
  cases e with
  | command cmd env =>
    simp only [concerning] at he
    split at he
    · cases he
    · rename_i hno
      obtain ⟨hno₁, hno₂⟩ := not_or.mp hno
      obtain ⟨b, hb⟩ := Option.ne_none_iff_exists'.mp hno₂
      have hne : b ≠ a := fun h => hno₁ (h ▸ hb)
      obtain ⟨os₁, c₁, os₂, hmv, hset, rfl⟩ := handle_move hs.1 hs.2
      obtain ⟨rfl, rfl⟩ := hset.of_calm fun id hid => ht id (by simp [hid])
      rw [List.append_nil]
      exact move_elsewhere hmv hb hne (hm.1 cmd (by simp [commands]) hno₁) (hm.2 b hne)
  | branchFailure branch env =>
    simp only [concerning] at he
    split at he
    · cases he
    · rename_i hne
      exact reap_elsewhere hs.2 hne (hm.2 _ hne)
  | sweepTick env => cases he

theorem Echoes.all {cmd : Command} (h : Echoes a d os (c'.handle cmd env)) :
    ∃ d' os', c'.handle cmd env = some (d', os') ∧ Twin a d d' ∧
      ∀ mine, (cmd.connection ≠ some a → mine cmd.channel = false) →
        view a mine os' = view a mine os := by
  obtain ⟨d', os', hh, htw, hv⟩ := h
  exact ⟨d', os', hh, htw, fun mine _ => hv mine⟩

theorem handle_twin (h : Twin a c c') {cmd : Command} (hs : c.handle cmd env = some (d, os))
    (ht : ∀ id, .recordFailure id true ∉ os) (hr : ∀ reply, cmd ≠ .reset reply)
    (hcmd : cmd.connection = some a ∨ cmd.connection = none) :
    ∃ d' os', c'.handle cmd (only a env) = some (d', os') ∧ Twin a d d' ∧
      ∀ mine, (cmd.connection ≠ some a → mine cmd.channel = false) →
        view a mine os' = view a mine os := by
  cases cmd with
  | createConnection id reply =>
    obtain rfl : id = a := by simpa [Command.connection] using hcmd
    exact Echoes.all (createConnection_twin h hs)
  | offerReceived id sdp reply =>
    obtain rfl : id = a := by simpa [Command.connection] using hcmd
    exact Echoes.all (offerReceived_twin h hs ht)
  | answerReceived id sdp reply =>
    obtain rfl : id = a := by simpa [Command.connection] using hcmd
    exact Echoes.all (answerReceived_twin h hs ht)
  | removeConnection id reply =>
    obtain rfl : id = a := by simpa [Command.connection] using hcmd
    exact Echoes.all (removeConnection_twin h hs)
  | listConnections reply =>
    cases hs
    refine ⟨c', _, rfl, h, fun mine hm => ?_⟩
    have hm' : mine reply.channel = false := hm (by simp [Command.connection])
    simp [Sender.send, hm']
  | reset reply => exact absurd rfl (hr reply)

theorem step_twin (h : Twin a c c') (hs : c.Step (e, os) d)
    (ht : ∀ id, .recordFailure id true ∉ os) (hr : ∀ reply, .reset reply ∉ commands e)
    {e' : Event} (he : concerning a e = some e') :
    ∃ d' os', c'.Step (e', os') d' ∧ Twin a d d' ∧
      ∀ mine, Private a mine c e → view a mine os' = view a mine os := by
  cases e with
  | command cmd env =>
    simp only [concerning] at he
    split at he
    · cases he
      rename_i hcmd
      have hr' : ∀ reply, cmd ≠ .reset reply := fun reply hc => hr reply (by simp [commands, hc])
      obtain ⟨d', os', hh, htw, hv⟩ := handle_twin h hs.2 ht hr' hcmd
      exact ⟨d', os', ⟨h.covers hs.1, hh⟩, htw,
        fun mine hm => hv mine (hm.1 cmd (by simp [commands]))⟩
    · cases he
  | branchFailure branch env =>
    simp only [concerning] at he
    split at he
    · cases he
      rename_i hb
      have hs' : c.reapBranch a env = some (d, os) := hb ▸ hs.2
      obtain ⟨d', os', hh, htw, hv⟩ := reapBranch_twin h hs'
      have hh' : c'.turn (.branchFailure branch (only a env)) = some (d', os') := by
        rw [← hh, ← hb]
        rfl
      exact ⟨d', os', ⟨h.covers hs.1, hh'⟩, htw, fun mine _ => hv mine⟩
    · cases he
  | sweepTick env =>
    cases he
    obtain ⟨d', os', hs', htw, hv⟩ := sweepExpired_twin h hs.1 hs.2 ht
    exact ⟨d', os', ⟨h.covers hs.1, hs'⟩, htw (step_config hs), fun mine hm => hv mine hm.2⟩

end Turns

end SrtWhep.Isolation
