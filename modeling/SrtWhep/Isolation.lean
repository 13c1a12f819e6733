import SrtWhep.Isolation.Twins
import SrtWhep.Waiters

namespace SrtWhep.Isolation

open Library.Runs Library.Tables Moves

section Histories

variable {config : CoordinatorConfig} {a : ConnectionId} {c d : Coordinator}
  {ls ms : List (Event × List Effect)}

/-- No channel of a command for others is one of the viewer's. -/
def Excludes (a : ConnectionId) (mine : Nat → Bool) (cmds : List Command) : Prop :=
  ∀ cmd ∈ cmds, cmd.connection ≠ some a → mine cmd.channel = false

theorem private_of_run (h : Run Coordinator.Step (.new config) ls c) {e : Event}
    {mine : Nat → Bool} (hm : Excludes a mine (taken ls ++ commands e)) : Private a mine c e := by
  refine ⟨fun cmd hc => hm cmd (List.mem_append_right _ hc), fun id hid state ch hl hp => ?_⟩
  obtain hq | ⟨cmd, hc, hcon, hf⟩ := Waiters.run_placed h id state hl
  · rw [hq] at hp
    cases hp
  · obtain rfl : cmd.channel = ch := Option.some.inj (hf.channel.symm.trans hp)
    exact hm cmd (List.mem_append_left _ hc) (by simpa [hcon] using hid)

/-- From any pair of twins, what is left of a run's events makes a run that
keeps the viewer in step. -/
theorem run_twin {c' : Coordinator} (h : Run Coordinator.Step (.new config) ls c)
    (g : Run Coordinator.Step c ms d) (htw : Twin a c c')
    (ht : ∀ id, .recordFailure id true ∉ trace ms) (hr : ∀ reply, .reset reply ∉ taken ms) :
    ∃ ms' d', Run Coordinator.Step c' ms' d' ∧
      ms'.map Prod.fst = (ms.map Prod.fst).filterMap (concerning a) ∧ Twin a d d' ∧
      ∀ mine, Excludes a mine (taken (ls ++ ms)) →
        view a mine (trace ms') = view a mine (trace ms) := by
  induction g generalizing ls c' with
  | nil c => exact ⟨[], c', .nil _, rfl, htw, fun _ _ => rfl⟩
  | @cons c u d l ms hs _ ih =>
    obtain ⟨e, os⟩ := l
    have htr : trace ((e, os) :: ms) = os ++ trace ms := rfl
    have htk : taken ((e, os) :: ms) = commands e ++ taken ms := rfl
    have hls : ls ++ (e, os) :: ms = ls ++ [(e, os)] ++ ms := by simp
    have ht₁ : ∀ id, .recordFailure id true ∉ os := fun id hm => ht id (by simp [htr, hm])
    have ht₂ : ∀ id, .recordFailure id true ∉ trace ms := fun id hm => ht id (by simp [htr, hm])
    have hr₁ : ∀ reply, .reset reply ∉ commands e := fun r hm => hr r (by simp [htk, hm])
    have hr₂ : ∀ reply, .reset reply ∉ taken ms := fun r hm => hr r (by simp [htk, hm])
    have hpriv : ∀ mine, Excludes a mine (taken (ls ++ (e, os) :: ms)) → Private a mine c e :=
      fun mine hm => private_of_run h fun cmd hc => hm cmd (by
        rw [taken_append, htk, ← List.append_assoc]
        exact List.mem_append_left _ hc)
    cases hce : concerning a e with
    | none =>
      have hnone : Private a (fun _ => false) c e := ⟨fun _ _ _ => rfl, fun _ _ _ _ _ _ => rfl⟩
      have htw' : Twin a u c' := ⟨htw.config.trans (step_config hs).symm,
        htw.entry.trans (step_elsewhere hs ht₁ hce hnone).1.symm, htw.alone⟩
      obtain ⟨ms', d', hrun, hev, htwd, hv⟩ := ih (h.snoc hs) htw' ht₂ hr₂
      refine ⟨ms', d', hrun, by simp [hce, hev], htwd, fun mine hm => ?_⟩
      rw [hv mine (hls ▸ hm), htr, view_append, (step_elsewhere hs ht₁ hce (hpriv mine hm)).2,
        List.nil_append]
    | some e' =>
      obtain ⟨u', os', hs', htw', hvs⟩ := step_twin htw hs ht₁ hr₁ hce
      obtain ⟨ms', d', hrun, hev, htwd, hv⟩ := ih (h.snoc hs) htw' ht₂ hr₂
      refine ⟨(e', os') :: ms', d', .cons hs' hrun, by simp [hce, hev], htwd, fun mine hm => ?_⟩
      have htr' : trace ((e', os') :: ms') = os' ++ trace ms' := rfl
      rw [htr', htr, view_append, view_append, hv mine (hls ▸ hm), hvs mine (hpriv mine hm)]

def ownChannel (a : ConnectionId) (ls : List (Event × List Effect)) (ch : Nat) : Bool :=
  (taken ls).any fun cmd => decide (cmd.connection = some a ∧ cmd.channel = ch)

theorem excludes_own (hn : ((taken ls).map Command.channel).Nodup) :
    Excludes a (ownChannel a ls) (taken ls) := by
  intro cmd hc hne
  rw [ownChannel, List.any_eq_false]
  intro cmd' hc' hd
  obtain ⟨hcon, hch⟩ := of_decide_eq_true hd
  obtain rfl := List.inj_on_of_nodup_map hn hc' hc hch
  exact hne hcon

end Histories

/-- A viewer cannot tell a run from the one in which everything that names
another id is deleted: at each boundary its entry is the same, and so are the
replies to its commands and the calls for its branch so far. -/
theorem viewers_isolated {config : CoordinatorConfig} {ls : List (Event × List Effect)}
    {c : Coordinator} (h : Run Coordinator.Step (.new config) ls c)
    (hn : ((taken ls).map Command.channel).Nodup)
    (ht : ∀ id, .recordFailure id true ∉ trace ls) (hr : ∀ reply, .reset reply ∉ taken ls)
    (a : ConnectionId) :
    ∃ ls' c', Run Coordinator.Step (.new config) ls' c' ∧
      ls'.map Prod.fst = (ls.map Prod.fst).filterMap (concerning a) ∧
      ∀ ls₁ ls₂ c₁, ls = ls₁ ++ ls₂ → Run Coordinator.Step (.new config) ls₁ c₁ →
        ∃ ls₁' ls₂' c₁', ls' = ls₁' ++ ls₂' ∧ Run Coordinator.Step (.new config) ls₁' c₁' ∧
          Run Coordinator.Step c₁' ls₂' c' ∧
          ls₁'.map Prod.fst = (ls₁.map Prod.fst).filterMap (concerning a) ∧
          c₁'.connections.lookup a = c₁.connections.lookup a ∧
          view a (ownChannel a ls₁) (trace ls₁') = view a (ownChannel a ls₁) (trace ls₁) := by
  have hstart : Twin a (.new config) (.new config) := ⟨rfl, rfl, fun _ _ => rfl⟩
  obtain ⟨ls', c', hrun, hev, -, -⟩ := run_twin (.nil _) h hstart ht hr
  refine ⟨ls', c', hrun, hev, ?_⟩
  rintro ls₁ ls₂ c₁ rfl h₁
  obtain ⟨c₂, h₁', h₂⟩ := run_append.mp h
  obtain ⟨-, rfl⟩ := run_unique h₁ h₁' rfl
  rw [trace_append] at ht
  rw [taken_append] at hr hn
  rw [List.map_append] at hn
  obtain ⟨ls₁', c₁', hrun₁, hev₁, htw₁, hv₁⟩ := run_twin (.nil _) h₁ hstart
    (fun id hm => ht id (List.mem_append_left _ hm)) fun r hm => hr r (List.mem_append_left _ hm)
  obtain ⟨ls₂', c₂', hrun₂, hev₂, -, -⟩ := run_twin h₁ h₂ htw₁
    (fun id hm => ht id (List.mem_append_right _ hm)) fun r hm => hr r (List.mem_append_right _ hm)
  obtain ⟨rfl, rfl⟩ := run_unique hrun (hrun₁.append hrun₂) (by simp [hev, hev₁, hev₂])
  exact ⟨ls₁', ls₂', c₁', rfl, hrun₁, hrun₂, hev₁, htw₁.entry,
    hv₁ _ (excludes_own hn.of_append_left)⟩

/-- Another viewer's wedged DELETE. -/
theorem viewers_isolated_delete : ∃ ls c, Run Coordinator.Step (.new {}) ls c ∧
    taken ls = [.createConnection "a" ⟨0⟩, .createConnection "b" ⟨1⟩, .removeConnection "b" ⟨2⟩] ∧
    ∃ ls' c', Run Coordinator.Step (.new {}) ls' c' ∧
      ls'.map Prod.fst = (ls.map Prod.fst).filterMap (concerning "a") ∧
      ∀ ls₁ ls₂ c₁, ls = ls₁ ++ ls₂ → Run Coordinator.Step (.new {}) ls₁ c₁ →
        ∃ ls₁' ls₂' c₁', ls' = ls₁' ++ ls₂' ∧ Run Coordinator.Step (.new {}) ls₁' c₁' ∧
          Run Coordinator.Step c₁' ls₂' c' ∧
          ls₁'.map Prod.fst = (ls₁.map Prod.fst).filterMap (concerning "a") ∧
          c₁'.connections.lookup "a" = c₁.connections.lookup "a" ∧
          view "a" (ownChannel "a" ls₁) (trace ls₁') =
            view "a" (ownChannel "a" ls₁) (trace ls₁) := by
  obtain ⟨ls, c, h, -, hv⟩ := replayed Coordinator.next Coordinator.Step
    (fun _ _ _ _ => Coordinator.next_eq_some.mp) (.new {})
    [.command (.createConnection "a" ⟨0⟩) (.calm 0 []),
      .command (.createConnection "b" ⟨1⟩) (.calm 1 ["a"]),
      .command (.removeConnection "b" ⟨2⟩)
        { Env.calm 2 ["a", "b"] with branch := fun _ => ⟨none, 3⟩ }]
    ([.createConnection "a" ⟨0⟩, .createConnection "b" ⟨1⟩, .removeConnection "b" ⟨2⟩],
      [.addBranch "a" ⟨some (.ok ()), 0⟩, .addBranch "b" ⟨some (.ok ()), 1⟩,
        .removeBranch "b" ⟨none, 3⟩,
        .send 2 (.error (.pipelineBusy "branch teardown timed out")) true])
    (fun r => (taken r.2, trace r.2)) (by decide)
  have htk : taken ls = _ := (Prod.mk.inj hv).1
  have htr : trace ls = _ := (Prod.mk.inj hv).2
  exact ⟨ls, c, h, htk, viewers_isolated h (by rw [htk]; decide) (by rw [htr]; simp)
    (by rw [htk]; simp) "a"⟩

end SrtWhep.Isolation
