import SrtWhep.Branches
import SrtWhep.Stream.Soundness

namespace SrtWhep.Broadcast

open Library.Runs Library.Tables Moves Branches Relation SrtWhep.Stream Plane

def report : Effect → Option Report
  | .addBranch id call => some (.added id call.result)
  | .removeBranch id call => some (.removed id call.result)
  | _ => none

def asked (o : Effect) : Option ConnectionId := (report o).bind fun r => r.call.adds

/-- The coordinator and the pipeline that its branch calls go to, as long as it is the
same one. -/
structure State where
  coordinator : Coordinator
  plane : Plane.State

structure Label where
  turn : Event × List Effect
  work : List (Plane.Input × List Report)

namespace State

def start (c : Coordinator) (numbers : String → Nat) (decodeVideo : Bool) : State :=
  ⟨c, .start numbers decodeVideo⟩

/-- The branch calls of a turn come out as the pipeline has them come out, and are over
at its end. -/
structure Step (s : State) (l : Label) (t : State) : Prop where
  coordinator : s.coordinator.Step l.turn t.coordinator
  plane : Run Plane.State.Step s.plane l.work t.plane
  results : reports l.work = l.turn.2.filterMap report
  idle : t.plane.job = none

end State

def turns (ls : List Label) : List (Event × List Effect) := ls.map Label.turn

def work (ls : List Label) : List (Plane.Input × List Report) := ls.flatMap Label.work

section Runs

variable {c : Coordinator} {numbers : String → Nat} {decodeVideo : Bool}
  {ls : List Label} {s t : State} {id : ConnectionId}

theorem run_parts (h : Run State.Step (.start c numbers decodeVideo) ls s) :
    Run Coordinator.Step c (turns ls) s.coordinator ∧
      Run Plane.State.Step (.start numbers decodeVideo) (work ls) s.plane ∧
      reports (work ls) = (trace (turns ls)).filterMap report ∧ s.plane.job = none := by
  refine h.history (P := fun ls s => Run Coordinator.Step c (turns ls) s.coordinator ∧
    Run Plane.State.Step (.start numbers decodeVideo) (work ls) s.plane ∧
    reports (work ls) = (trace (turns ls)).filterMap report ∧ s.plane.job = none)
    ⟨.nil _, .nil _, rfl, rfl⟩ ?_
  rintro ls u v l ⟨hc, hp, hr, -⟩ hs
  refine ⟨?_, ?_, ?_, hs.idle⟩
  · rw [turns, List.map_append]
    exact hc.snoc hs.coordinator
  · rw [work, List.flatMap_append, List.flatMap_singleton]
    exact hp.append hs.plane
  · have hreports : reports (work (ls ++ [l])) = reports (work ls) ++ reports l.work := by
      simp [reports, work]
    have htrace : trace (turns (ls ++ [l])) = trace (turns ls) ++ l.turn.2 := by
      simp [turns]
    rw [hreports, htrace, List.filterMap_append, hr, hs.results]

/-- What the results make of the branches is what the coordinator goes by. -/
theorem up_attached {os : List Effect} {ms : List (Plane.Input × List Report)}
    (h : reports ms = os.filterMap report) : up ms = attached os := by
  rw [up, h]
  generalize hu : (∅ : Finset ConnectionId) = u
  have hstep : ∀ (u : Finset ConnectionId),
      (os.filterMap report).foldl applyReport u = after u os := by
    clear hu h
    induction os with
    | nil => exact fun u => rfl
    | cons o os ih =>
      intro u
      cases o with
      | addBranch id call | removeBranch id call =>
        simp [report, applyReport, apply, BranchCall.succeeded, ih]
      | _ => exact ih u
  rw [hstep, ← hu]
  rfl

@[simp] theorem asked_notify (state : ConnectionState) (env : Env) (n : WaiterNotice)
    (i : ConnectionId) : (state.notify env n i).filterMap asked = [] := by
  rw [ConnectionState.notify_eq]
  cases state.parked <;> rfl

@[simp] theorem asked_drain (c : Coordinator) (env : Env) : (drain c env).filterMap asked = [] := by
  rw [drain]
  induction walk c.connections env.order with
  | nil => rfl
  | cons e es ih => simpa [asked, report] using ih

theorem move_asked {c c' : Coordinator} {cs : List Command} {os : List Effect}
    (h : Move c (cs, os) c') : (os.filterMap asked).Sublist (cs.filterMap created) := by
  cases h with
  | reject b hr =>
    cases hr with
    | attach => exact .refl _
    | _ => exact List.nil_sublist _
  | register => exact .refl _
  | _ =>
    simp only [List.filterMap_append, asked_notify, asked_drain, List.filterMap_cons]
    exact List.nil_sublist _

theorem run_asked {c' : Coordinator} {ts : List (Event × List Effect)}
    (h : Run Coordinator.Step c ts c') :
    ((trace ts).filterMap asked).Sublist ((taken ts).filterMap created) := by
  refine move_history (P := fun cs os _ => (os.filterMap asked).Sublist (cs.filterMap created)) h
    (.refl _) ?_
  intro cs os d cs' os' d' ih hm
  rw [List.filterMap_append, List.filterMap_append]
  exact ih.append (move_asked hm)

theorem begun_nodup (h : Run State.Step (.start c numbers decodeVideo) ls s)
    (hn : ((taken (turns ls)).filterMap created).Nodup) : (begun (work ls)).Nodup := by
  obtain ⟨hc, hp, hr, hj⟩ := run_parts h
  have hcalls := run_calls hp rfl
  have hbegun : begun (work ls) = (trace (turns ls)).filterMap asked := by
    have hopen : s.plane.open = [] := by rw [Plane.State.open, hj]; rfl
    rw [begun_calls, hcalls, hr, hopen, List.append_nil, List.map_filterMap,
      List.filterMap_filterMap]
    refine List.filterMap_congr fun o _ => ?_
    cases o <;> rfl
  rw [hbegun]
  exact hn.sublist (run_asked hc)

theorem run_fates {c' : Coordinator} {ts : List (Event × List Effect)}
    (h : Run Coordinator.Step c ts c') (hc : c.connections = ∅)
    (hn : ((taken ts).filterMap created).Nodup) (id : ConnectionId) :
    Fate (taken ts) (trace ts) c' id := by
  refine move_history (P := fun cs os d => (cs.filterMap created).Nodup → Fate cs os d id) h
    (fun _ => ?_) ?_ hn
  · exact .fresh List.not_mem_nil (hc ▸ Finmap.notMem_empty) (Finset.notMem_empty id) rfl
  · intro cs os d cs' os' d' ih hm hnd
    have hnd' : (cs.filterMap created).Nodup := by
      rw [List.filterMap_append] at hnd
      exact hnd.of_append_left
    exact (ih hnd').step (move_change hm id) hnd

theorem ended_removed (h : Run State.Step (.start c numbers decodeVideo) ls s)
    (he : Ended (work ls) id) : ∃ call, .removeBranch id call ∈ trace (turns ls) := by
  obtain ⟨-, hp, hr, hj⟩ := run_parts h
  have hopen : s.plane.open = [] := by rw [Plane.State.open, hj]; rfl
  rw [ended_calls, run_calls hp rfl, hr, hopen, List.append_nil] at he
  obtain ⟨r, hm, hcall⟩ := List.mem_map.mp he
  obtain ⟨o, ho, hrep⟩ := List.mem_filterMap.mp hm
  cases o with
  | addBranch i call =>
    cases hrep
    cases hcall
  | removeBranch i call =>
    cases hrep
    cases hcall
    exact ⟨call, ho⟩
  | _ => cases hrep

theorem run_one {c' : Coordinator} {p : Plane.State} {l : Event × List Effect}
    {ms : List (Plane.Input × List Report)} (hc : Run Coordinator.Step c [l] c')
    (hp : Run Plane.State.Step (.start numbers decodeVideo) ms p)
    (hr : reports ms = (trace [l]).filterMap report) (hj : p.job = none) :
    Run State.Step (.start c numbers decodeVideo) [⟨l, ms⟩] ⟨c', p⟩ := by
  obtain ⟨d, hs, hd⟩ := run_cons.mp hc
  obtain rfl := run_nil.mp hd
  exact .single ⟨hs, hp, by simpa [trace] using hr, hj⟩

/-- Whoever is in the map has a whole branch, fed from the ingest queues of its media,
unless its whip sink has left by itself or a removal of the branch failed midway. -/
theorem viewers_served (h : Run State.Step (.start c numbers decodeVideo) ls s)
    (hc : c.connections = ∅) (hn : ((taken (turns ls)).filterMap created).Nodup) :
    ReflTransGen s.plane.bin.graph.Flows srtSource demux ∧
      ∀ id ∈ s.coordinator.connections, ¬ Lost (work ls) id →
        (∀ call, .removeBranch id call ∉ trace (turns ls)) ∨ Calm (work ls) id →
        ∃ ms : List Media, ms ≠ [] ∧ ms.Nodup ∧
          Complete ⟨id⟩ decodeVideo ms (s.plane.bin.graph.own id) ∧
          ∀ m ∈ ms, ReflTransGen s.plane.bin.graph.Flows m.ingestQueue
            (Branch.mk id).whipSinkName := by
  obtain ⟨hrun, hp, hr, hj⟩ := run_parts h
  have hsound := run_sound hp (begun_nodup h hn)
  obtain ⟨built, hst⟩ := hsound.core
  refine ⟨streaming_fed hst, fun id hm hstay hcalm => ?_⟩
  have hup : id ∈ up (work ls) := by
    rw [up_attached hr]
    cases run_fates hrun hc hn id with
    | owned _ _ ha _ => exact ha
    | fresh _ hm' => exact absurd hm hm'
    | detached _ hm' => exact absurd hm hm'
    | unowned _ hm' => exact absurd hm hm'
  have hjob : s.plane.jobOf id = none := by simp [Plane.State.jobOf, hj]
  have hwhole : ¬ Ended (work ls) id ∨ Calm (work ls) id := by
    refine hcalm.imp_left fun hno he => ?_
    obtain ⟨call, hcall⟩ := ended_removed h he
    exact hno call hcall
  obtain ⟨ms, hs⟩ := (hsound.stands hjob).1 hup hstay hwhole
  rw [run_decodeVideo hp] at hs
  exact ⟨ms, hs.nonempty, hs.once, hs.complete, fun m hmem => served_fed hs hst hmem⟩

theorem viewers_served_one : ∃ ls s, Run State.Step (.start (.new {}) (fun _ => 0) false) ls s ∧
    "a" ∈ s.coordinator.connections ∧ ∃ ms : List Media, ms ≠ [] ∧
      Complete ⟨"a"⟩ false ms (s.plane.bin.graph.own "a") := by
  obtain ⟨ts, c, hc, hi, hv⟩ := replayed Coordinator.next Coordinator.Step
    (fun _ _ _ _ => Coordinator.next_eq_some.mp) (.new {})
    [.command (.createConnection "a" ⟨0⟩) (.calm 0 [])]
    ([.added "a" (some (.ok ()))], ["a"], true)
    (fun r => ((trace r.2).filterMap report, (taken r.2).filterMap created,
      decide ("a" ∈ r.1.connections))) (by decide)
  let is : List Plane.Input := [.demux (.padAdded "video_0" (some "video/x-h264")),
      .demux (.noMorePads [some "video/x-h264"]), .add "a",
      .adding "a" (.other (.lock .pipeline))] ++ List.replicate 4 (.adding "a" .read) ++
      List.replicate 14 (.adding "a" (.other (.attach (.ok ())))) ++
      [.adding "a" (.other .finish)]
  obtain ⟨ms, t, hp, hi', hv'⟩ := replayed Plane.State.next Plane.State.Step
    (fun _ _ _ _ h => h) (.start (fun _ => 0) false) is ([.added "a" (some (.ok ()))], true)
    (fun r => (reports r.2, r.1.job.isNone)) (by decide)
  obtain ⟨l, rfl, -⟩ := List.map_eq_singleton_iff.mp hi
  obtain ⟨hr, htaken, hmem⟩ : (trace [l]).filterMap report = [.added "a" (some (.ok ()))] ∧
      (taken [l]).filterMap created = ["a"] ∧ "a" ∈ c.connections := by simpa using hv
  obtain ⟨hr', hj⟩ := Prod.mk.inj hv'
  have h := run_one hc hp (hr'.trans hr.symm) (Option.isNone_iff_eq_none.mp hj)
  have hall : ∀ i ∈ ms.map Prod.fst, i.disturbs ≠ some "a" ∧ i.leaves ≠ some "a" :=
    hi' ▸ by decide
  have hcalm : Calm (work [⟨l, ms⟩]) "a" := by
    intro m hm
    rw [work, List.flatMap_singleton] at hm
    exact (hall m.1 (List.mem_map_of_mem hm)).1
  have hstay : ¬ Lost (work [⟨l, ms⟩]) "a" := by
    rintro ⟨m, hm, hlost⟩
    rw [work, List.flatMap_singleton] at hm
    exact (hall m.1 (List.mem_map_of_mem hm)).2 hlost
  have hnodup : ((taken [l]).filterMap created).Nodup := htaken ▸ by decide
  obtain ⟨-, hserved⟩ := viewers_served h rfl hnodup
  obtain ⟨ms, hne, -, hcomplete, -⟩ := hserved "a" hmem hstay (.inr hcalm)
  exact ⟨_, _, h, hmem, ms, hne, hcomplete⟩

/-- What is in the pipeline of a viewer who is not in the map is a branch whose entry was
given up, or what a teardown has left that was cut off or failed. -/
theorem remains_explained (h : Run State.Step (.start c numbers decodeVideo) ls s)
    (hc : c.connections = ∅) (hn : ((taken (turns ls)).filterMap created).Nodup)
    (hm : id ∉ s.coordinator.connections) (ho : s.plane.bin.graph.own id ≠ .empty) :
    id ∈ attached (trace (turns ls)) ∧ Unowned (trace (turns ls)) id ∨ ¬ Calm (work ls) id := by
  obtain ⟨hrun, hp, hr, hj⟩ := run_parts h
  have hsound := run_sound hp (begun_nodup h hn)
  have hjob : s.plane.jobOf id = none := by simp [Plane.State.jobOf, hj]
  by_cases hcalm : Calm (work ls) id
  · left
    have ha : id ∈ attached (trace (turns ls)) := by
      by_contra hna
      rw [← up_attached hr] at hna
      exact ho ((hsound.stands hjob).2 hna hcalm)
    cases run_fates hrun hc hn id with
    | owned _ hm' => exact absurd hm' hm
    | fresh _ _ hna => exact absurd ha hna
    | detached _ _ hna => exact absurd ha hna
    | unowned _ _ _ hu => exact ⟨ha, hu⟩
  · exact .inr hcalm

/-- The branch could not be attached and its cleanup is cut off. -/
theorem remains_explained_cut :
    ∃ ls s, Run State.Step (.start (.new {}) (fun _ => 0) false) ls s ∧
      s.plane.bin.graph.own "a" ≠ .empty ∧
      ("a" ∈ attached (trace (turns ls)) ∧ Unowned (trace (turns ls)) "a" ∨
        ¬ Calm (work ls) "a") := by
  obtain ⟨ts, c, hc, hi, hv⟩ := replayed Coordinator.next Coordinator.Step
    (fun _ _ _ _ => Coordinator.next_eq_some.mp) (.new {})
    [.command (.createConnection "a" ⟨0⟩) { Env.calm 0 [] with branch := fun _ => ⟨none, 5⟩ }]
    ([.added "a" none], ["a"], false)
    (fun r => ((trace r.2).filterMap report, (taken r.2).filterMap created,
      decide ("a" ∈ r.1.connections))) (by decide)
  obtain ⟨ms, t, hp, -, hv'⟩ := replayed Plane.State.next Plane.State.Step
    (fun _ _ _ _ h => h) (.start (fun _ => 0) false)
    ([.demux (.padAdded "video_0" (some "video/x-h264")),
      .demux (.noMorePads [some "video/x-h264"]), .add "a",
      .adding "a" (.other (.lock .pipeline))] ++ List.replicate 4 (.adding "a" .read) ++
      List.replicate 5 (.adding "a" (.other (.attach (.ok ())))) ++
      [.adding "a" (.other (.attach (.error "no queue")))] ++
      List.replicate 4 (.adding "a" (.other (.detach (.ok ())))) ++
      [.adding "a" (.other .timeout)])
    ([.added "a" none], true, ["whip-sink-a"])
    (fun r => (reports r.2, r.1.job.isNone, (r.1.bin.graph.own "a").names)) (by decide)
  obtain ⟨l, rfl, -⟩ := List.map_eq_singleton_iff.mp hi
  obtain ⟨hr, htaken, hmem⟩ : (trace [l]).filterMap report = [.added "a" none] ∧
      (taken [l]).filterMap created = ["a"] ∧ "a" ∉ c.connections := by simpa using hv
  obtain ⟨hr', hj, hnames⟩ : reports ms = [.added "a" none] ∧ t.job = none ∧
      (t.bin.graph.own "a").names = ["whip-sink-a"] := by simpa using hv'
  have h := run_one hc hp (hr'.trans hr.symm) hj
  have hnodup : ((taken [l]).filterMap created).Nodup := htaken ▸ by decide
  have ho : t.bin.graph.own "a" ≠ .empty := by
    intro he
    simp [he, Graph.names, Graph.empty] at hnames
  exact ⟨_, _, h, ho, remains_explained h rfl hnodup hmem ho⟩

end Runs

end SrtWhep.Broadcast
