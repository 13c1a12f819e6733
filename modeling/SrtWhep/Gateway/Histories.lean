import SrtWhep.Deadlines
import SrtWhep.Panics
import SrtWhep.Receivers
import SrtWhep.Results

namespace SrtWhep.Gateway

open Library.Runs Library.Tables Moves Waiters Results

/-- What a coordinator has taken and done, with the turn it did not survive. -/
inductive History (config : CoordinatorConfig) :
    Coordinator → Bool → List Command → List Effect → Prop
  | running {c : Coordinator} {alive : Bool} {ms : List (Event × List Effect)} :
      Run Coordinator.Step (.new config) ms c → History config c alive (taken ms) (trace ms)
  | panicked {c : Coordinator} {ms : List (Event × List Effect)} {ev : Event} {os : List Effect} :
      Run Coordinator.Step (.new config) ms c → c.panicked ev = some os →
      History config c false (taken ms ++ commands ev) (trace ms ++ os)

theorem sends_append (os os' : List Effect) (ch : Nat) :
    sends (os ++ os') ch = sends os ch + sends os' ch := by
  rw [sends, List.filterMap_append, List.count_append]
  rfl

theorem parked_silent {config : CoordinatorConfig} {ls : List (Event × List Effect)}
    {c : Coordinator} {id : ConnectionId} {state : ConnectionState} {ch : Nat}
    (h : Run Coordinator.Step (.new config) ls c) (hn : ((taken ls).map Command.channel).Nodup)
    (hl : c.connections.lookup id = some state) (hp : state.parked = some ch) :
    sends (trace ls) ch = 0 := by
  have hheld : 1 ≤ Multiset.count ch (gather held c.connections) := by
    refine Multiset.count_pos.mpr ((mem_gather held _ _).mpr ⟨id, state, hl, ?_⟩)
    simp [held, hp]
  have hsent : Multiset.count ch (sent (trace ls)) = sends (trace ls) ch := Multiset.coe_count _ _
  have hrun := congrArg (Multiset.count ch) (run_conserves h)
  have hone := List.nodup_iff_count_le_one.mp hn ch
  rw [Multiset.count_add, hsent, Multiset.coe_count] at hrun
  omega

theorem panicked_heard {c : Coordinator} {ev : Event} {os : List Effect}
    (h : c.panicked ev = some os) : Receivers.Heard ev.env os := by
  obtain ⟨id, reply, env, -, rfl⟩ | ⟨id, sdp, reply, env, whep, d, rfl, -, hb, rfl⟩ :=
    Panics.panicked_cases h
  · simp
  · rintro ch r b ho
    cases List.mem_singleton.mp ho
    exact hb.symm

namespace History

variable {config : CoordinatorConfig} {c c' : Coordinator} {alive : Bool} {cs : List Command}
  {os os' : List Effect} {ev : Event} {ch : Nat} {r : Except SignalError Payload} {b : Bool}

theorem runs (h : History config c true cs os) :
    ∃ ms, Run Coordinator.Step (.new config) ms c ∧ cs = taken ms ∧ os = trace ms := by
  cases h with
  | running hr => exact ⟨_, hr, rfl, rfl⟩

theorem turn (h : History config c true cs os) (hs : c.Step (ev, os') c') :
    History config c' true (cs ++ commands ev) (os ++ os') := by
  cases h with
  | running hr =>
    have hnext := @running config c' true _ (hr.snoc hs)
    rwa [taken_append, taken_single, trace_append, trace_single] at hnext

theorem panic (h : History config c true cs os) (hp : c.panicked ev = some os') :
    History config c false (cs ++ commands ev) (os ++ os') := by
  cases h with
  | running hr => exact .panicked hr hp

/-- Whatever has been sent is a result of the command that expects it. -/
theorem results (h : History config c alive cs os) (ho : .send ch r b ∈ os) :
    ∃ cmd ∈ cs, cmd.channel = ch ∧ Result cs os b cmd r := by
  cases h with
  | running hr => exact run_results hr ho
  | @panicked ms ev os' hr hp =>
    obtain ho | ho := List.mem_append.mp ho
    · obtain ⟨cmd, hin, hch, hres⟩ := run_results hr ho
      refine ⟨cmd, List.mem_append_left _ hin, hch, ?_⟩
      cases r with
      | error err => exact hres
      | ok p =>
        exact Success.mono hres (fun _ => List.mem_append_left _) fun _ => List.mem_append_left _
    · obtain ⟨id, reply, env, -, rfl⟩ | ⟨id, sdp, reply, env, whep, d, rfl, hl, -, rfl⟩ :=
        Panics.panicked_cases hp
      · cases List.mem_singleton.mp ho
      · cases List.mem_singleton.mp ho
        have hin := placed_offer (run_placed hr id _ hl)
        have hnew : Command.offerReceived id sdp reply ∈
            taken ms ++ commands (.command (.offerReceived id sdp reply) env) :=
          List.mem_append_right _ (List.mem_singleton_self _)
        exact ⟨_, List.mem_append_left _ hin, rfl, .created hnew⟩

theorem silent (h : History config c alive cs os) (hn : ∀ cmd ∈ cs, cmd.channel ≠ ch) :
    sends os ch = 0 := by
  refine List.count_eq_zero.mpr fun hm => ?_
  obtain ⟨o, ho, hch⟩ := List.mem_filterMap.mp hm
  cases o with
  | send ch r b =>
    cases hch
    obtain ⟨cmd, hin, he, -⟩ := h.results ho
    exact hn cmd hin he
  | _ => cases hch

theorem sends_once (h : History config c alive cs os) (hn : (cs.map Command.channel).Nodup)
    (ch : Nat) : sends os ch ≤ 1 := by
  cases h with
  | running hr => exact WireContract.run_sends_once hr hn ch
  | @panicked ms ev os' hr hp =>
    rw [List.map_append] at hn
    have hn' := (List.nodup_append.mp hn).1
    have honce := WireContract.run_sends_once hr hn' ch
    rw [sends_append]
    obtain ⟨id, reply, env, -, rfl⟩ | ⟨id, sdp, reply, env, whep, d, rfl, hl, -, rfl⟩ :=
      Panics.panicked_cases hp
    · exact honce
    · by_cases hch : whep.channel = ch
      · subst hch
        rw [parked_silent hr hn' hl rfl, Nat.zero_add]
        exact List.count_le_length
      · have hnone : sends [.send whep.channel (.ok (.offer sdp)) true] ch = 0 :=
          List.count_eq_zero.mpr (by simpa [channel] using Ne.symm hch)
        rw [hnone]
        exact honce

end History

end SrtWhep.Gateway
