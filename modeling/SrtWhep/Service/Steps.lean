import SrtWhep.Moves
import SrtWhep.Service

namespace SrtWhep.Service

open Library.Runs Library.Channels RestartRequests

/-- What each input meets and does, the one place where `next` is unfolded. -/
inductive Takes (s : Service) : Input → List Effect → Service → Prop
  | tick (d : Duration) : Takes s (.tick d) [] { s with clock := s.clock + d }
  | request {cmd mailbox} : cmd.isReset = false → s.alive = true →
      mailbox.queue = s.mailbox.queue ++ [⟨cmd, s.run⟩] →
      Takes s (.request cmd) [] { s with mailbox }
  | postReset {reply mailbox} : s.resetCall = some .sending → s.alive = true →
      mailbox.queue = s.mailbox.queue ++ [⟨.reset reply, s.run⟩] →
      Takes s (.postReset reply) [] { s with mailbox, resetCall := some .posted }
  | wake {w r} : s.allows w = true → s.control.next (.wake w) = some r →
      Takes s (.wake w) [] { s.woken w with control := r.1, since := s.clock }
  | built : s.phase = .initializing → Takes s .built [] { s with pipeline := some s.run }
  | receive {p mailbox} : s.alive = true → s.job = none → s.mailbox.queue = p :: mailbox.queue →
      Takes s .receive [] { s with job := some ⟨.command p, s.clock, false⟩, mailbox }
  | receiveFailure (branch : BranchId) : s.alive = true → s.job = none →
      Takes s (.receiveFailure branch) []
        { s with job := some ⟨.branchFailure branch, s.clock, false⟩ }
  | sweep : s.alive = true → s.job = none →
      Takes s .sweep [] { s with job := some ⟨.sweepTick, s.clock, false⟩ }
  | attach {job id n} : s.job = some job → job.turn.creates = some id → s.pipeline = some n →
      Takes s .attach [] (s.attached job id n)
  | finish {env job c os} : s.job = some job → s.coordinator.Step (job.turn.event env, os) c →
      s.punctual job env os = true → Takes s (.finish env) os (s.finished job c os)
  | panic {env job os} : s.job = some job →
      s.coordinator.panicked (job.turn.event env) = some os → Takes s (.panic env) os s.died

section Steps

variable {s s' : Service} {i : Input} {os : List Effect}

theorem step_takes (h : s.Step (i, os) s') : s.Takes i os s' := by
  cases i with
  | tick d =>
    obtain ⟨rfl, rfl⟩ := Prod.mk.inj (Option.some.inj h)
    exact .tick d
  | request cmd =>
    obtain ⟨hr, h⟩ := Option.ite_none_left_eq_some.mp h
    obtain ⟨t, ht, h⟩ := Option.map_eq_some_iff.mp h
    obtain ⟨rfl, rfl⟩ := Prod.mk.inj h
    obtain ⟨ha, mailbox, rfl, hq⟩ := post_eq_some ht
    exact .request (Bool.not_eq_true _ ▸ hr) ha hq
  | postReset reply =>
    obtain ⟨hc, h⟩ := Option.ite_none_right_eq_some.mp h
    obtain ⟨t, ht, h⟩ := Option.map_eq_some_iff.mp h
    obtain ⟨rfl, rfl⟩ := Prod.mk.inj h
    obtain ⟨ha, mailbox, rfl, hq⟩ := post_eq_some ht
    exact .postReset hc ha hq
  | wake w =>
    obtain ⟨ha, h⟩ := Option.ite_none_right_eq_some.mp h
    obtain ⟨r, hr, h⟩ := Option.map_eq_some_iff.mp h
    obtain ⟨rfl, rfl⟩ := Prod.mk.inj h
    exact .wake ha hr
  | built =>
    obtain ⟨⟨hp, -⟩, h⟩ := Option.ite_none_right_eq_some.mp h
    obtain ⟨rfl, rfl⟩ := Prod.mk.inj (Option.some.inj h)
    exact .built hp
  | receive =>
    simp only [Step, next, Option.bind_eq_bind, Option.bind_eq_some_iff, Option.some.injEq,
      Prod.mk.injEq] at h
    obtain ⟨⟨p, mailbox⟩, hr, t, ht, rfl, rfl⟩ := h
    obtain ⟨ha, hj, rfl⟩ := take_eq_some ht
    exact .receive ha hj (Channel.tryRecv_eq_some.mp hr)
  | receiveFailure branch =>
    obtain ⟨t, ht, h⟩ := Option.map_eq_some_iff.mp h
    obtain ⟨rfl, rfl⟩ := Prod.mk.inj h
    obtain ⟨ha, hj, rfl⟩ := take_eq_some ht
    exact .receiveFailure branch ha hj
  | sweep =>
    obtain ⟨t, ht, h⟩ := Option.map_eq_some_iff.mp h
    obtain ⟨rfl, rfl⟩ := Prod.mk.inj h
    obtain ⟨ha, hj, rfl⟩ := take_eq_some ht
    exact .sweep ha hj
  | attach =>
    simp only [Step, next, Option.bind_eq_bind, Option.bind_eq_some_iff] at h
    obtain ⟨job, hj, id, hid, n, hn, h⟩ := h
    obtain ⟨-, h⟩ := Option.ite_none_left_eq_some.mp h
    obtain ⟨rfl, rfl⟩ := Prod.mk.inj (Option.some.inj h)
    exact .attach hj hid hn
  | finish env =>
    simp only [Step, next, Option.bind_eq_bind, Option.bind_eq_some_iff] at h
    obtain ⟨job, hj, ⟨c, os'⟩, hc, h⟩ := h
    obtain ⟨hp, h⟩ := Option.ite_none_right_eq_some.mp h
    obtain ⟨rfl, rfl⟩ := Prod.mk.inj (Option.some.inj h)
    exact .finish hj (Coordinator.next_eq_some.mp hc) hp
  | panic env =>
    simp only [Step, next, Option.bind_eq_bind, Option.bind_eq_some_iff] at h
    obtain ⟨job, hj, os', ho, h⟩ := h
    obtain ⟨-, h⟩ := Option.ite_none_right_eq_some.mp h
    obtain ⟨rfl, rfl⟩ := Prod.mk.inj (Option.some.inj h)
    exact .panic hj ho

theorem woken_coordinator (s : Service) (w : Wake) : (s.woken w).coordinator = s.coordinator := by
  unfold woken
  split <;> rfl

theorem woken_clock (s : Service) (w : Wake) : (s.woken w).clock = s.clock := by
  unfold woken
  split <;> rfl

end Steps

def inHand (s : Service) : List Command :=
  match s.job with
  | some ⟨.command p, _, _⟩ => [p.command]
  | _ => []

def pending (s : Service) : List Command := s.inHand ++ s.mailbox.queue.map Posted.command

def Input.posted : Input → List Command
  | request cmd => [cmd]
  | postReset reply => [.reset reply]
  | _ => []

section Mailbox

variable {s s' : Service} {i : Input} {os : List Effect}

theorem turn_env (turn : Turn) (env : Env) : (turn.event env).env = env := by
  cases turn <;> rfl

theorem inHand_turn {job : Job} (env : Env) (h : s.job = some job) :
    s.inHand = Moves.commands (job.turn.event env) := by
  obtain ⟨turn, started, attached⟩ := job
  rw [inHand, h]
  cases turn <;> rfl

/-- A step leaves the coordinator alone and may send it a command, or ends a turn
of its, by a panic if need be; a turn has the first command of those pending. -/
inductive Handles (s : Service) : Input → List Effect → Service → Prop
  | aside {i : Input} {s' : Service} : (∀ env, i ≠ .finish env ∧ i ≠ .panic env) →
      s'.coordinator = s.coordinator → s'.alive = s.alive →
      (s.alive = false → s.job = none → s'.job = none) →
      (i.posted ≠ [] → s.alive = true) → s'.pending = s.pending ++ i.posted → Handles s i [] s'
  | turn {env : Env} {job : Job} {os : List Effect} {s' : Service} : s.job = some job →
      s.coordinator.Step (job.turn.event env, os) s'.coordinator → s'.alive = s.alive →
      s.pending = Moves.commands (job.turn.event env) ++ s'.pending → Handles s (.finish env) os s'
  | panic {env : Env} {job : Job} {os : List Effect} : s.job = some job →
      s.coordinator.panicked (job.turn.event env) = some os → Handles s (.panic env) os s.died

theorem woken_aside (s : Service) (w : Wake) : (s.woken w).alive = s.alive ∧
    (s.woken w).job = s.job ∧ (s.woken w).mailbox = s.mailbox := by
  unfold woken
  split <;> exact ⟨rfl, rfl, rfl⟩

theorem takes_handles (h : s.Takes i os s') : s.Handles i os s' := by
  have hdead : ∀ {P : Prop}, s.alive = true → s.alive = false → P := by
    intro P ha hn
    cases ha.symm.trans hn
  cases h with
  | tick d =>
    exact .aside (by simp) rfl rfl (fun _ hj => hj) (by simp [Input.posted])
      (by simp [pending, inHand, Input.posted])
  | request hr ha hq =>
    exact .aside (by simp) rfl rfl (fun _ hj => hj) (fun _ => ha)
      (by simp [pending, inHand, Input.posted, hq])
  | postReset hc ha hq =>
    exact .aside (by simp) rfl rfl (fun _ hj => hj) (fun _ => ha)
      (by simp [pending, inHand, Input.posted, hq])
  | @wake w r ha hr =>
    obtain ⟨hlive, hj, hm⟩ := woken_aside s w
    exact .aside (by simp) (woken_coordinator s w) hlive (fun _ hn => hj.trans hn)
      (by simp [Input.posted]) (by simp [pending, inHand, Input.posted, hj, hm])
  | built hp =>
    exact .aside (by simp) rfl rfl (fun _ hj => hj) (by simp [Input.posted])
      (by simp [pending, inHand, Input.posted])
  | receive ha hj hq =>
    exact .aside (by simp) rfl rfl (hdead ha) (by simp [Input.posted])
      (by simp [pending, inHand, Input.posted, hj, hq])
  | receiveFailure branch ha hj =>
    exact .aside (by simp) rfl rfl (hdead ha) (by simp [Input.posted])
      (by simp [pending, inHand, Input.posted, hj])
  | sweep ha hj =>
    exact .aside (by simp) rfl rfl (hdead ha) (by simp [Input.posted])
      (by simp [pending, inHand, Input.posted, hj])
  | @attach job id n hj hid hn =>
    refine .aside (by simp) rfl rfl (fun _ hn => ?_) (by simp [Input.posted]) ?_
    · cases hj.symm.trans hn
    · obtain ⟨turn, started, attached⟩ := job
      cases turn <;> simp [pending, inHand, Input.posted, Service.attached, hj]
  | @finish env job c os hj hc hp =>
    refine .turn hj hc rfl ?_
    rw [pending, inHand_turn env hj]
    rfl
  | panic hj ho => exact .panic hj ho

end Mailbox

end SrtWhep.Service
