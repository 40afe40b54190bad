import ModularPipelines.Participants.Requests

namespace ModularPipelines.Participants
open Library

/-- How far a call has come: waiting, with the lock, in the handler, past it. -/
def JobPhase.rank : JobPhase → Nat
  | .created => 0
  | .queued => 1
  | .granted => 2
  | .starting => 3
  | .handling => 4
  | .recording _ _ _ | .finished _ | .raised _ | .auditing _ | .audited => 5

/-- A call that is past the handler, or that sees its cancellation before it gets there. -/
def Job.Passes (job : Job) : Prop := job.phase.rank = 5 ∨ job.interrupted = true ∧ job.phase.rank ≤ 2

theorem JobPhase.rank_le (phase : JobPhase) : phase.rank ≤ 5 := by
  cases phase <;> simp [JobPhase.rank]

/-- A call goes on: never back, and past the handler once it passes it. -/
structure Job.Goes (job new : Job) : Prop where
  request : new.request = job.request
  rank : job.phase.rank ≤ new.phase.rank
  passes : job.Passes → new.Passes

theorem Job.Goes.refl (job : Job) : job.Goes job := ⟨rfl, Nat.le_refl _, fun h => h⟩

theorem Job.Goes.past {job new : Job} (hrequest : new.request = job.request) (hrank : new.phase.rank = 5) : job.Goes new :=
  ⟨hrequest, hrank ▸ job.phase.rank_le, fun _ => .inl hrank⟩

theorem Job.Goes.next {job new : Job} (hrequest : new.request = job.request) (hinterrupted : job.interrupted = false)
    (hrank : job.phase.rank ≤ new.phase.rank) (hbefore : job.phase.rank < 5) : job.Goes new := by
  refine ⟨hrequest, hrank, ?_⟩
  rintro (hpast | ⟨hflag, -⟩)
  · omega
  · rw [hinterrupted] at hflag
    cases hflag

namespace Server

variable {m m' m'' : Server} {i j c w : Nat} {reply : Reply} {job : Job} {id : String}

/-- No call goes back, and none is handed to the handler. -/
structure Moves (m m' : Server) : Prop where
  jobs : ∀ (j : Nat) (job : Job), m.jobs[j]? = some job → ∃ job', m'.jobs[j]? = some job' ∧ job.Goes job'
  handed : m'.handed = m.handed

theorem Moves.frame (hjobs : m'.jobs = m.jobs) (hhanded : m'.handed = m.handed) : Moves m m' := by
  refine ⟨?_, hhanded⟩
  intro j job hj
  exact ⟨job, by rw [hjobs]; exact hj, .refl job⟩

theorem Moves.trans (h : Moves m m') (h' : Moves m' m'') : Moves m m'' := by
  refine ⟨?_, h'.handed.trans h.handed⟩
  intro j job hj
  obtain ⟨next, hnext, hrequest, hrank, hpasses⟩ := h.jobs j job hj
  obtain ⟨last, hlast, hrequest', hrank', hpasses'⟩ := h'.jobs j next hnext
  exact ⟨last, hlast, hrequest'.trans hrequest, Nat.le_trans hrank hrank', fun hp => hpasses' (hpasses hp)⟩

theorem Moves.setJob (hget : m.jobs[j]? = some job) {new : Job} (hjobs : m'.jobs = m.jobs.set j new)
    (hhanded : m'.handed = m.handed) (hgoes : job.Goes new) : Moves m m' := by
  refine ⟨?_, hhanded⟩
  intro k other hk
  rw [hjobs]
  by_cases hkj : k = j
  · subst hkj
    obtain rfl := Option.some.inj (hget.symm.trans hk)
    exact ⟨new, get_set_self hget, hgoes⟩
  · exact ⟨other, (get_set_other hkj).trans hk, .refl other⟩

theorem cancel_goes (job : Job) : job.Goes job.cancel := by
  unfold Job.cancel
  split
  · exact .refl job
  · exact ⟨rfl, Nat.le_refl _, fun hpasses => hpasses.imp_right (fun hp => ⟨rfl, hp.2⟩)⟩

theorem Moves.cancelJobs (m : Server) (tasks : List Nat) : Moves m (m.cancelJobs tasks) := by
  refine ⟨?_, rfl⟩
  intro j job hj
  rw [Server.cancelJobs, List.getElem?_mapIdx, hj]
  refine ⟨_, rfl, ?_⟩
  split
  · exact cancel_goes job
  · exact .refl job

theorem Moves.recordJob (hget : m.jobs[j]? = some job) (response : ParticipantResult) (acquired : Bool) :
    Moves m (m.recordJob j job response acquired) :=
  .setJob hget rfl rfl (.past rfl rfl)

theorem Moves.jobRaises (hget : m.jobs[j]? = some job) (e : Raised) : Moves m (m.jobRaises j job e) := by
  unfold Server.jobRaises
  split
  · exact .recordJob hget _ _
  · exact .recordJob hget _ _
  · exact .setJob hget rfl rfl (.past rfl rfl)
  · exact .recordJob hget _ _
  · exact .recordJob hget _ _

theorem Moves.holdLock (hget : m.jobs[j]? = some job) (hinterrupted : job.interrupted = false)
    (hrank : job.phase.rank ≤ 3) : Moves m (m.holdLock j job) := by
  unfold Server.holdLock
  split
  · exact .setJob hget rfl rfl (.past rfl rfl)
  · exact .setJob hget rfl rfl (.next rfl hinterrupted hrank (by omega))

theorem Moves.replyRaises (m : Server) (i : Nat) (reply : Reply) (e : Raised) : Moves m (m.replyRaises i reply e) := by
  unfold Server.replyRaises
  split <;> exact .frame rfl rfl

theorem Moves.cancelReply (m : Server) (i : Nat) : Moves m (m.cancelReply i) := by
  unfold Server.cancelReply
  split
  · exact .frame rfl rfl
  · split
    · exact .frame rfl rfl
    · exact (Moves.cancelJobs m _).trans (.frame rfl rfl)
    all_goals exact .frame rfl rfl

theorem Moves.closeConnection (m : Server) (c : Nat) : Moves m (m.closeConnection c) :=
  List.foldlRecOn (motive := Moves m) _ _ (.frame rfl rfl) (fun n hn i _ => hn.trans (.cancelReply n i))

theorem Moves.cancelAudit (m : Server) (j : Nat) : Moves m (m.cancelAudit j) := by
  unfold Server.cancelAudit
  split
  · next hget => exact .setJob hget rfl rfl (.past rfl rfl)
  · exact .frame rfl rfl

theorem Moves.close (m : Server) : Moves m m.close := by
  have hstopped : Moves m { m with stopping := true } := .frame rfl rfl
  have hclosed := List.foldlRecOn (motive := Moves m) (List.range m.connections.length) Server.closeConnection
    (hstopped.trans (.cancelJobs _ (m.tasksOf none))) (fun n hn c _ => hn.trans (.closeConnection n c))
  exact List.foldlRecOn (motive := Moves m) _ _ hclosed (fun n hn j _ => hn.trans (.cancelAudit n j))

/-- Only a call that starts is handed to the handler. -/
theorem step_moves {action : Action} (hok : m.step action = some m') :
    Moves m m' ∨ ∃ (j : Nat) (job : Job), m.jobs[j]? = some job ∧ job.phase = .starting ∧
      job.interrupted = false ∧ m' = { m with handed := m.handed ++ [job.request.requestId] }.setJob j job .handling := by
  cases action with
  | connect | runnerRecords | stop =>
    obtain rfl := Option.some.inj hok
    exact .inl (.frame rfl rfl)
  | receive c request =>
    obtain ⟨-, ⟨-, rfl⟩ | ⟨-, -, rfl⟩ | ⟨-, -, rfl⟩⟩ := receiveFrame_some hok
    · exact .inl (.closeConnection m c)
    · exact .inl (.frame rfl rfl)
    · exact .inl (.frame rfl rfl)
  | lookup c =>
    obtain ⟨request, -, rfl⟩ := lookupResult_some hok
    exact .inl (.frame rfl rfl)
  | lookupFails c message =>
    obtain rfl := lookupFails_some hok
    have hfailed : Moves m { m with failure := some ⟨.logging, message⟩, journalFailed := true } := .frame rfl rfl
    exact .inl (hfailed.trans (.closeConnection _ c))
  | resume c =>
    obtain ⟨request, ⟨-, rfl⟩ | ⟨-, rfl⟩⟩ := resumeConnection_some hok
    · exact .inl (.closeConnection m c)
    · exact .inl (.frame rfl rfl)
  | disconnect c =>
    obtain rfl := disconnect_some hok
    exact .inl (.closeConnection m c)
  | reply i =>
    obtain ⟨reply, -, -, ⟨-, rfl⟩ | ⟨-, ⟨phase, -, rfl | rfl⟩ | ⟨id, -, -, rfl⟩⟩⟩ := startReply_some hok
    · exact .inl ⟨fun k other hk => ⟨other, get_concat_left hk, .refl other⟩, rfl⟩
    · exact .inl (.frame rfl rfl)
    · exact .inl (.frame rfl rfl)
    · exact .inl (.replyRaises m i reply _)
  | answer i result =>
    obtain ⟨reply, -, -, ⟨e, -, rfl⟩ | ⟨response, -, ⟨tasks, rfl⟩ | rfl | rfl⟩⟩ := answerReply_some hok
    · exact .inl (.replyRaises m i reply e)
    · exact .inl ((Moves.cancelJobs m tasks).trans (.frame rfl rfl))
    · exact .inl (.frame rfl rfl)
    · exact .inl (.frame rfl rfl)
  | gathered i =>
    obtain ⟨reply, tasks, response, -, -, rfl⟩ := gathered_some hok
    exact .inl (.frame rfl rfl)
  | recorded i =>
    obtain ⟨reply, response, w, -, -, ⟨-, rfl⟩ | ⟨e, -, rfl⟩⟩ := replyRecorded_some hok
    · exact .inl (.frame rfl rfl)
    · exact .inl (.replyRaises m i reply e)
  | awaited i =>
    obtain ⟨reply, j, job, -, -, -, ⟨response, -, rfl⟩ | ⟨e, -, rfl⟩ | rfl⟩ := awaited_some hok
    · exact .inl (.frame rfl rfl)
    · exact .inl (.replyRaises m i reply e)
    · exact .inl (.frame rfl rfl)
  | send i delivered =>
    obtain ⟨reply, response, -, -, rfl | rfl⟩ := sendReply_some hok
    · exact .inl (.frame rfl rfl)
    · exact .inl (.frame rfl rfl)
  | begin j =>
    obtain ⟨job, hget, hphase, ⟨-, -, rfl⟩ | ⟨-, -, rfl⟩ | ⟨response, -, rfl⟩ | ⟨hgoes, rfl⟩⟩ := beginJob_some hok
    · exact .inl (.setJob hget rfl rfl (.past rfl rfl))
    · exact .inl (.setJob hget rfl rfl (.past rfl rfl))
    · exact .inl (.recordJob hget _ _)
    · have hrank : job.phase.rank = 0 := by rw [hphase]; rfl
      exact .inl (.setJob hget rfl rfl (.next rfl hgoes (by omega) (by omega)))
  | acquire j =>
    obtain ⟨job, hget, hphase, -, hcases⟩ := acquireLock_some hok
    have hrank : job.phase.rank = 1 := by rw [hphase]; rfl
    obtain ⟨-, rfl⟩ | ⟨-, hgoes, rfl⟩ := hcases
    · have hgranted : job.Goes { job with phase := .granted } := by
        refine ⟨rfl, hrank ▸ Nat.le_succ 1, ?_⟩
        rintro (hpast | ⟨hflag, -⟩)
        · omega
        · exact .inr ⟨hflag, Nat.le_refl 2⟩
      exact .inl (.setJob hget rfl rfl hgranted)
    · exact .inl (.holdLock hget hgoes (by omega))
  | granted j =>
    obtain ⟨job, hget, hphase, ⟨-, rfl⟩ | ⟨hgoes, rfl⟩⟩ := resumeGranted_some hok
    · exact .inl (.recordJob hget _ _)
    · exact .inl (.holdLock hget hgoes (by rw [hphase]; exact Nat.le_succ 2))
  | expire j =>
    obtain ⟨job, hget, -, rfl⟩ := expireQueued_some hok
    exact .inl (.recordJob hget _ _)
  | unqueue j =>
    obtain ⟨job, hget, -, rfl⟩ := cancelQueued_some hok
    exact .inl (.recordJob hget _ _)
  | started j error =>
    obtain ⟨job, hget, hphase, rfl | ⟨e, -, rfl⟩ | ⟨hgoes, rfl⟩⟩ := callStarted_some hok
    · exact .inl (.recordJob hget _ _)
    · exact .inl (.jobRaises hget e)
    · exact .inr ⟨j, job, hget, hphase, hgoes, rfl⟩
  | handled j result =>
    obtain ⟨job, hget, -, ⟨response, rfl⟩ | ⟨e, -, rfl⟩⟩ := handlerEnds_some hok
    · exact .inl (.recordJob hget _ _)
    · exact .inl (.jobRaises hget e)
  | finish j =>
    obtain ⟨job, response, acquired, w, hget, -, ⟨-, rfl⟩ | ⟨-, rfl⟩ | ⟨e, -, rfl⟩⟩ := finishJob_some hok
    all_goals exact .inl (.setJob hget rfl rfl (.past rfl rfl))
  | audited j =>
    obtain ⟨job, w, hget, -, ⟨-, rfl⟩ | ⟨e, -, rfl⟩⟩ := auditJob_some hok
    all_goals exact .inl (.setJob hget rfl rfl (.past rfl rfl))
  | beginWrite w =>
    obtain ⟨write, -, -, rfl⟩ := beginWrite_some hok
    exact .inl (.frame rfl rfl)
  | endWrite w ending =>
    obtain ⟨write, -, -, ⟨-, journal, -, rfl⟩ | ⟨-, -, rfl⟩ | ⟨e, committed, -, rfl⟩⟩ := endWrite_some hok
    all_goals exact .inl (.frame rfl rfl)
  | close =>
    obtain rfl := Option.some.inj hok
    exact .inl (.close m)

/-- Each call is handed to the handler once, and has been in it then. -/
structure Handed (m : Server) : Prop where
  nodup : m.handed.Nodup
  called : ∀ id ∈ m.handed, ∃ job ∈ m.jobs, job.id = id ∧ 4 ≤ job.phase.rank

theorem Handed.moves (h : Handed m) (hmoves : Moves m m') : Handed m' := by
  refine ⟨hmoves.handed ▸ h.nodup, ?_⟩
  intro id hid
  rw [hmoves.handed] at hid
  obtain ⟨job, hjob, rfl, hrank⟩ := h.called id hid
  obtain ⟨j, hj⟩ := List.mem_iff_getElem?.mp hjob
  obtain ⟨job', hj', hrequest, hup, -⟩ := hmoves.jobs j job hj
  exact ⟨job', List.mem_of_getElem? hj', congrArg ParticipantRequest.requestId hrequest, Nat.le_trans hrank hup⟩

/-- A call that has not come to the handler has not been handed to it. -/
theorem Handed.not_handed (h : Handed m) (ht : Tracked m) (hget : m.jobs[j]? = some job) (hrank : job.phase.rank < 4) :
    job.id ∉ m.handed := by
  intro hid
  obtain ⟨other, hother, hsame, hcalled⟩ := h.called _ hid
  obtain ⟨k, hk⟩ := List.mem_iff_getElem?.mp hother
  obtain rfl := ht.jobs k j other job hk hget hsame
  obtain rfl := Option.some.inj (hget.symm.trans hk)
  omega

theorem Handed.step {action : Action} (h : Handed m) (ht : Tracked m) (hok : m.step action = some m') : Handed m' := by
  obtain hmoves | ⟨j, job, hget, hphase, hgoes, rfl⟩ := step_moves hok
  · exact h.moves hmoves
  · have hfresh := h.not_handed ht hget (by rw [hphase]; exact Nat.lt_succ_self 3)
    have hrank : job.phase.rank = 3 := by rw [hphase]; rfl
    have hmoves : Moves m (m.setJob j job .handling) :=
      .setJob hget rfl rfl (.next rfl hgoes (hrank ▸ Nat.le_succ 3) (by omega))
    refine ⟨?_, ?_⟩
    · apply List.nodup_append.mpr
      refine ⟨h.nodup, by simp, ?_⟩
      intro a ha b hb hab
      have hid : a = job.id := hab.trans (List.mem_singleton.mp hb)
      exact hfresh (hid ▸ ha)
    · intro id hid
      obtain hid | hid := List.mem_append.mp hid
      · exact (h.moves hmoves).called id hid
      · obtain rfl := List.mem_singleton.mp hid
        exact ⟨_, List.mem_of_getElem? (get_set_self hget), rfl, Nat.le_refl 4⟩

theorem Reachable.handed {allowed : Server → Action → Prop} (hallowed : ∀ m action, allowed m action → m.Separate action)
    (h : Reachable allowed m) : Handed m := by
  induction h with
  | start journal runnerResults => exact ⟨List.nodup_nil, fun id hid => (List.not_mem_nil hid).elim⟩
  | step action before _ hstep ih => exact ih.step (before.tracked hallowed) hstep

end Server

end ModularPipelines.Participants
