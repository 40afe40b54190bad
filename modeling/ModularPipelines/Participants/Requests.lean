import ModularPipelines.Participants.Steps

namespace ModularPipelines.Participants
open Library

def Reply.id (reply : Reply) : String := reply.request.requestId

def Job.id (job : Job) : String := job.request.requestId

/-- Nothing of the call is left but its outcome. -/
def JobPhase.over : JobPhase → Bool
  | .finished _ | .raised _ | .audited => true
  | _ => false

namespace Server

variable {m m' : Server} {i j c w : Nat} {reply : Reply} {job : Job} {request : ParticipantRequest}

/-- Each request has one reply, each working one that was started has one task, and the task is
listed until it is over. -/
structure Tracked (m : Server) : Prop where
  replies : Keyed Reply.id m.replies
  seen : ∀ reply ∈ m.replies, reply.id ∈ m.seen
  jobs : Keyed Job.id m.jobs
  replied : ∀ job ∈ m.jobs, ∃ reply ∈ m.replies, reply.request = job.request ∧ reply.phase ≠ .created
  works : ∀ job ∈ m.jobs, job.request.command.isWork = true
  requests : ∀ job ∈ m.jobs, job.phase.over = false → job.id ∈ m.requests

/-- A connection goes on with a request only while no other one has been admitted with its ID. -/
def Separate (m : Server) : Action → Prop
  | .resume c => ∀ request, m.connections[c]? = some (.checking request (some false)) → request.requestId ∉ m.seen
  | _ => True

def separates (m : Server) : Action → Bool
  | .resume c =>
    match m.connections[c]? with
    | some (.checking request (some false)) => !m.seen.contains request.requestId
    | _ => true
  | _ => true

theorem separates_iff (action : Action) : m.separates action = true ↔ m.Separate action := by
  cases action with
  | resume c =>
    simp only [separates, Separate]
    split
    · next request hget => simp [hget]
    · next hnone => exact ⟨fun _ request hget => (hnone request hget).elim, fun _ => rfl⟩
  | _ => exact ⟨fun _ => trivial, fun _ => rfl⟩

instance (m : Server) (action : Action) : Decidable (m.Separate action) := decidable_of_iff _ (separates_iff action)

theorem Tracked.frame (h : Tracked m) (hreplies : m'.replies = m.replies) (hseen : m'.seen = m.seen)
    (hjobs : m'.jobs = m.jobs) (hrequests : m'.requests = m.requests) : Tracked m' := by
  refine ⟨?_, ?_, ?_, ?_, ?_, ?_⟩
  · rw [hreplies]
    exact h.replies
  · rw [hreplies, hseen]
    exact h.seen
  · rw [hjobs]
    exact h.jobs
  · rw [hjobs, hreplies]
    exact h.replied
  · rw [hjobs]
    exact h.works
  · rw [hjobs, hrequests]
    exact h.requests

/-- The task's reply is the only one with its ID. -/
theorem Tracked.reply_of (h : Tracked m) (hjob : job ∈ m.jobs) (hreply : reply ∈ m.replies) (hid : reply.id = job.id) :
    reply.request = job.request ∧ reply.phase ≠ .created := by
  obtain ⟨other, hother, hrequest, hphase⟩ := h.replied job hjob
  obtain ⟨i, hi⟩ := List.mem_iff_getElem?.mp hreply
  obtain ⟨i', hi'⟩ := List.mem_iff_getElem?.mp hother
  have hsame : i = i' := h.replies i i' reply other hi hi' (hid.trans (congrArg ParticipantRequest.requestId hrequest).symm)
  subst hsame
  obtain rfl := Option.some.inj (hi.symm.trans hi')
  exact ⟨hrequest, hphase⟩

theorem Tracked.setReply (h : Tracked m) (hget : m.replies[i]? = some reply) {phase : ReplyPhase}
    (hphase : phase ≠ .created) : Tracked (m.setReply i reply phase) := by
  refine ⟨h.replies.set hget rfl, ?_, h.jobs, ?_, h.works, h.requests⟩
  · intro r hr
    obtain hr | rfl := List.mem_or_eq_of_mem_set hr
    · exact h.seen r hr
    · exact h.seen reply (List.mem_of_getElem? hget)
  · intro job hjob
    obtain ⟨r, hr, hrequest, hcreated⟩ := h.replied job hjob
    obtain ⟨k, hk⟩ := List.mem_iff_getElem?.mp hr
    by_cases hki : k = i
    · subst hki
      obtain rfl := Option.some.inj (hget.symm.trans hk)
      exact ⟨_, List.mem_of_getElem? (get_set_self hget), hrequest, hphase⟩
    · exact ⟨r, List.mem_of_getElem? ((get_set_other hki).trans hk), hrequest, hcreated⟩

/-- One task goes on; its request stays listed unless it is over. -/
theorem Tracked.replaceJob (h : Tracked m) (hget : m.jobs[j]? = some job) {new : Job} (hrequest : new.request = job.request)
    (hover : new.phase.over = false → job.phase.over = false) : Tracked { m with jobs := m.jobs.set j new } := by
  have hmem := List.mem_of_getElem? hget
  have hid : new.id = job.id := congrArg ParticipantRequest.requestId hrequest
  refine ⟨h.replies, h.seen, h.jobs.set hget hid, ?_, ?_, ?_⟩
  · intro other hother
    obtain hother | rfl := List.mem_or_eq_of_mem_set hother
    · exact h.replied other hother
    · obtain ⟨r, hr, hsame, hphase⟩ := h.replied job hmem
      exact ⟨r, hr, hsame.trans hrequest.symm, hphase⟩
  · intro other hother
    obtain hother | rfl := List.mem_or_eq_of_mem_set hother
    · exact h.works other hother
    · rw [hrequest]
      exact h.works job hmem
  · intro other hother hnot
    obtain hother | rfl := List.mem_or_eq_of_mem_set hother
    · exact h.requests other hother hnot
    · rw [hid]
      exact h.requests job hmem (hover hnot)

theorem Tracked.setJob (h : Tracked m) (hget : m.jobs[j]? = some job) {phase : JobPhase}
    (hover : phase.over = false → job.phase.over = false) : Tracked (m.setJob j job phase) :=
  h.replaceJob hget rfl hover

theorem cancel_same (job : Job) : job.cancel.request = job.request ∧ job.cancel.phase = job.phase := by
  unfold Job.cancel
  split <;> exact ⟨rfl, rfl⟩

theorem cancelJobs_of {tasks : List Nat} (hget : m.jobs[j]? = some job) :
    ∃ new, (m.cancelJobs tasks).jobs[j]? = some new ∧ new.request = job.request ∧ new.phase = job.phase := by
  rw [cancelJobs, List.getElem?_mapIdx, hget]
  refine ⟨_, rfl, ?_⟩
  split
  · exact cancel_same job
  · exact ⟨rfl, rfl⟩

theorem cancelJobs_get {tasks : List Nat} (hget : (m.cancelJobs tasks).jobs[j]? = some job) :
    ∃ old, m.jobs[j]? = some old ∧ job.request = old.request ∧ job.phase = old.phase := by
  rw [cancelJobs, List.getElem?_mapIdx] at hget
  obtain ⟨old, hold, rfl⟩ := Option.map_eq_some_iff.mp hget
  refine ⟨old, hold, ?_⟩
  split
  · exact cancel_same old
  · exact ⟨rfl, rfl⟩

theorem cancelJobs_mem {tasks : List Nat} (hmem : job ∈ (m.cancelJobs tasks).jobs) :
    ∃ old ∈ m.jobs, job.request = old.request ∧ job.phase = old.phase := by
  obtain ⟨j, hj⟩ := List.mem_iff_getElem?.mp hmem
  obtain ⟨old, hold, hsame⟩ := cancelJobs_get hj
  exact ⟨old, List.mem_of_getElem? hold, hsame⟩

theorem Tracked.cancelJobs (h : Tracked m) (tasks : List Nat) : Tracked (m.cancelJobs tasks) := by
  refine ⟨h.replies, h.seen, ?_, ?_, ?_, ?_⟩
  · intro j j' job job' hj hj' hkey
    obtain ⟨old, hold, hrequest, -⟩ := cancelJobs_get hj
    obtain ⟨old', hold', hrequest', -⟩ := cancelJobs_get hj'
    apply h.jobs j j' old old' hold hold'
    unfold Job.id at hkey ⊢
    rw [← hrequest, ← hrequest', hkey]
  · intro job hjob
    obtain ⟨old, hold, hrequest, -⟩ := cancelJobs_mem hjob
    rw [hrequest]
    exact h.replied old hold
  · intro job hjob
    obtain ⟨old, hold, hrequest, -⟩ := cancelJobs_mem hjob
    rw [hrequest]
    exact h.works old hold
  · intro job hjob hover
    obtain ⟨old, hold, hrequest, hphase⟩ := cancelJobs_mem hjob
    unfold Job.id
    rw [hrequest]
    exact h.requests old hold (hphase ▸ hover)

/-- What is over is taken off the list. -/
theorem Tracked.leave (h : Tracked m) (hget : m.jobs[j]? = some job) (hover : job.phase.over = true) (acquired : Bool) :
    Tracked (m.leave job.request.requestId acquired) := by
  refine ⟨h.replies, h.seen, h.jobs, h.replied, h.works, ?_⟩
  intro other hother hnot
  apply List.mem_filter.mpr
  refine ⟨h.requests other hother hnot, ?_⟩
  apply bne_iff_ne.mpr
  intro hid
  obtain ⟨j', hj'⟩ := List.mem_iff_getElem?.mp hother
  obtain rfl := h.jobs j' j other job hj' hget hid
  obtain rfl := Option.some.inj (hget.symm.trans hj')
  rw [hover] at hnot
  cases hnot

theorem Tracked.leaveJob (h : Tracked m) (hget : m.jobs[j]? = some job) {phase : JobPhase} (hover : phase.over = true)
    (acquired : Bool) : Tracked ((m.setJob j job phase).leave job.request.requestId acquired) := by
  have hset : Tracked (m.setJob j job phase) := h.setJob hget (fun hnot => absurd (hover.symm.trans hnot) (by simp))
  have hself : (m.setJob j job phase).jobs[j]? = some { job with interrupted := false, phase := phase } := get_set_self hget
  exact hset.leave hself hover acquired

theorem Tracked.startWork (h : Tracked m) (hget : m.replies[i]? = some reply) (hphase : reply.phase = .created)
    (hwork : reply.request.command.isWork = true) : Tracked (m.startWork i reply) := by
  have hmem := List.mem_of_getElem? hget
  have hset : Tracked (m.setReply i reply (.awaiting m.jobs.length)) := h.setReply hget nofun
  refine ⟨hset.replies, hset.seen, ?_, ?_, ?_, ?_⟩
  · apply h.jobs.concat
    intro job hjob hid
    exact (h.reply_of hjob hmem hid.symm).2 hphase
  · intro job hjob
    obtain hjob | hjob := List.mem_append.mp hjob
    · exact hset.replied job hjob
    · obtain rfl := List.mem_singleton.mp hjob
      exact ⟨_, List.mem_of_getElem? (get_set_self hget), rfl, nofun⟩
  · intro job hjob
    obtain hjob | hjob := List.mem_append.mp hjob
    · exact h.works job hjob
    · obtain rfl := List.mem_singleton.mp hjob
      exact hwork
  · intro job hjob hnot
    obtain hjob | hjob := List.mem_append.mp hjob
    · exact List.mem_cons_of_mem _ (h.requests job hjob hnot)
    · obtain rfl := List.mem_singleton.mp hjob
      exact List.mem_cons_self

theorem Tracked.admitRequest (h : Tracked m) (hfresh : request.requestId ∉ m.seen) : Tracked (m.admitRequest c request) := by
  refine ⟨?_, ?_, h.jobs, ?_, h.works, h.requests⟩
  · apply h.replies.concat
    intro r hr hid
    have hsame : r.id = request.requestId := hid
    exact hfresh (hsame ▸ h.seen r hr)
  · intro r hr
    obtain hr | hr := List.mem_append.mp hr
    · exact List.mem_cons_of_mem _ (h.seen r hr)
    · obtain rfl := List.mem_singleton.mp hr
      exact List.mem_cons_self
  · intro job hjob
    obtain ⟨r, hr, hrequest⟩ := h.replied job hjob
    exact ⟨r, List.mem_append_left _ hr, hrequest⟩

theorem Tracked.cancelReply (h : Tracked m) (i : Nat) : Tracked (m.cancelReply i) := by
  unfold Server.cancelReply
  split
  · exact h
  · next reply hget =>
    split
    · exact h
    · exact (h.cancelJobs _).setReply hget nofun
    · exact (h.frame rfl rfl rfl rfl : Tracked (m.cancelWrite _)).setReply hget nofun
    all_goals exact h.setReply hget nofun

theorem Tracked.closeConnection (h : Tracked m) (c : Nat) : Tracked (m.closeConnection c) := by
  have hclosed : Tracked { m with connections := m.connections.set c .closed } := h.frame rfl rfl rfl rfl
  exact List.foldlRecOn _ _ hclosed (fun _ hm i _ => hm.cancelReply i)

theorem Tracked.replyRaises (h : Tracked m) (hget : m.replies[i]? = some reply) (error : Raised) :
    Tracked (m.replyRaises i reply error) := by
  unfold Server.replyRaises
  have hfailed : Tracked { m with failure := some error } := h.frame rfl rfl rfl rfl
  split
  all_goals first
    | exact h.setReply hget nofun
    | exact hfailed.setReply hget nofun

theorem Tracked.submitWrite (h : Tracked m) (o : CommandOutcome) : Tracked (m.submitWrite o) := h.frame rfl rfl rfl rfl

theorem Tracked.recordReply (h : Tracked m) (hget : m.replies[i]? = some reply) (response : ParticipantResult) :
    Tracked (m.recordReply i reply response) :=
  (h.submitWrite _).setReply hget nofun

theorem Tracked.recordJob (h : Tracked m) (hget : m.jobs[j]? = some job) (hover : job.phase.over = false)
    (response : ParticipantResult) (acquired : Bool) : Tracked (m.recordJob j job response acquired) :=
  (h.submitWrite _).setJob hget (fun _ => hover)

theorem Tracked.jobFails (h : Tracked m) (hget : m.jobs[j]? = some job) (error : Raised) (acquired : Bool) :
    Tracked (m.jobFails j job error acquired) := by
  have hfailed : Tracked { m with failure := some error } := h.frame rfl rfl rfl rfl
  exact hfailed.leaveJob hget rfl acquired

theorem Tracked.jobRaises (h : Tracked m) (hget : m.jobs[j]? = some job) (hover : job.phase.over = false)
    (error : Raised) : Tracked (m.jobRaises j job error) := by
  unfold Server.jobRaises
  split
  · exact h.recordJob hget hover _ _
  · exact h.recordJob hget hover _ _
  · exact (h.frame rfl rfl rfl rfl : Tracked { m with journalFailed := true }).jobFails hget _ _
  all_goals exact h.recordJob hget hover _ _

theorem Tracked.holdLock (h : Tracked m) (hget : m.jobs[j]? = some job) (hover : job.phase.over = false) :
    Tracked (m.holdLock j job) := by
  have hheld : Tracked { m with locked := true, current := some job.request.requestId } := h.frame rfl rfl rfl rfl
  unfold Server.holdLock
  split
  · exact hheld.recordJob hget hover _ _
  · exact hheld.setJob hget (fun _ => hover)

theorem Tracked.cancelAudit (h : Tracked m) (j : Nat) : Tracked (m.cancelAudit j) := by
  unfold Server.cancelAudit
  split
  · next request interrupted w hget =>
    have hfailed : Tracked { m.cancelWrite w with failure := some cancelledError } := h.frame rfl rfl rfl rfl
    exact hfailed.leaveJob hget rfl false
  · exact h

theorem Tracked.close (h : Tracked m) : Tracked m.close := by
  have hstopped : Tracked { m with stopping := true } := h.frame rfl rfl rfl rfl
  have hclosed : Tracked ((List.range m.connections.length).foldl Server.closeConnection
      ({ m with stopping := true }.cancelJobs (m.tasksOf none))) :=
    List.foldlRecOn _ _ (hstopped.cancelJobs _) (fun _ hm c _ => hm.closeConnection c)
  exact List.foldlRecOn _ _ hclosed (fun _ hm j _ => hm.cancelAudit j)

theorem Tracked.step {action : Action} (h : Tracked m) (hseparate : m.Separate action)
    (hok : m.step action = some m') : Tracked m' := by
  cases action with
  | connect | runnerRecords | stop =>
    obtain rfl := Option.some.inj hok
    exact h.frame rfl rfl rfl rfl
  | receive c request =>
    obtain ⟨-, ⟨-, rfl⟩ | ⟨-, -, rfl⟩ | ⟨hfresh, -, rfl⟩⟩ := receiveFrame_some hok
    · exact h.closeConnection c
    · exact h.frame rfl rfl rfl rfl
    · exact h.admitRequest hfresh
  | lookup c =>
    obtain ⟨request, -, rfl⟩ := lookupResult_some hok
    exact h.frame rfl rfl rfl rfl
  | lookupFails c message =>
    obtain rfl := lookupFails_some hok
    have hfailed : Tracked { m with failure := some ⟨.logging, message⟩, journalFailed := true } := h.frame rfl rfl rfl rfl
    exact hfailed.closeConnection c
  | resume c =>
    obtain ⟨request, ⟨-, rfl⟩ | ⟨hget, rfl⟩⟩ := resumeConnection_some hok
    · exact h.closeConnection c
    · exact h.admitRequest (hseparate request hget)
  | disconnect c =>
    obtain rfl := disconnect_some hok
    exact h.closeConnection c
  | reply i =>
    obtain ⟨reply, hget, hphase, ⟨hwork, rfl⟩ | ⟨-, ⟨phase, hnew, hm⟩ | ⟨id, -, -, rfl⟩⟩⟩ := startReply_some hok
    · exact h.startWork hget hphase hwork
    · have hcreated : phase ≠ .created := by rcases hnew with rfl | ⟨response, rfl⟩ <;> exact nofun
      obtain rfl | rfl := hm
      · exact h.setReply hget hcreated
      · exact (h.frame rfl rfl rfl rfl : Tracked { m with stopping := true }).setReply hget hcreated
    · exact h.replyRaises hget _
  | answer i result =>
    obtain ⟨reply, hget, -, ⟨e, -, rfl⟩ | ⟨response, -, ⟨tasks, rfl⟩ | rfl | rfl⟩⟩ := answerReply_some hok
    · exact h.replyRaises hget e
    · exact (h.cancelJobs tasks).setReply hget nofun
    · exact h.recordReply hget response
    · exact h.setReply hget nofun
  | gathered i =>
    obtain ⟨reply, tasks, response, hget, -, rfl⟩ := gathered_some hok
    exact h.recordReply hget response
  | recorded i =>
    obtain ⟨reply, response, w, hget, -, ⟨-, rfl⟩ | ⟨e, -, rfl⟩⟩ := replyRecorded_some hok
    · exact h.setReply hget nofun
    · exact h.replyRaises hget e
  | awaited i =>
    obtain ⟨reply, j, job, hget, -, -, ⟨response, -, rfl⟩ | ⟨e, -, rfl⟩ | rfl⟩ := awaited_some hok
    · exact h.setReply hget nofun
    · exact h.replyRaises hget e
    · exact h.setReply hget nofun
  | send i delivered =>
    obtain ⟨reply, response, hget, -, rfl | rfl⟩ := sendReply_some hok
    · exact h.setReply hget nofun
    · have hsent : Tracked { m with sent := m.sent ++ [(reply.request.requestId, response)] } := h.frame rfl rfl rfl rfl
      exact hsent.setReply hget nofun
  | begin j =>
    obtain ⟨job, hget, hphase, hcases⟩ := beginJob_some hok
    have hover : job.phase.over = false := by rw [hphase]; rfl
    obtain ⟨-, -, rfl⟩ | ⟨-, -, rfl⟩ | ⟨response, -, rfl⟩ | ⟨-, rfl⟩ := hcases
    · exact (h.submitWrite _).setJob hget (fun _ => hover)
    · exact h.setJob hget (fun _ => hover)
    · exact h.recordJob hget hover _ _
    · exact h.setJob hget (fun _ => hover)
  | acquire j =>
    obtain ⟨job, hget, hphase, -, ⟨-, rfl⟩ | ⟨-, -, rfl⟩⟩ := acquireLock_some hok
    · have hover : job.phase.over = false := by rw [hphase]; rfl
      have hset : Tracked { m with jobs := m.jobs.set j { job with phase := .granted } } :=
        h.replaceJob hget rfl (fun _ => hover)
      exact hset.frame rfl rfl rfl rfl
    · exact h.holdLock hget (by rw [hphase]; rfl)
  | granted j =>
    obtain ⟨job, hget, hphase, ⟨-, rfl⟩ | ⟨-, rfl⟩⟩ := resumeGranted_some hok
    · exact h.recordJob hget (by rw [hphase]; rfl) _ _
    · exact h.holdLock hget (by rw [hphase]; rfl)
  | expire j =>
    obtain ⟨job, hget, hphase, rfl⟩ := expireQueued_some hok
    exact h.recordJob hget (by rw [hphase]; rfl) _ _
  | unqueue j =>
    obtain ⟨job, hget, hphase, rfl⟩ := cancelQueued_some hok
    exact h.recordJob hget (by rw [hphase]; rfl) _ _
  | started j error =>
    obtain ⟨job, hget, hphase, hcases⟩ := callStarted_some hok
    have hover : job.phase.over = false := by rw [hphase]; rfl
    obtain rfl | ⟨e, -, rfl⟩ | ⟨-, rfl⟩ := hcases
    · exact h.recordJob hget hover _ _
    · exact h.jobRaises hget hover e
    · exact (h.setJob hget (fun _ => hover)).frame rfl rfl rfl rfl
  | handled j result =>
    obtain ⟨job, hget, hphase, ⟨response, rfl⟩ | ⟨e, -, rfl⟩⟩ := handlerEnds_some hok
    · exact h.recordJob hget (by rw [hphase]; rfl) _ _
    · exact h.jobRaises hget (by rw [hphase]; rfl) e
  | finish j =>
    obtain ⟨job, response, acquired, w, hget, -, ⟨-, rfl⟩ | ⟨-, rfl⟩ | ⟨e, -, rfl⟩⟩ := finishJob_some hok
    · exact (h.frame rfl rfl rfl rfl : Tracked (m.cancelWrite w)).jobFails hget _ _
    · exact h.leaveJob hget rfl acquired
    · exact h.jobFails hget e acquired
  | audited j =>
    obtain ⟨job, w, hget, -, ⟨-, rfl⟩ | ⟨e, -, rfl⟩⟩ := auditJob_some hok
    · exact h.leaveJob hget rfl false
    · exact (h.frame rfl rfl rfl rfl : Tracked { m with failure := some e }).leaveJob hget rfl false
  | beginWrite w =>
    obtain ⟨write, -, -, rfl⟩ := beginWrite_some hok
    exact h.frame rfl rfl rfl rfl
  | endWrite w ending =>
    obtain ⟨write, -, -, ⟨-, journal, -, rfl⟩ | ⟨-, -, rfl⟩ | ⟨e, committed, -, rfl⟩⟩ := endWrite_some hok
    all_goals exact h.frame rfl rfl rfl rfl
  | close =>
    obtain rfl := Option.some.inj hok
    exact h.close

theorem Reachable.tracked {allowed : Server → Action → Prop} (hallowed : ∀ m action, allowed m action → m.Separate action)
    (h : Reachable allowed m) : Tracked m := by
  induction h with
  | start journal runnerResults =>
    refine ⟨.nil _, ?_, .nil _, ?_, ?_, ?_⟩ <;> intro a ha <;> cases ha
  | step action _ apart hstep ih => exact ih.step (hallowed _ _ apart) hstep

end Server

end ModularPipelines.Participants
