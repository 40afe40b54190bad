import ModularPipelines.Participants.AtMostOnce
import ModularPipelines.Participants.Held

namespace ModularPipelines.Participants
open Library

def JobPhase.audits : JobPhase → Bool
  | .auditing _ => true
  | _ => false

namespace Server

variable {m m' m'' : Server} {i j c w : Nat} {reply : Reply} {job : Job} {id : String} {action : Action}

/-- The journal takes what it is given, and the handlers of work do not report it as failed. -/
def Accepting (m : Server) : Action → Prop
  | .lookupFails _ _ => False
  | .started _ error => ∀ e ∈ error, e.kind ≠ .logging
  | .handled _ (.error e) => e.kind ≠ .logging
  | .endWrite w ending => ending = .stored ∧ ∀ write ∈ m.writes[w]?, (recordCommandResult m.journal write.outcome).isSome = true
  | _ => True

/-- No cancellation comes to a task whose helper has just got the lock, or while its outcome is
recorded, and no control command's handler raises. -/
def Calm (m : Server) : Action → Prop
  | .granted j | .finish j => ∀ job ∈ m.jobs[j]?, job.interrupted = false
  | .close => ∀ job ∈ m.jobs, job.phase.audits = false
  | .answer _ (.error e) => e.kind ≠ .logging ∧ e.kind ≠ .other
  | _ => True

def Quiet (m : Server) (action : Action) : Prop := m.Separate action ∧ m.Accepting action ∧ m.Calm action

instance (m : Server) (action : Action) : Decidable (m.Accepting action) := by
  cases action
  case handled j result => cases result <;> dsimp only [Accepting] <;> infer_instance
  all_goals dsimp only [Accepting]; infer_instance

instance (m : Server) (action : Action) : Decidable (m.Calm action) := by
  cases action
  case answer i result => cases result <;> dsimp only [Calm] <;> infer_instance
  all_goals dsimp only [Calm]; infer_instance

instance (m : Server) (action : Action) : Decidable (m.Quiet action) := inferInstanceAs (Decidable (_ ∧ _ ∧ _))

structure Healthy (m : Server) : Prop where
  failure : m.failure = none
  writes : ∀ write ∈ m.writes, ∀ e, write.phase ≠ .failed e
  jobs : ∀ job ∈ m.jobs, ∀ e, job.phase ≠ .raised e

theorem Healthy.frame (h : Healthy m) (hfailure : m'.failure = m.failure) (hwrites : m'.writes = m.writes)
    (hjobs : m'.jobs = m.jobs) : Healthy m' :=
  ⟨hfailure.trans h.failure, hwrites ▸ h.writes, hjobs ▸ h.jobs⟩

theorem Healthy.setJob (h : Healthy m) {new : Job} (hnew : ∀ e, new.phase ≠ .raised e) :
    Healthy { m with jobs := m.jobs.set j new } := by
  refine ⟨h.failure, h.writes, ?_⟩
  intro other hother
  obtain hother | rfl := List.mem_or_eq_of_mem_set hother
  · exact h.jobs other hother
  · exact hnew

theorem Healthy.submitWrite (h : Healthy m) (o : CommandOutcome) : Healthy (m.submitWrite o) := by
  refine ⟨h.failure, ?_, h.jobs⟩
  intro write hwrite
  obtain hwrite | hwrite := List.mem_append.mp hwrite
  · exact h.writes write hwrite
  · obtain rfl := List.mem_singleton.mp hwrite
    exact fun e => nofun

theorem Healthy.cancelJobs (h : Healthy m) (tasks : List Nat) : Healthy (m.cancelJobs tasks) := by
  refine ⟨h.failure, h.writes, ?_⟩
  intro job hjob e hphase
  obtain ⟨old, hold, -, hsame⟩ := cancelJobs_mem hjob
  exact h.jobs old hold e (hsame.symm.trans hphase)

theorem Healthy.cancelWrite (h : Healthy m) (w : Nat) : Healthy (m.cancelWrite w) := by
  refine ⟨h.failure, ?_, h.jobs⟩
  intro write hwrite e hphase
  obtain ⟨k, hk⟩ := List.mem_iff_getElem?.mp hwrite
  obtain ⟨old, hold, -, hsame | ⟨-, -, hdropped⟩⟩ := cancelWrite_get hk
  · exact h.writes old (List.mem_of_getElem? hold) e (hsame.symm.trans hphase)
  · rw [hdropped] at hphase
    cases hphase

theorem Healthy.setReply (h : Healthy m) (i : Nat) (reply : Reply) (phase : ReplyPhase) :
    Healthy (m.setReply i reply phase) := h.frame rfl rfl rfl

theorem Healthy.recordReply (h : Healthy m) (i : Nat) (reply : Reply) (response : ParticipantResult) :
    Healthy (m.recordReply i reply response) := (h.submitWrite _).setReply _ _ _

theorem Healthy.recordJob (h : Healthy m) (j : Nat) (job : Job) (response : ParticipantResult) (acquired : Bool) :
    Healthy (m.recordJob j job response acquired) := (h.submitWrite _).setJob (fun _ => nofun)

theorem Healthy.jobRaises (h : Healthy m) (j : Nat) (job : Job) {e : Raised} (he : e.kind ≠ .logging) :
    Healthy (m.jobRaises j job e) := by
  unfold Server.jobRaises
  split
  · exact h.recordJob _ _ _ _
  · exact h.recordJob _ _ _ _
  · next hkind => exact (he hkind).elim
  · exact h.recordJob _ _ _ _
  · exact h.recordJob _ _ _ _

theorem Healthy.holdLock (h : Healthy m) (j : Nat) (job : Job) : Healthy (m.holdLock j job) := by
  have hheld : Healthy { m with locked := true, current := some job.request.requestId } := h.frame rfl rfl rfl
  unfold Server.holdLock
  split
  · exact hheld.recordJob _ _ _ _
  · exact hheld.setJob (fun _ => nofun)

theorem Healthy.cancelReply (h : Healthy m) (i : Nat) : Healthy (m.cancelReply i) := by
  unfold Server.cancelReply
  split
  · exact h
  · split
    · exact h
    · exact (h.cancelJobs _).setReply _ _ _
    · exact (h.cancelWrite _).setReply _ _ _
    all_goals exact h.setReply _ _ _

theorem Healthy.closeConnection (h : Healthy m) (c : Nat) : Healthy (m.closeConnection c) := by
  have hclosed : Healthy { m with connections := m.connections.set c .closed } := h.frame rfl rfl rfl
  exact List.foldlRecOn _ _ hclosed (fun _ hm i _ => hm.cancelReply i)

/-- No task's cancellation is being recorded. -/
def Unaudited (m : Server) : Prop := ∀ job ∈ m.jobs, job.phase.audits = false

theorem Unaudited.cancelJobs (h : m.Unaudited) (tasks : List Nat) : (m.cancelJobs tasks).Unaudited := by
  intro job hjob
  obtain ⟨old, hold, -, hsame⟩ := cancelJobs_mem hjob
  rw [hsame]
  exact h old hold

theorem Unaudited.cancelReply (h : m.Unaudited) (i : Nat) : (m.cancelReply i).Unaudited := by
  unfold Server.cancelReply
  split
  · exact h
  · split
    · exact h
    · exact h.cancelJobs _
    all_goals exact h

theorem Unaudited.closeConnection (h : m.Unaudited) (c : Nat) : (m.closeConnection c).Unaudited := by
  have hclosed : Unaudited { m with connections := m.connections.set c .closed } := h
  exact List.foldlRecOn (motive := Unaudited) _ _ hclosed (fun _ hm i _ => hm.cancelReply i)

theorem Unaudited.cancelAudit (h : m.Unaudited) (j : Nat) : m.cancelAudit j = m := by
  unfold Server.cancelAudit
  split
  · next hget =>
    have haudits := h _ (List.mem_of_getElem? hget)
    cases haudits
  · rfl

theorem Healthy.close (h : Healthy m) (hu : m.Unaudited) : Healthy m.close := by
  have hstopped : Healthy { m with stopping := true } := h.frame rfl rfl rfl
  have hunaudited : Unaudited { m with stopping := true } := hu
  have hclosed := List.foldlRecOn (motive := fun n => Healthy n ∧ Unaudited n) (List.range m.connections.length)
    Server.closeConnection ⟨hstopped.cancelJobs (m.tasksOf none), hunaudited.cancelJobs (m.tasksOf none)⟩
    (fun _ hm c _ => ⟨hm.1.closeConnection c, hm.2.closeConnection c⟩)
  have hall := List.foldlRecOn (motive := fun n => Healthy n ∧ Unaudited n) (List.range m.jobs.length)
    Server.cancelAudit hclosed (fun _ hm j _ => by rw [hm.2.cancelAudit j]; exact hm)
  exact hall.1

theorem Healthy.replyEnds (h : Healthy m) (i : Nat) (reply : Reply) {e : Raised}
    (he : e.kind ≠ .logging ∧ e.kind ≠ .other) : Healthy (m.replyRaises i reply e) := by
  unfold Server.replyRaises
  split
  · exact h.setReply _ _ _
  · exact h.setReply _ _ _
  · exact h.setReply _ _ _
  · next hkind => exact (he.1 hkind).elim
  · next hkind => exact (he.2 hkind).elim

theorem Healthy.step (h : Healthy m) (ht : Tracked m) (hh : Held m) (haccepting : m.Accepting action)
    (hcalm : m.Calm action) (hok : m.step action = some m') : Healthy m' := by
  cases action with
  | connect | runnerRecords | stop =>
    obtain rfl := Option.some.inj hok
    exact h.frame rfl rfl rfl
  | receive c request =>
    obtain ⟨-, ⟨-, rfl⟩ | ⟨-, -, rfl⟩ | ⟨-, -, rfl⟩⟩ := receiveFrame_some hok
    · exact h.closeConnection c
    · exact h.frame rfl rfl rfl
    · exact h.frame rfl rfl rfl
  | lookup c =>
    obtain ⟨request, -, rfl⟩ := lookupResult_some hok
    exact h.frame rfl rfl rfl
  | lookupFails c message => exact haccepting.elim
  | resume c =>
    obtain ⟨request, ⟨-, rfl⟩ | ⟨-, rfl⟩⟩ := resumeConnection_some hok
    · exact h.closeConnection c
    · exact h.frame rfl rfl rfl
  | disconnect c =>
    obtain rfl := disconnect_some hok
    exact h.closeConnection c
  | reply i =>
    obtain ⟨reply, -, -, ⟨-, rfl⟩ | ⟨-, ⟨phase, -, rfl | rfl⟩ | ⟨id, hcurrent, hmissing, -⟩⟩⟩ := startReply_some hok
    · refine ⟨h.failure, h.writes, ?_⟩
      intro job hjob
      obtain hjob | hjob := List.mem_append.mp hjob
      · exact h.jobs job hjob
      · obtain rfl := List.mem_singleton.mp hjob
        exact fun e => nofun
    · exact h.setReply _ _ _
    · exact (h.frame rfl rfl rfl : Healthy { m with stopping := true }).setReply _ _ _
    · -- the current request is that of a task that is not over, so it is listed
      obtain ⟨j, job, hj, rfl, hholds⟩ := hh.current id hcurrent
      have hover : job.phase.over = false := by
        cases hphase : job.phase <;> rw [hphase] at hholds <;> first | rfl | cases hholds
      exact (hmissing (ht.requests job (List.mem_of_getElem? hj) hover)).elim
  | answer i result =>
    obtain ⟨reply, -, -, ⟨e, rfl, rfl⟩ | ⟨response, -, ⟨tasks, rfl⟩ | rfl | rfl⟩⟩ := answerReply_some hok
    · exact h.replyEnds i reply hcalm
    · exact (h.cancelJobs tasks).setReply _ _ _
    · exact h.recordReply _ _ _
    · exact h.setReply _ _ _
  | gathered i =>
    obtain ⟨reply, tasks, response, -, -, rfl⟩ := gathered_some hok
    exact h.recordReply _ _ _
  | recorded i =>
    obtain ⟨reply, response, w, -, -, ⟨-, rfl⟩ | ⟨e, hfailed, -⟩⟩ := replyRecorded_some hok
    · exact h.setReply _ _ _
    · obtain ⟨write, hw, hphase⟩ := Option.map_eq_some_iff.mp hfailed
      exact (h.writes write (List.mem_of_getElem? hw) e hphase).elim
  | awaited i =>
    obtain ⟨reply, j, job, -, -, hjob, ⟨response, -, rfl⟩ | ⟨e, hphase, -⟩ | rfl⟩ := awaited_some hok
    · exact h.setReply _ _ _
    · exact (h.jobs job (List.mem_of_getElem? hjob) e hphase).elim
    · exact h.setReply _ _ _
  | send i delivered =>
    obtain ⟨reply, response, -, -, rfl | rfl⟩ := sendReply_some hok
    · exact h.frame rfl rfl rfl
    · exact h.frame rfl rfl rfl
  | begin j =>
    obtain ⟨job, hget, hphase, ⟨-, -, rfl⟩ | ⟨-, hmissing, -⟩ | ⟨response, -, rfl⟩ | ⟨-, rfl⟩⟩ := beginJob_some hok
    · exact (h.submitWrite _).setJob (fun _ => nofun)
    · exact (hmissing (ht.requests job (List.mem_of_getElem? hget) (by rw [hphase]; rfl))).elim
    · exact h.recordJob _ _ _ _
    · exact h.setJob (fun _ => nofun)
  | acquire j =>
    obtain ⟨job, -, -, -, ⟨-, rfl⟩ | ⟨-, -, rfl⟩⟩ := acquireLock_some hok
    · have hset : Healthy { m with jobs := m.jobs.set j { job with phase := .granted } } := h.setJob (fun _ => nofun)
      exact hset.frame rfl rfl rfl
    · exact h.holdLock _ _
  | granted j =>
    obtain ⟨job, -, -, ⟨-, rfl⟩ | ⟨-, rfl⟩⟩ := resumeGranted_some hok
    · exact h.recordJob _ _ _ _
    · exact h.holdLock _ _
  | expire j =>
    obtain ⟨job, -, -, rfl⟩ := expireQueued_some hok
    exact h.recordJob _ _ _ _
  | unqueue j =>
    obtain ⟨job, -, -, rfl⟩ := cancelQueued_some hok
    exact h.recordJob _ _ _ _
  | started j error =>
    obtain ⟨job, -, -, rfl | ⟨e, rfl, rfl⟩ | ⟨-, rfl⟩⟩ := callStarted_some hok
    · exact h.recordJob _ _ _ _
    · exact h.jobRaises _ _ (haccepting e rfl)
    · have hset : Healthy (m.setJob j job .handling) := h.setJob (fun _ => nofun)
      exact hset.frame rfl rfl rfl
  | handled j result =>
    obtain ⟨job, -, -, ⟨response, rfl⟩ | ⟨e, rfl, rfl⟩⟩ := handlerEnds_some hok
    · exact h.recordJob _ _ _ _
    · exact h.jobRaises _ _ haccepting
  | finish j =>
    obtain ⟨job, response, acquired, w, hget, -, ⟨hinterrupted, -⟩ | ⟨-, rfl⟩ | ⟨e, hfailed, -⟩⟩ := finishJob_some hok
    · rw [hcalm job hget] at hinterrupted
      cases hinterrupted
    · have hset : Healthy (m.setJob j job (.finished response)) := h.setJob (fun _ => nofun)
      exact hset.frame rfl rfl rfl
    · obtain ⟨write, hw, hphase⟩ := Option.map_eq_some_iff.mp hfailed
      exact (h.writes write (List.mem_of_getElem? hw) e hphase).elim
  | audited j =>
    obtain ⟨job, w, -, -, ⟨-, rfl⟩ | ⟨e, hfailed, -⟩⟩ := auditJob_some hok
    · have hset : Healthy (m.setJob j job .audited) := h.setJob (fun _ => nofun)
      exact hset.frame rfl rfl rfl
    · obtain ⟨write, hw, hphase⟩ := Option.map_eq_some_iff.mp hfailed
      exact (h.writes write (List.mem_of_getElem? hw) e hphase).elim
  | beginWrite w =>
    obtain ⟨write, -, -, rfl⟩ := beginWrite_some hok
    refine ⟨h.failure, ?_, h.jobs⟩
    intro other hother
    obtain hother | rfl := List.mem_or_eq_of_mem_set hother
    · exact h.writes other hother
    · exact fun e => nofun
  | endWrite w ending =>
    obtain ⟨rfl, hrecords⟩ := haccepting
    obtain ⟨write, hget, -, ⟨-, journal, -, rfl⟩ | ⟨-, hconflict, -⟩ | ⟨e, committed, hending, -⟩⟩ := endWrite_some hok
    · refine ⟨h.failure, ?_, h.jobs⟩
      intro other hother
      obtain hother | rfl := List.mem_or_eq_of_mem_set hother
      · exact h.writes other hother
      · exact fun e => nofun
    · have hsome := hrecords write hget
      rw [hconflict] at hsome
      cases hsome
    · cases hending
  | close =>
    obtain rfl := Option.some.inj hok
    exact h.close hcalm

theorem not_holder_start (journal : List CommandOutcome) (runnerResults : List String) (j : Nat) :
    ¬ (start journal runnerResults).Holder j := by
  rintro ⟨job, hj, -⟩
  cases hj

theorem Reachable.exclusive {allowed : Server → Action → Prop} (h : Reachable allowed m) : Exclusive m := by
  induction h with
  | start journal runnerResults =>
    exact ⟨fun j hj => (not_holder_start _ _ j hj).elim, fun j _ hj => (not_holder_start _ _ j hj).elim⟩
  | step action _ _ hstep ih => exact ih.step (step_lock hstep)

theorem Reachable.held (h : Reachable Quiet m) : Held m := by
  induction h with
  | start journal runnerResults => exact ⟨nofun, fun _ => nofun⟩
  | step action _ apart hstep ih =>
    apply ih.step hstep (step_lock hstep)
    rintro ⟨j, job, rfl, hget, hinterrupted⟩
    rw [apart.2.2 job hget] at hinterrupted
    cases hinterrupted

theorem Reachable.healthy (h : Reachable Quiet m) : Healthy m := by
  induction h with
  | start journal runnerResults =>
    refine ⟨rfl, ?_, ?_⟩
    · intro write hwrite
      cases hwrite
    · intro job hjob
      cases hjob
  | step action before apart hstep ih =>
    exact ih.step (before.tracked (fun _ _ h => h.1)) before.held apart.2.1 apart.2.2 hstep

theorem Reachable.weaken {allowed allowed' : Server → Action → Prop} (h : Reachable allowed m)
    (hweaker : ∀ m action, allowed m action → allowed' m action) : Reachable allowed' m := by
  induction h with
  | start journal runnerResults => exact .start journal runnerResults
  | step action _ apart hstep ih => exact ih.step action (hweaker _ _ apart) hstep

/-- What is reached by a run that starts at a given state. -/
inductive Leads (allowed : Server → Action → Prop) (m : Server) : Server → Prop where
  | refl : Leads allowed m m
  | step {m' m'' : Server} (action : Action) (before : Leads allowed m m') (apart : allowed m' action)
      (step : m'.step action = some m'') : Leads allowed m m''

theorem Leads.reachable {allowed : Server → Action → Prop} (h : Leads allowed m m') (hm : Reachable allowed m) :
    Reachable allowed m' := by
  induction h with
  | refl => exact hm
  | step action _ apart hstep ih => exact ih.step action apart hstep

/-- The call of the request passes the handler. -/
def Spared (m : Server) (id : String) : Prop :=
  id ∉ m.handed ∧ ∃ (j : Nat) (job : Job), m.jobs[j]? = some job ∧ job.id = id ∧ job.Passes

theorem Spared.step (h : m.Spared id) (ht : Tracked m) (hok : m.step action = some m') : m'.Spared id := by
  obtain ⟨hnot, j, job, hj, hid, hpasses⟩ := h
  obtain hmoves | ⟨k, other, hget, hphase, hgoes, rfl⟩ := step_moves hok
  · obtain ⟨job', hj', hgoes⟩ := hmoves.jobs j job hj
    refine ⟨hmoves.handed ▸ hnot, j, job', hj', ?_, hgoes.passes hpasses⟩
    exact (congrArg ParticipantRequest.requestId hgoes.request).trans hid
  · have hkj : j ≠ k := by
      rintro rfl
      obtain rfl := Option.some.inj (hget.symm.trans hj)
      obtain hpast | ⟨hinterrupted, -⟩ := hpasses
      · rw [hphase] at hpast
        cases hpast
      · rw [hgoes] at hinterrupted
        cases hinterrupted
    refine ⟨?_, j, job, (get_set_other hkj).trans hj, hid, hpasses⟩
    intro hmem
    obtain hmem | hmem := List.mem_append.mp hmem
    · exact hnot hmem
    · exact hkj (ht.jobs j k job other hj hget (hid.trans (List.mem_singleton.mp hmem)))

theorem Leads.spared (h : Leads Separate m m') (hm : Reachable Separate m) (hspared : m.Spared id) : m'.Spared id := by
  induction h with
  | refl => exact hspared
  | step action before apart hstep ih =>
    exact ih.step ((before.reachable hm).tracked (fun _ _ h => h)) hstep

/-- A call that waits for the lock, and is cancelled or expires there. -/
theorem passing_spared (hm : Reachable Separate m) (hget : m.jobs[j]? = some job) (hrank : job.phase.rank ≤ 2) :
    (job.interrupted = true → m.Spared job.id) ∧ ∀ m', m.step (.expire j) = some m' → m'.Spared job.id := by
  have ht : Tracked m := hm.tracked (fun _ _ h => h)
  have hnot : job.id ∉ m.handed := (hm.handed (fun _ _ h => h)).not_handed ht hget (by omega)
  constructor
  · exact fun hinterrupted => ⟨hnot, j, job, hget, rfl, .inr ⟨hinterrupted, hrank⟩⟩
  · intro m' hok
    obtain ⟨other, hother, -, rfl⟩ := expireQueued_some hok
    obtain rfl := Option.some.inj (hget.symm.trans hother)
    exact ⟨hnot, j, _, get_set_self hget, rfl, .inl rfl⟩

/-- In every run at most one call is in the handler. While no request is admitted beside another
one with its ID, a call that is interrupted or expires before it has the lock is never handed to
the handler. In every run whose journal accepts the writes, with no cancellation that hits a task
between the grant of its lock and its sight of it or while its outcome is recorded, and no
control handler that raises: no failure is retained, heartbeats are answered, and a lock that no
call holds is free for each that waits. -/
theorem participant_stays_healthy (m : Server) :
    (Reachable Any m → ∀ (i j : Nat) (a b : Job), m.jobs[i]? = some a → m.jobs[j]? = some b →
      a.phase = .handling → b.phase = .handling → i = j) ∧
    (Reachable Separate m → ∀ (j : Nat) (job : Job), m.jobs[j]? = some job → job.phase.rank ≤ 2 →
      (job.interrupted = true → ∀ m', Leads Separate m m' → job.id ∉ m'.handed) ∧
      ∀ m', m.step (.expire j) = some m' → ∀ m'', Leads Separate m' m'' → job.id ∉ m''.handed) ∧
    (Reachable Quiet m → m.failure = none ∧
      (∀ (i : Nat) (reply : Reply), m.replies[i]? = some reply → reply.phase = .created →
        reply.request.command = .heartbeat → m.stopping = false →
        m.step (.reply i) = some (m.setReply i reply .answering)) ∧
      ((∀ j, ¬ m.Holder j) → m.locked = false ∧ m.current = none ∧
        ∀ (j : Nat) (job : Job), m.jobs[j]? = some job → job.phase = .queued → job.interrupted = false →
          (m.step (.acquire j)).isSome = true)) := by
  refine ⟨?_, ?_, ?_⟩
  · intro h i j a b ha hb hphase hphase'
    exact h.exclusive.single i j ⟨a, ha, by rw [hphase]; rfl⟩ ⟨b, hb, by rw [hphase']; rfl⟩
  · intro h j job hget hrank
    obtain ⟨hinterrupted, hexpires⟩ := passing_spared h hget hrank
    constructor
    · exact fun hflag m' hleads => (hleads.spared h (hinterrupted hflag)).1
    · intro m' hok m'' hleads
      exact (hleads.spared (h.step (.expire j) trivial hok) (hexpires m' hok)).1
  · intro h
    have hfailure := h.healthy.failure
    refine ⟨hfailure, ?_, ?_⟩
    · intro i reply hget hphase hcommand hstopping
      show m.startReply i = _
      simp [Server.startReply, hget, hphase, hcommand, hfailure, hstopping]
    · intro hnone
      have hlocked : m.locked = false := by
        by_contra hlocked
        obtain ⟨j, hj⟩ := h.held.locked (Bool.not_eq_false _ ▸ hlocked)
        exact hnone j hj
      refine ⟨hlocked, ?_, ?_⟩
      · cases hcurrent : m.current with
        | none => rfl
        | some id =>
          obtain ⟨j, job, hj, -, hholds⟩ := h.held.current id hcurrent
          exact (hnone j ⟨job, hj, hholds⟩).elim
      · intro j job hget hphase hinterrupted
        show (m.acquireLock j).isSome = true
        simp only [Server.acquireLock, hget, hphase, hlocked, hinterrupted]
        cases job.request.bounded <;> rfl

theorem not_holder (h : m.jobs.all (fun job => !job.phase.holds) = true) (j : Nat) : ¬ m.Holder j := by
  rintro ⟨job, hj, hholds⟩
  have hnot := List.all_eq_true.mp h job (List.mem_of_getElem? hj)
  rw [hholds] at hnot
  cases hnot

def stopAll : ParticipantRequest := ⟨"stop", .interrupt none, false⟩

/-- A second request that is interrupted while it waits for the first one. -/
def waiting : ParticipantRequest := ⟨"waiting", .work "echo", false⟩

def interruptedWaiting : List Action :=
  [.connect, .receive 0 echo, .lookup 0, .resume 0, .reply 0, .begin 0, .receive 0 waiting, .lookup 0, .resume 0, .reply 1,
    .begin 1, .acquire 0, .granted 0, .started 0 none, .receive 0 stopAll, .reply 2, .answer 2 (.ok echoed), .handled 0 (.ok echoed)]

theorem participant_stays_healthy_waiting : ∃ m, Reachable Quiet m ∧ m.failure = none ∧ m.handed = ["request"] ∧
    ∀ m', Leads Separate m m' → "waiting" ∉ m'.handed := by
  have hrun : ((start [] []).runAllowed Quiet interruptedWaiting).map
      (fun m => (m.handed, m.jobs[1]?.map (fun job => (job.id, job.interrupted, job.phase.rank)))) =
        some (["request"], some ("waiting", true, 1)) := by decide +kernel
  obtain ⟨m, hm, hfacts⟩ := Option.map_eq_some_iff.mp hrun
  obtain ⟨hhanded, hjob⟩ := Prod.mk.inj hfacts
  have hquiet : Reachable Quiet m := (Reachable.start [] []).run hm
  have hseparate : Reachable Separate m := hquiet.weaken (fun _ _ h => h.1)
  obtain ⟨job, hget, hjob⟩ := Option.map_eq_some_iff.mp hjob
  obtain ⟨hid, hflags⟩ := Prod.mk.inj hjob
  obtain ⟨hinterrupted, hrank⟩ := Prod.mk.inj hflags
  refine ⟨m, hquiet, ((participant_stays_healthy m).2.2 hquiet).1, hhanded, ?_⟩
  rw [← hid]
  exact ((participant_stays_healthy m).2.1 hseparate 1 job hget (by omega)).1 hinterrupted

/-- The interrupt comes after the helper has the lock and before its task has seen it. -/
def interruptedGrant : List Action :=
  [.connect, .connect, .receive 0 echo, .lookup 0, .resume 0, .reply 0, .begin 0, .receive 1 stopAll, .reply 1, .acquire 0,
    .answer 1 (.ok echoed), .granted 0, .beginWrite 0, .endWrite 0 .stored, .finish 0]

/-- The interrupt comes while the outcome of the call is recorded. -/
def interruptedRecord : List Action :=
  [.connect, .connect, .receive 0 echo, .lookup 0, .resume 0, .reply 0, .begin 0, .acquire 0, .granted 0, .started 0 none,
    .handled 0 (.ok echoed), .receive 1 stopAll, .reply 1, .answer 1 (.ok echoed), .beginWrite 0, .endWrite 0 .stored, .finish 0]

theorem interrupt_harms :
    (¬ ∀ m, Reachable Accepting m → (∀ j, ¬ m.Holder j) → m.locked = false) ∧
      ¬ ∀ m, Reachable Accepting m → m.failure = none := by
  constructor
  · intro hclaim
    have hrun : ((start [] []).runAllowed Accepting interruptedGrant).map
        (fun m => (m.locked, m.jobs.all (fun job => !job.phase.holds))) = some (true, true) := by decide +kernel
    obtain ⟨m, hm, hfacts⟩ := Option.map_eq_some_iff.mp hrun
    obtain ⟨hlocked, hnone⟩ := Prod.mk.inj hfacts
    have hfree := hclaim m ((Reachable.start [] []).run hm) (not_holder hnone)
    rw [hlocked] at hfree
    cases hfree
  · intro hclaim
    have hrun : ((start [] []).runAllowed Accepting interruptedRecord).map (fun m => m.failure) =
        some (some cancelledError) := by decide +kernel
    obtain ⟨m, hm, hfailure⟩ := Option.map_eq_some_iff.mp hrun
    rw [hclaim m ((Reachable.start [] []).run hm)] at hfailure
    cases hfailure

end Server

end ModularPipelines.Participants
