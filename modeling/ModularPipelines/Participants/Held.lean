import ModularPipelines.Participants.Progress

namespace ModularPipelines.Participants
open Library

/-- The task is between the acquisition of the lock and its release. -/
def JobPhase.holds : JobPhase → Bool
  | .granted | .starting | .handling | .recording _ true _ => true
  | _ => false

namespace Server

variable {m m' m'' : Server} {i j k c w : Nat} {reply : Reply} {job : Job} {id : String} {leaks : Prop}

def Holder (m : Server) (j : Nat) : Prop := ∃ job, m.jobs[j]? = some job ∧ job.phase.holds = true

/-- The current request is the one of a task that holds the lock. -/
def CurrentHeld (m : Server) : Prop :=
  ∀ id, m.current = some id → ∃ (j : Nat) (job : Job), m.jobs[j]? = some job ∧ job.id = id ∧ job.phase.holds = true

/-- What a step does to the lock and to those who hold it. -/
inductive LockStep (leaks : Prop) (m m' : Server) : Prop where
  | keep (holders : ∀ k, m'.Holder k ↔ m.Holder k) (locked : m'.locked = m.locked ∨ m'.locked = true ∧ ∃ k, m.Holder k)
      (current : m'.current = m.current ∨ m'.CurrentHeld)
  | leak (why : leaks) (j : Nat) (holders : ∀ k, m'.Holder k ↔ m.Holder k ∧ k ≠ j) (locked : m'.locked = m.locked)
  | acquire (j : Nat) (free : m.locked = false) (holders : ∀ k, m'.Holder k ↔ m.Holder k ∨ k = j)
      (locked : m'.locked = true) (current : m'.current = m.current ∨ m'.CurrentHeld)
  | release (j : Nat) (holder : m.Holder j) (holders : ∀ k, m'.Holder k ↔ m.Holder k ∧ k ≠ j)
      (locked : m'.locked = false) (current : m'.current = none)

theorem holder_set {new : Job} (hget : m.jobs[j]? = some job) (hjobs : m'.jobs = m.jobs.set j new) :
    m'.Holder k ↔ (k = j ∧ new.phase.holds = true) ∨ (k ≠ j ∧ m.Holder k) := by
  unfold Holder
  rw [hjobs]
  constructor
  · rintro ⟨other, hk, hholds⟩
    obtain ⟨rfl, rfl⟩ | ⟨hne, hk⟩ := get_set hget hk
    · exact .inl ⟨rfl, hholds⟩
    · exact .inr ⟨hne, other, hk, hholds⟩
  · rintro (⟨rfl, hholds⟩ | ⟨hne, other, hk, hholds⟩)
    · exact ⟨new, get_set_self hget, hholds⟩
    · exact ⟨other, (get_set_other hne).trans hk, hholds⟩

theorem holder_of (hget : m.jobs[j]? = some job) : m.Holder j ↔ job.phase.holds = true := by
  constructor
  · rintro ⟨other, hj, hholds⟩
    obtain rfl := Option.some.inj (hget.symm.trans hj)
    exact hholds
  · exact fun hholds => ⟨job, hget, hholds⟩

/-- A task goes on without a change of who holds the lock. -/
theorem holders_set {new : Job} (hget : m.jobs[j]? = some job) (hjobs : m'.jobs = m.jobs.set j new)
    (hsame : new.phase.holds = job.phase.holds) (k : Nat) : m'.Holder k ↔ m.Holder k := by
  rw [holder_set hget hjobs, hsame, ← holder_of hget]
  by_cases hk : k = j
  · subst hk
    exact ⟨fun h => h.elim And.right (fun h => (h.1 rfl).elim), fun h => .inl ⟨rfl, h⟩⟩
  · exact ⟨fun h => h.elim (fun h => (hk h.1).elim) And.right, fun h => .inr ⟨hk, h⟩⟩

theorem holders_drop {new : Job} (hget : m.jobs[j]? = some job) (hjobs : m'.jobs = m.jobs.set j new)
    (hnot : new.phase.holds = false) (k : Nat) : m'.Holder k ↔ m.Holder k ∧ k ≠ j := by
  rw [holder_set hget hjobs, hnot]
  exact ⟨fun h => h.elim (fun h => (Bool.false_ne_true h.2).elim) And.symm, fun h => .inr h.symm⟩

theorem holders_add {new : Job} (hget : m.jobs[j]? = some job) (hjobs : m'.jobs = m.jobs.set j new)
    (hholds : new.phase.holds = true) (k : Nat) : m'.Holder k ↔ m.Holder k ∨ k = j := by
  rw [holder_set hget hjobs, hholds]
  by_cases hk : k = j
  · exact ⟨fun _ => .inr hk, fun _ => .inl ⟨hk, rfl⟩⟩
  · exact ⟨fun h => h.elim (fun h => (hk h.1).elim) (fun h => .inl h.2), fun h => .inr ⟨hk, h.resolve_right hk⟩⟩

theorem LockStep.frame (hjobs : m'.jobs = m.jobs) (hlocked : m'.locked = m.locked) (hcurrent : m'.current = m.current) :
    LockStep leaks m m' :=
  .keep (fun k => by unfold Holder; rw [hjobs]) (.inl hlocked) (.inl hcurrent)

/-- Nothing happens to the lock. -/
structure LockKept (m m' : Server) : Prop where
  holders : ∀ k, m'.Holder k ↔ m.Holder k
  locked : m'.locked = m.locked
  current : m'.current = m.current

theorem LockKept.frame (hjobs : m'.jobs = m.jobs) (hlocked : m'.locked = m.locked) (hcurrent : m'.current = m.current) :
    LockKept m m' :=
  ⟨fun k => by unfold Holder; rw [hjobs], hlocked, hcurrent⟩

theorem LockKept.trans (h : LockKept m m') (h' : LockKept m' m'') : LockKept m m'' :=
  ⟨fun k => (h'.holders k).trans (h.holders k), h'.locked.trans h.locked, h'.current.trans h.current⟩

theorem LockKept.step (h : LockKept m m') : LockStep leaks m m' := .keep h.holders (.inl h.locked) (.inl h.current)

theorem LockKept.cancelJobs (m : Server) (tasks : List Nat) : LockKept m (m.cancelJobs tasks) := by
  refine ⟨?_, rfl, rfl⟩
  intro k
  constructor
  · rintro ⟨job, hk, hholds⟩
    obtain ⟨old, hold, -, hphase⟩ := cancelJobs_get hk
    exact ⟨old, hold, hphase ▸ hholds⟩
  · rintro ⟨job, hk, hholds⟩
    obtain ⟨new, hnew, -, hphase⟩ := @cancelJobs_of m k job tasks hk
    exact ⟨new, hnew, hphase ▸ hholds⟩

theorem LockKept.replyRaises (m : Server) (i : Nat) (reply : Reply) (e : Raised) : LockKept m (m.replyRaises i reply e) := by
  unfold Server.replyRaises
  split <;> exact .frame rfl rfl rfl

theorem LockKept.cancelReply (m : Server) (i : Nat) : LockKept m (m.cancelReply i) := by
  unfold Server.cancelReply
  split
  · exact .frame rfl rfl rfl
  · split
    · exact .frame rfl rfl rfl
    · exact (LockKept.cancelJobs m _).trans (.frame rfl rfl rfl)
    all_goals exact .frame rfl rfl rfl

theorem LockKept.closeConnection (m : Server) (c : Nat) : LockKept m (m.closeConnection c) :=
  List.foldlRecOn (motive := LockKept m) _ _ (.frame rfl rfl rfl) (fun n hn i _ => hn.trans (.cancelReply n i))

theorem LockKept.cancelAudit (m : Server) (j : Nat) : LockKept m (m.cancelAudit j) := by
  unfold Server.cancelAudit
  split
  · next hget => exact ⟨holders_set hget rfl rfl, rfl, rfl⟩
  · exact .frame rfl rfl rfl

theorem LockKept.close (m : Server) : LockKept m m.close := by
  have hstopped : LockKept m { m with stopping := true } := .frame rfl rfl rfl
  have hclosed := List.foldlRecOn (motive := LockKept m) (List.range m.connections.length) Server.closeConnection
    (hstopped.trans (.cancelJobs _ (m.tasksOf none))) (fun n hn c _ => hn.trans (.closeConnection n c))
  exact List.foldlRecOn (motive := LockKept m) _ _ hclosed (fun n hn j _ => hn.trans (.cancelAudit n j))

/-- The task goes on with or without the lock, as before. -/
theorem LockStep.setJob (hget : m.jobs[j]? = some job) {new : Job} (hjobs : m'.jobs = m.jobs.set j new)
    (hsame : new.phase.holds = job.phase.holds) (hlocked : m'.locked = m.locked) (hcurrent : m'.current = m.current) :
    LockStep leaks m m' :=
  .keep (holders_set hget hjobs hsame) (.inl hlocked) (.inl hcurrent)

theorem LockStep.recordJob (hget : m.jobs[j]? = some job) {acquired : Bool} (hholds : job.phase.holds = acquired)
    (response : ParticipantResult) : LockStep leaks m (m.recordJob j job response acquired) := by
  have hsame : (JobPhase.recording response acquired m.writes.length).holds = job.phase.holds := by
    rw [hholds]
    cases acquired <;> rfl
  exact .setJob hget rfl hsame rfl rfl

/-- The task leaves, and releases the lock if it has it. -/
theorem LockStep.leave (hget : m.jobs[j]? = some job) {new : Job} (hnew : new.phase.holds = false)
    (hjobs : m'.jobs = m.jobs.set j new) (hlocked : m'.locked = if job.phase.holds then false else m.locked)
    (hcurrent : m'.current = if job.phase.holds then none else m.current) : LockStep leaks m m' := by
  cases hholds : job.phase.holds with
  | true =>
    rw [hholds] at hlocked hcurrent
    exact .release j ((holder_of hget).mpr hholds) (holders_drop hget hjobs hnew) hlocked hcurrent
  | false =>
    rw [hholds] at hlocked hcurrent
    exact .setJob hget hjobs (hnew.trans hholds.symm) hlocked hcurrent

theorem LockStep.jobRaises (hget : m.jobs[j]? = some job) (hholds : job.phase.holds = true) (e : Raised) :
    LockStep leaks m (m.jobRaises j job e) := by
  unfold Server.jobRaises
  split
  · exact .recordJob hget hholds _
  · exact .recordJob hget hholds _
  · apply LockStep.leave hget (by rfl) rfl
    · rw [hholds]
      rfl
    · rw [hholds]
      rfl
  · exact .recordJob hget hholds _
  · exact .recordJob hget hholds _

theorem holdLock_jobs (m : Server) (j : Nat) (job : Job) :
    ∃ new : Job, (m.holdLock j job).jobs = m.jobs.set j new ∧ new.phase.holds = true ∧ new.request = job.request := by
  unfold Server.holdLock
  split <;> exact ⟨_, rfl, rfl, rfl⟩

theorem holdLock_locked : (m.holdLock j job).locked = true := by
  unfold Server.holdLock
  split <;> rfl

theorem holdLock_current (hget : m.jobs[j]? = some job) : (m.holdLock j job).CurrentHeld := by
  intro id hid
  obtain ⟨new, hjobs, hholds, hrequest⟩ := holdLock_jobs m j job
  have hcurrent : (m.holdLock j job).current = some job.id := by
    unfold Server.holdLock
    split <;> rfl
  obtain rfl := Option.some.inj (hcurrent.symm.trans hid)
  exact ⟨j, new, by rw [hjobs]; exact get_set_self hget, congrArg ParticipantRequest.requestId hrequest, hholds⟩

/-- The lock leaks only to a task that was cancelled when its helper had the lock. -/
theorem step_lock {action : Action} (hok : m.step action = some m') :
    LockStep (∃ (j : Nat) (job : Job), action = .granted j ∧ m.jobs[j]? = some job ∧ job.interrupted = true) m m' := by
  cases action with
  | connect | runnerRecords | stop =>
    obtain rfl := Option.some.inj hok
    exact .frame rfl rfl rfl
  | receive c request =>
    obtain ⟨-, ⟨-, rfl⟩ | ⟨-, -, rfl⟩ | ⟨-, -, rfl⟩⟩ := receiveFrame_some hok
    · exact (LockKept.closeConnection m c).step
    · exact .frame rfl rfl rfl
    · exact .frame rfl rfl rfl
  | lookup c =>
    obtain ⟨request, -, rfl⟩ := lookupResult_some hok
    exact .frame rfl rfl rfl
  | lookupFails c message =>
    obtain rfl := lookupFails_some hok
    have hfailed : LockKept m { m with failure := some ⟨.logging, message⟩, journalFailed := true } := .frame rfl rfl rfl
    exact (hfailed.trans (.closeConnection _ c)).step
  | resume c =>
    obtain ⟨request, ⟨-, rfl⟩ | ⟨-, rfl⟩⟩ := resumeConnection_some hok
    · exact (LockKept.closeConnection m c).step
    · exact .frame rfl rfl rfl
  | disconnect c =>
    obtain rfl := disconnect_some hok
    exact (LockKept.closeConnection m c).step
  | reply i =>
    obtain ⟨reply, -, -, ⟨-, rfl⟩ | ⟨-, ⟨phase, -, rfl | rfl⟩ | ⟨id, -, -, rfl⟩⟩⟩ := startReply_some hok
    · refine .keep ?_ (.inl rfl) (.inl rfl)
      intro k
      constructor
      · rintro ⟨job, hk, hholds⟩
        obtain hk | ⟨-, rfl⟩ := get_concat hk
        · exact ⟨job, hk, hholds⟩
        · cases hholds
      · rintro ⟨job, hk, hholds⟩
        exact ⟨job, get_concat_left hk, hholds⟩
    · exact .frame rfl rfl rfl
    · exact .frame rfl rfl rfl
    · exact (LockKept.replyRaises m i reply _).step
  | answer i result =>
    obtain ⟨reply, -, -, ⟨e, -, rfl⟩ | ⟨response, -, ⟨tasks, rfl⟩ | rfl | rfl⟩⟩ := answerReply_some hok
    · exact (LockKept.replyRaises m i reply e).step
    · have hkept := LockKept.cancelJobs m tasks
      exact .keep hkept.holders (.inl rfl) (.inl rfl)
    · exact .frame rfl rfl rfl
    · exact .frame rfl rfl rfl
  | gathered i =>
    obtain ⟨reply, tasks, response, -, -, rfl⟩ := gathered_some hok
    exact .frame rfl rfl rfl
  | recorded i =>
    obtain ⟨reply, response, w, -, -, ⟨-, rfl⟩ | ⟨e, -, rfl⟩⟩ := replyRecorded_some hok
    · exact .frame rfl rfl rfl
    · exact (LockKept.replyRaises m i reply e).step
  | awaited i =>
    obtain ⟨reply, j, job, -, -, -, ⟨response, -, rfl⟩ | ⟨e, -, rfl⟩ | rfl⟩ := awaited_some hok
    · exact .frame rfl rfl rfl
    · exact (LockKept.replyRaises m i reply e).step
    · exact .frame rfl rfl rfl
  | send i delivered =>
    obtain ⟨reply, response, -, -, rfl | rfl⟩ := sendReply_some hok
    · exact .frame rfl rfl rfl
    · exact .frame rfl rfl rfl
  | begin j =>
    obtain ⟨job, hget, hphase, hcases⟩ := beginJob_some hok
    have hholds : job.phase.holds = false := by rw [hphase]; rfl
    obtain ⟨-, -, rfl⟩ | ⟨-, -, rfl⟩ | ⟨response, -, rfl⟩ | ⟨-, rfl⟩ := hcases
    · exact .setJob hget rfl hholds.symm rfl rfl
    · exact .setJob hget rfl hholds.symm rfl rfl
    · exact .recordJob hget hholds _
    · exact .setJob hget rfl hholds.symm rfl rfl
  | acquire j =>
    obtain ⟨job, hget, hphase, hfree, ⟨-, rfl⟩ | ⟨-, -, rfl⟩⟩ := acquireLock_some hok
    · refine .acquire j hfree ?_ rfl (.inl rfl)
      exact holders_add hget rfl rfl
    · obtain ⟨new, hjobs, hholds, -⟩ := holdLock_jobs m j job
      exact .acquire j hfree (holders_add hget hjobs hholds) holdLock_locked (.inr (holdLock_current hget))
  | granted j =>
    obtain ⟨job, hget, hphase, hcases⟩ := resumeGranted_some hok
    have hholder : job.phase.holds = true := by rw [hphase]; rfl
    obtain ⟨hinterrupted, rfl⟩ | ⟨-, rfl⟩ := hcases
    · exact .leak ⟨j, job, rfl, hget, hinterrupted⟩ j (holders_drop hget rfl rfl) rfl
    · obtain ⟨new, hjobs, hholds, -⟩ := holdLock_jobs m j job
      refine .keep (holders_set hget hjobs (hholds.trans hholder.symm)) ?_ (.inr (holdLock_current hget))
      exact .inr ⟨holdLock_locked, j, (holder_of hget).mpr hholder⟩
  | expire j =>
    obtain ⟨job, hget, hphase, rfl⟩ := expireQueued_some hok
    exact .recordJob hget (by rw [hphase]; rfl) _
  | unqueue j =>
    obtain ⟨job, hget, hphase, rfl⟩ := cancelQueued_some hok
    exact .recordJob hget (by rw [hphase]; rfl) _
  | started j error =>
    obtain ⟨job, hget, hphase, hcases⟩ := callStarted_some hok
    have hholds : job.phase.holds = true := by rw [hphase]; rfl
    obtain rfl | ⟨e, -, rfl⟩ | ⟨-, rfl⟩ := hcases
    · exact .recordJob hget hholds _
    · exact .jobRaises hget hholds e
    · exact .setJob hget rfl hholds.symm rfl rfl
  | handled j result =>
    obtain ⟨job, hget, hphase, hcases⟩ := handlerEnds_some hok
    have hholds : job.phase.holds = true := by rw [hphase]; rfl
    obtain ⟨response, rfl⟩ | ⟨e, -, rfl⟩ := hcases
    · exact .recordJob hget hholds _
    · exact .jobRaises hget hholds e
  | finish j =>
    obtain ⟨job, response, acquired, w, hget, hphase, hcases⟩ := finishJob_some hok
    have hholds : job.phase.holds = acquired := by
      rw [hphase]
      cases acquired <;> rfl
    obtain ⟨-, rfl⟩ | ⟨-, rfl⟩ | ⟨e, -, rfl⟩ := hcases
    all_goals
      refine .leave hget ?_ rfl ?_ ?_
      · rfl
      · rw [hholds]
        rfl
      · rw [hholds]
        rfl
  | audited j =>
    obtain ⟨job, w, hget, hphase, hcases⟩ := auditJob_some hok
    have hholds : job.phase.holds = false := by rw [hphase]; rfl
    obtain ⟨-, rfl⟩ | ⟨e, -, rfl⟩ := hcases
    all_goals exact .setJob hget rfl hholds.symm rfl rfl
  | beginWrite w =>
    obtain ⟨write, -, -, rfl⟩ := beginWrite_some hok
    exact .frame rfl rfl rfl
  | endWrite w ending =>
    obtain ⟨write, -, -, ⟨-, journal, -, rfl⟩ | ⟨-, -, rfl⟩ | ⟨e, committed, -, rfl⟩⟩ := endWrite_some hok
    all_goals exact .frame rfl rfl rfl
  | close =>
    obtain rfl := Option.some.inj hok
    exact (LockKept.close m).step

/-- At most one task holds the lock. -/
structure Exclusive (m : Server) : Prop where
  locked : ∀ j, m.Holder j → m.locked = true
  single : ∀ j k, m.Holder j → m.Holder k → j = k

theorem Exclusive.step (h : Exclusive m) (hstep : LockStep leaks m m') : Exclusive m' := by
  cases hstep with
  | keep holders locked current =>
    refine ⟨?_, fun j k hj hk => h.single j k ((holders j).mp hj) ((holders k).mp hk)⟩
    intro j hj
    obtain hlocked | ⟨hlocked, -⟩ := locked
    · rw [hlocked]
      exact h.locked j ((holders j).mp hj)
    · exact hlocked
  | leak why l holders locked =>
    refine ⟨?_, fun j k hj hk => h.single j k ((holders j).mp hj).1 ((holders k).mp hk).1⟩
    intro j hj
    rw [locked]
    exact h.locked j ((holders j).mp hj).1
  | acquire l free holders locked current =>
    have hnone : ∀ k, ¬ m.Holder k := by
      intro k hk
      have hlocked := h.locked k hk
      rw [free] at hlocked
      cases hlocked
    refine ⟨fun _ _ => locked, ?_⟩
    intro j k hj hk
    exact (((holders j).mp hj).resolve_left (hnone j)).trans (((holders k).mp hk).resolve_left (hnone k)).symm
  | release l holder holders locked current =>
    have hnone : ∀ k, ¬ m'.Holder k := by
      intro k hk
      obtain ⟨hold, hne⟩ := (holders k).mp hk
      exact hne (h.single k l hold holder)
    exact ⟨fun j hj => (hnone j hj).elim, fun j _ hj _ => (hnone j hj).elim⟩

/-- The lock is held by a task, and the current request is that of one. -/
structure Held (m : Server) : Prop where
  locked : m.locked = true → ∃ j, m.Holder j
  current : m.CurrentHeld

theorem step_requests {action : Action} (hok : m.step action = some m') {j : Nat} {job : Job} (hj : m.jobs[j]? = some job) :
    ∃ job', m'.jobs[j]? = some job' ∧ job'.request = job.request := by
  obtain hmoves | ⟨k, other, hget, -, -, rfl⟩ := step_moves hok
  · obtain ⟨job', hj', hgoes⟩ := hmoves.jobs j job hj
    exact ⟨job', hj', hgoes.request⟩
  · by_cases hjk : j = k
    · subst hjk
      obtain rfl := Option.some.inj (hget.symm.trans hj)
      exact ⟨_, get_set_self hget, rfl⟩
    · exact ⟨job, (get_set_other hjk).trans hj, rfl⟩

theorem Held.step {action : Action} (h : Held m) (hok : m.step action = some m')
    (hstep : LockStep leaks m m') (hleaks : ¬ leaks) : Held m' := by
  -- a holder of the current request that still holds the lock is still the one of that request
  have hcurrent : m'.current = m.current → (∀ k, m.Holder k → m'.Holder k) → m'.CurrentHeld := by
    intro hsame hstays id hid
    obtain ⟨j, job, hj, hjob, hholds⟩ := h.current id (hsame ▸ hid)
    obtain ⟨job', hj', hrequest⟩ := step_requests hok hj
    obtain ⟨other, hother, hholds'⟩ := hstays j ⟨job, hj, hholds⟩
    obtain rfl := Option.some.inj (hj'.symm.trans hother)
    exact ⟨j, job', hj', (congrArg ParticipantRequest.requestId hrequest).trans hjob, hholds'⟩
  cases hstep with
  | keep holders locked current =>
    refine ⟨?_, current.elim (fun hc => hcurrent hc (fun k hk => (holders k).mpr hk)) (fun hc => hc)⟩
    intro hlocked
    obtain hsame | ⟨-, j, hj⟩ := locked
    · obtain ⟨j, hj⟩ := h.locked (hsame ▸ hlocked)
      exact ⟨j, (holders j).mpr hj⟩
    · exact ⟨j, (holders j).mpr hj⟩
  | leak why => exact (hleaks why).elim
  | acquire l free holders locked current =>
    refine ⟨fun _ => ⟨l, (holders l).mpr (.inr rfl)⟩, ?_⟩
    exact current.elim (fun hc => hcurrent hc (fun k hk => (holders k).mpr (.inl hk))) (fun hc => hc)
  | release l holder holders locked current =>
    refine ⟨?_, ?_⟩
    · intro hlocked
      rw [locked] at hlocked
      cases hlocked
    · intro id hid
      rw [current] at hid
      cases hid

end Server

end ModularPipelines.Participants
