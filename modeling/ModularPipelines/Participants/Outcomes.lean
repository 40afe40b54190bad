import ModularPipelines.Participants.Requests

namespace ModularPipelines.Participants
open Library

def Write.id (write : Write) : String := write.outcome.requestId

namespace Server

variable {m m' : Server} {i j c w : Nat} {reply : Reply} {job : Job} {request : ParticipantRequest}
variable {writes writes' : List Write} {journal : List CommandOutcome} {failed failed' : Bool} {id : String}

def outcomesOf (journal : List CommandOutcome) (id : String) : List CommandOutcome :=
  journal.filter (fun o => o.requestId == id)

/-- No write has been submitted for the request. -/
def Unwritten (writes : List Write) (id : String) : Prop := ∀ write ∈ writes, write.id ≠ id

def Stored (writes : List Write) (id : String) (response : ParticipantResult) : Prop :=
  ∃ w : Nat, writes[w]? = some ⟨resultOutcome id response, .stored⟩

/-- What has been submitted for a task, by its phase. -/
def JobLaw (writes : List Write) (failed : Bool) (job : Job) : Prop :=
  match job.phase with
  | .created | .queued | .granted | .starting | .handling => Unwritten writes job.id
  | .recording response _ w => ∃ phase, writes[w]? = some ⟨resultOutcome job.id response, phase⟩
  | .finished response => Stored writes job.id response
  | .raised e => failed = true ∨ e.kind = .cancelled ∧ ∃ write ∈ writes, write.id = job.id
  | .auditing w => ∃ o phase, writes[w]? = some ⟨o, phase⟩ ∧ o.requestId = job.id
  | .audited => ∃ write ∈ writes, write.id = job.id

/-- What has been submitted for a reply; the reply of work waits for its task. -/
def ReplyLaw (writes : List Write) (jobs : List Job) (failed : Bool) (reply : Reply) : Prop :=
  match reply.phase with
  | .created => Unwritten writes reply.id
  | .answering | .gathering _ _ => Unwritten writes reply.id ∧ reply.request.command.isWork = false
  | .recording _ w => reply.request.command.isWork = false ∧ ∃ o phase, writes[w]? = some ⟨o, phase⟩ ∧ o.requestId = reply.id
  | .awaiting j => ∃ job, jobs[j]? = some job ∧ job.request = reply.request
  | .sending response => reply.request.command.isWork = true → failed = true ∨ Stored writes reply.id response
  | .ended => True

/-- What the journal has for a write of work. -/
def WriteLaw (journal : List CommandOutcome) (failed : Bool) (write : Write) : Prop :=
  match write.phase with
  | .queued | .running => outcomesOf journal write.id = []
  | .stored => outcomesOf journal write.id = [write.outcome]
  | .failed _ => failed = true ∧ (outcomesOf journal write.id).length ≤ 1
  | .dropped => False

/-- A request of work that has been admitted. -/
def Worked (m : Server) (id : String) : Prop := ∃ reply ∈ m.replies, reply.id = id ∧ reply.request.command.isWork = true

/-- A request that has been admitted. -/
def Known (m : Server) (id : String) : Prop := ∃ reply ∈ m.replies, reply.id = id

structure Recorded (m : Server) : Prop where
  keyed : Keyed Write.id m.writes
  owned : ∀ write ∈ m.writes, m.Known write.id
  jobs : ∀ job ∈ m.jobs, JobLaw m.writes m.journalFailed job
  replies : ∀ reply ∈ m.replies, ReplyLaw m.writes m.jobs m.journalFailed reply
  written : ∀ write ∈ m.writes, m.Worked write.id → WriteLaw m.journal m.journalFailed write
  unwritten : ∀ id, m.Worked id → Unwritten m.writes id → outcomesOf m.journal id = []
  sent : ∀ id response, (id, response) ∈ m.sent →
    m.Known id ∧ (m.Worked id → m.journalFailed = true ∨ Stored m.writes id response)
  checking : ∀ (c : Nat) (request : ParticipantRequest), m.connections[c]? = some (.checking request (some false)) →
    request.requestId ∈ m.seen ∨ outcomesOf m.journal request.requestId = []

/-- A write that waits for a thread is not cancelled. -/
def Kept (m : Server) : Action → Prop
  | .finish j => ∀ (job : Job) response acquired w, m.jobs[j]? = some job → job.interrupted = true →
      job.phase = .recording response acquired w → m.writePhase w ≠ some .queued
  | .close => ∀ job ∈ m.jobs, ∀ w, job.phase = .auditing w → m.writePhase w ≠ some .queued
  | _ => True

def keeps (m : Server) : Action → Bool
  | .finish j =>
    match m.jobs[j]? with
    | some ⟨_, true, .recording _ _ w⟩ => m.writePhase w != some .queued
    | _ => true
  | .close => m.jobs.all (fun job =>
    match job.phase with
    | .auditing w => m.writePhase w != some .queued
    | _ => true)
  | _ => true

theorem keeps_iff (action : Action) : m.keeps action = true ↔ m.Kept action := by
  cases action with
  | finish j =>
    simp only [keeps, Kept]
    split
    · next hget =>
      rw [bne_iff_ne]
      constructor
      · intro hne job response acquired w hjob _ hphase
        obtain rfl := Option.some.inj (hget.symm.trans hjob)
        obtain ⟨-, -, rfl⟩ := JobPhase.recording.inj hphase
        exact hne
      · exact fun hall => hall _ _ _ _ hget rfl rfl
    · next hnone =>
      refine ⟨fun _ job response acquired w hjob hinterrupted hphase => ?_, fun _ => rfl⟩
      obtain ⟨request, interrupted, phase⟩ := job
      obtain rfl : interrupted = true := hinterrupted
      obtain rfl : phase = .recording response acquired w := hphase
      exact (hnone request response acquired w hjob).elim
  | close =>
    simp only [keeps, Kept]
    rw [List.all_eq_true]
    constructor
    · intro hall job hjob w hphase
      have hjob := hall job hjob
      rw [hphase] at hjob
      exact bne_iff_ne.mp hjob
    · intro hall job hjob
      split
      · next w hphase => exact bne_iff_ne.mpr (hall job hjob w hphase)
      · rfl
  | _ => exact ⟨fun _ => trivial, fun _ => rfl⟩

instance (m : Server) (action : Action) : Decidable (m.Kept action) := decidable_of_iff _ (keeps_iff action)

/-- Writes go on, and at most one is new. -/
structure Advances (writes writes' : List Write) (fresh : Option String) : Prop where
  kept : ∀ (w : Nat) (write : Write), writes[w]? = some write →
    ∃ phase, writes'[w]? = some ⟨write.outcome, phase⟩ ∧ (write.phase = .stored → phase = .stored)
  ids : ∀ write ∈ writes', (∃ old ∈ writes, old.id = write.id) ∨ fresh = some write.id

theorem Advances.refl (writes : List Write) : Advances writes writes none :=
  ⟨fun _ write hw => ⟨write.phase, hw, fun hs => hs⟩, fun write hw => .inl ⟨write, hw, rfl⟩⟩

theorem Advances.submit (o : CommandOutcome) : Advances writes (writes ++ [⟨o, .queued⟩]) (some o.requestId) := by
  refine ⟨?_, ?_⟩
  · intro w write hw
    exact ⟨write.phase, get_concat_left hw, fun h => h⟩
  · intro write hwrite
    obtain hwrite | hwrite := List.mem_append.mp hwrite
    · exact .inl ⟨write, hwrite, rfl⟩
    · obtain rfl := List.mem_singleton.mp hwrite
      exact .inr rfl

theorem Advances.setPhase {write : Write} (hw : writes[w]? = some write) (hstored : write.phase ≠ .stored)
    (phase : WritePhase) : Advances writes (writes.set w { write with phase := phase }) none := by
  refine ⟨?_, ?_⟩
  · intro w' other hother
    by_cases hw' : w' = w
    · subst hw'
      obtain rfl := Option.some.inj (hw.symm.trans hother)
      exact ⟨phase, get_set_self hw, fun h => (hstored h).elim⟩
    · exact ⟨other.phase, (get_set_other hw').trans hother, fun h => h⟩
  · intro other hother
    obtain hother | rfl := List.mem_or_eq_of_mem_set hother
    · exact .inl ⟨other, hother, rfl⟩
    · exact .inl ⟨write, List.mem_of_getElem? hw, rfl⟩

theorem cancelWrite_get {write : Write} (hw : (m.cancelWrite w).writes[j]? = some write) :
    ∃ old, m.writes[j]? = some old ∧ write.outcome = old.outcome ∧
      (write.phase = old.phase ∨ (j = w ∧ old.phase = .queued ∧ write.phase = .dropped)) := by
  rw [cancelWrite, List.getElem?_modify] at hw
  obtain ⟨old, hold, rfl⟩ := Option.map_eq_some_iff.mp hw
  refine ⟨old, hold, ?_⟩
  by_cases hj : w = j
  · rw [if_pos hj]
    unfold Write.cancel
    split
    · next hqueued => exact ⟨rfl, .inr ⟨hj.symm, hqueued, rfl⟩⟩
    · exact ⟨rfl, .inl rfl⟩
  · rw [if_neg hj]
    exact ⟨rfl, .inl rfl⟩

theorem Advances.cancel (m : Server) (w : Nat) : Advances m.writes (m.cancelWrite w).writes none := by
  refine ⟨?_, ?_⟩
  · intro j write hwrite
    rw [cancelWrite, List.getElem?_modify, hwrite, Option.map_eq_map, Option.map_some]
    by_cases hj : w = j
    · rw [if_pos hj]
      unfold Write.cancel
      split
      · next hqueued => exact ⟨.dropped, rfl, fun h => by rw [hqueued] at h; cases h⟩
      · exact ⟨write.phase, rfl, fun h => h⟩
    · rw [if_neg hj]
      exact ⟨write.phase, rfl, fun h => h⟩
  · intro write hwrite
    obtain ⟨j, hj⟩ := List.mem_iff_getElem?.mp hwrite
    obtain ⟨old, hold, houtcome, -⟩ := cancelWrite_get hj
    exact .inl ⟨old, List.mem_of_getElem? hold, (congrArg CommandOutcome.requestId houtcome).symm⟩

theorem Unwritten.advance {fresh : Option String} (h : Unwritten writes id) (hadvance : Advances writes writes' fresh)
    (hfresh : fresh ≠ some id) : Unwritten writes' id := by
  intro write hwrite hid
  obtain ⟨old, hold, hsame⟩ | hnew := hadvance.ids write hwrite
  · exact h old hold (hsame.trans hid)
  · exact hfresh (hnew.trans (congrArg some hid))

theorem Stored.advance {fresh : Option String} {response : ParticipantResult} (h : Stored writes id response)
    (hadvance : Advances writes writes' fresh) : Stored writes' id response := by
  obtain ⟨w, hw⟩ := h
  obtain ⟨phase, hphase, hstored⟩ := hadvance.kept w _ hw
  obtain rfl := hstored rfl
  exact ⟨w, hphase⟩

theorem written_advance {fresh : Option String} (h : ∃ write ∈ writes, write.id = id)
    (hadvance : Advances writes writes' fresh) : ∃ write ∈ writes', write.id = id := by
  obtain ⟨write, hwrite, hid⟩ := h
  obtain ⟨w, hw⟩ := List.mem_iff_getElem?.mp hwrite
  obtain ⟨phase, hphase, -⟩ := hadvance.kept w write hw
  exact ⟨_, List.mem_of_getElem? hphase, hid⟩

theorem JobLaw.advance {fresh : Option String} (h : JobLaw writes failed job) (hadvance : Advances writes writes' fresh)
    (hfailed : failed = true → failed' = true) (hfresh : fresh ≠ some job.id) : JobLaw writes' failed' job := by
  unfold JobLaw at h ⊢
  split at h
  case h_6 =>
    obtain ⟨phase, hw⟩ := h
    obtain ⟨phase', hw', -⟩ := hadvance.kept _ _ hw
    exact ⟨phase', hw'⟩
  case h_7 => exact h.advance hadvance
  case h_8 => exact h.imp hfailed (fun hw => ⟨hw.1, written_advance hw.2 hadvance⟩)
  case h_9 =>
    obtain ⟨o, phase, hw, hid⟩ := h
    obtain ⟨phase', hw', -⟩ := hadvance.kept _ _ hw
    exact ⟨o, phase', hw', hid⟩
  case h_10 => exact written_advance h hadvance
  all_goals exact h.advance hadvance hfresh

/-- Every task is still the task of its request. -/
def JobsKept (jobs jobs' : List Job) : Prop :=
  ∀ (j : Nat) (job : Job), jobs[j]? = some job → ∃ job', jobs'[j]? = some job' ∧ job'.request = job.request

theorem JobsKept.refl (jobs : List Job) : JobsKept jobs jobs := fun _ job hj => ⟨job, hj, rfl⟩

theorem JobsKept.set {jobs : List Job} {new : Job} (hget : jobs[j]? = some job) (hrequest : new.request = job.request) :
    JobsKept jobs (jobs.set j new) := by
  intro j' other hother
  by_cases hj : j' = j
  · subst hj
    obtain rfl := Option.some.inj (hget.symm.trans hother)
    exact ⟨new, get_set_self hget, hrequest⟩
  · exact ⟨other, (get_set_other hj).trans hother, rfl⟩

theorem ReplyLaw.advance {fresh : Option String} {jobs jobs' : List Job} (h : ReplyLaw writes jobs failed reply)
    (hadvance : Advances writes writes' fresh) (hjobs : JobsKept jobs jobs') (hfailed : failed = true → failed' = true)
    (hfresh : fresh = some reply.id → reply.phase ≠ .created ∧ reply.request.command.isWork = true) :
    ReplyLaw writes' jobs' failed' reply := by
  unfold ReplyLaw at h ⊢
  split at h
  · next hphase => exact h.advance hadvance (fun hf => (hfresh hf).1 hphase)
  · exact ⟨h.1.advance hadvance (fun hf => Bool.eq_false_iff.mp h.2 (hfresh hf).2), h.2⟩
  · exact ⟨h.1.advance hadvance (fun hf => Bool.eq_false_iff.mp h.2 (hfresh hf).2), h.2⟩
  · obtain ⟨hcontrol, o, phase, hw, hid⟩ := h
    obtain ⟨phase', hw', -⟩ := hadvance.kept _ _ hw
    exact ⟨hcontrol, o, phase', hw', hid⟩
  · obtain ⟨job, hj, hrequest⟩ := h
    obtain ⟨job', hj', hsame⟩ := hjobs _ job hj
    exact ⟨job', hj', hsame.trans hrequest⟩
  · exact fun hwork => (h hwork).imp hfailed (fun hstored => hstored.advance hadvance)
  · trivial

theorem outcomes_append {o : CommandOutcome} :
    outcomesOf (journal ++ [o]) id = outcomesOf journal id ++ (if o.requestId = id then [o] else []) := by
  unfold outcomesOf
  rw [List.filter_append, List.filter_singleton]
  by_cases hid : o.requestId = id
  · rw [if_pos hid, hid, beq_self_eq_true, cond_true]
  · rw [if_neg hid, beq_false_of_ne hid, cond_false]

/-- Only what the journal has for the request of the outcome can change. -/
theorem record_other {o : CommandOutcome} {journal' : List CommandOutcome}
    (h : recordCommandResult journal o = some journal') (hid : o.requestId ≠ id) :
    outcomesOf journal' id = outcomesOf journal id := by
  unfold recordCommandResult at h
  split at h
  · split at h
    · obtain rfl := Option.some.inj h
      rfl
    · cases h
  · obtain rfl := Option.some.inj h
    rw [outcomes_append, if_neg hid, List.append_nil]

theorem record_fresh {o : CommandOutcome} (h : outcomesOf journal o.requestId = []) :
    recordCommandResult journal o = some (journal ++ [o]) ∧ outcomesOf (journal ++ [o]) o.requestId = [o] := by
  have hnone : journal.find? (fun e => e.requestId == o.requestId) = none := by
    apply List.find?_eq_none.mpr
    intro e he hsame
    exact List.filter_eq_nil_iff.mp h e he hsame
  constructor
  · unfold recordCommandResult
    rw [hnone]
  · rw [outcomes_append, if_pos rfl, h, List.nil_append]

/-- A request of work has one reply. -/
theorem worked_reply (ht : Tracked m) (h : m.Worked reply.id) (hreply : reply ∈ m.replies) :
    reply.request.command.isWork = true := by
  obtain ⟨other, hother, hid, hwork⟩ := h
  obtain ⟨i, hi⟩ := List.mem_iff_getElem?.mp hother
  obtain ⟨i', hi'⟩ := List.mem_iff_getElem?.mp hreply
  obtain rfl := ht.replies i i' other reply hi hi' hid
  obtain rfl := Option.some.inj (hi.symm.trans hi')
  exact hwork

theorem worked_job (ht : Tracked m) (hjob : job ∈ m.jobs) : m.Worked job.id := by
  obtain ⟨r, hr, hrequest, -⟩ := ht.replied job hjob
  exact ⟨r, hr, congrArg ParticipantRequest.requestId hrequest, hrequest ▸ ht.works job hjob⟩

/-- The writes go on and no new one is submitted. -/
theorem Recorded.advance (h : Recorded m) (ht : Tracked m) (hadvance : Advances m.writes writes' none)
    (hkeyed : Keyed Write.id writes') (hfailed : m.journalFailed = true → failed' = true)
    (hwritten : ∀ write ∈ writes', m.Worked write.id → WriteLaw journal failed' write)
    (hother : ∀ id, Unwritten m.writes id → outcomesOf journal id = outcomesOf m.journal id) :
    Recorded { m with writes := writes', journal := journal, journalFailed := failed' } := by
  have hback : ∀ id, Unwritten writes' id → Unwritten m.writes id := by
    intro id hid write hwrite hsame
    obtain ⟨new, hnew, hnewid⟩ := written_advance ⟨write, hwrite, hsame⟩ hadvance
    exact hid new hnew hnewid
  refine ⟨hkeyed, ?_, ?_, ?_, hwritten, ?_, ?_, ?_⟩
  · intro write hwrite
    obtain ⟨old, hold, hid⟩ | hnone := hadvance.ids write hwrite
    · rw [← hid]
      exact h.owned old hold
    · cases hnone
  · intro job hjob
    exact (h.jobs job hjob).advance hadvance hfailed nofun
  · intro reply hreply
    exact (h.replies reply hreply).advance hadvance (.refl _) hfailed nofun
  · intro id hworked hid
    rw [hother id (hback id hid)]
    exact h.unwritten id hworked (hback id hid)
  · intro id response hsent
    obtain ⟨hknown, hstored⟩ := h.sent id response hsent
    exact ⟨hknown, fun hworked => (hstored hworked).imp hfailed (fun hs => hs.advance hadvance)⟩
  · intro c request hget
    obtain hseen | hnone := h.checking c request hget
    · exact .inl hseen
    · by_cases hid : Unwritten m.writes request.requestId
      · exact .inr ((hother _ hid).trans hnone)
      · unfold Unwritten at hid
        push Not at hid
        obtain ⟨write, hwrite, hsame⟩ := hid
        obtain ⟨r, hr, hrid⟩ := h.owned write hwrite
        exact .inl (hsame ▸ hrid ▸ ht.seen r hr)

theorem WriteLaw.other {write : Write} {journal' : List CommandOutcome} (h : WriteLaw journal failed write)
    (hjournal : outcomesOf journal' write.id = outcomesOf journal write.id) (hfailed : failed = true → failed' = true) :
    WriteLaw journal' failed' write := by
  unfold WriteLaw at h ⊢
  split at h
  · exact hjournal.trans h
  · exact hjournal.trans h
  · exact hjournal.trans h
  · exact ⟨hfailed h.1, by rw [hjournal]; exact h.2⟩
  · exact h

theorem Recorded.frame (h : Recorded m) (hwrites : m'.writes = m.writes) (hreplies : m'.replies = m.replies)
    (hjobs : m'.jobs = m.jobs) (hjournal : m'.journal = m.journal)
    (hfailed : m.journalFailed = true → m'.journalFailed = true) (hsent : m'.sent = m.sent)
    (hchecking : ∀ (c : Nat) (request : ParticipantRequest), m'.connections[c]? = some (.checking request (some false)) →
      request.requestId ∈ m'.seen ∨ outcomesOf m.journal request.requestId = []) : Recorded m' := by
  have hworked : ∀ id, m'.Worked id ↔ m.Worked id := fun id => by unfold Worked; rw [hreplies]
  have hknown : ∀ id, m'.Known id ↔ m.Known id := fun id => by unfold Known; rw [hreplies]
  refine ⟨?_, ?_, ?_, ?_, ?_, ?_, ?_, ?_⟩
  · rw [hwrites]
    exact h.keyed
  · rw [hwrites]
    exact fun write hwrite => (hknown _).mpr (h.owned write hwrite)
  · rw [hwrites, hjobs]
    exact fun job hjob => (h.jobs job hjob).advance (.refl _) hfailed nofun
  · rw [hwrites, hjobs, hreplies]
    exact fun reply hreply => (h.replies reply hreply).advance (.refl _) (.refl _) hfailed nofun
  · rw [hwrites, hjournal]
    intro write hwrite hwork
    exact (h.written write hwrite ((hworked _).mp hwork)).other rfl hfailed
  · rw [hwrites, hjournal]
    exact fun id hwork => h.unwritten id ((hworked id).mp hwork)
  · rw [hwrites, hsent]
    intro id response hs
    obtain ⟨hid, hstored⟩ := h.sent id response hs
    exact ⟨(hknown id).mpr hid, fun hwork => (hstored ((hworked id).mp hwork)).imp_left hfailed⟩
  · rw [hjournal]
    exact hchecking

/-- The state of a connection changes, and it is not one that goes on with a new request. -/
theorem Recorded.setConnection (h : Recorded m) {connection : Connection}
    (hnew : ∀ request, connection = .checking request (some false) →
      request.requestId ∈ m.seen ∨ outcomesOf m.journal request.requestId = []) :
    Recorded { m with connections := m.connections.set c connection } := by
  refine h.frame rfl rfl rfl rfl (fun hf => hf) rfl ?_
  intro c' request hget
  by_cases hc : c' = c
  · subst hc
    have hlen : c' < (m.connections.set c' connection).length := get_bound hget
    rw [List.length_set] at hlen
    rw [List.getElem?_set_self hlen] at hget
    exact hnew request (Option.some.inj hget)
  · rw [get_set_other hc] at hget
    exact h.checking c' request hget

theorem known_setReply (hget : m.replies[i]? = some reply) {phase : ReplyPhase} (h : m.Known id) :
    (m.setReply i reply phase).Known id := by
  obtain ⟨r, hr, hid⟩ := h
  obtain ⟨k, hk⟩ := List.mem_iff_getElem?.mp hr
  by_cases hki : k = i
  · subst hki
    obtain rfl := Option.some.inj (hget.symm.trans hk)
    exact ⟨_, List.mem_of_getElem? (get_set_self hget), hid⟩
  · exact ⟨r, List.mem_of_getElem? ((get_set_other hki).trans hk), hid⟩

theorem worked_setReply (hget : m.replies[i]? = some reply) {phase : ReplyPhase}
    (h : (m.setReply i reply phase).Worked id) : m.Worked id := by
  obtain ⟨r, hr, hid, hwork⟩ := h
  obtain hr | rfl := List.mem_or_eq_of_mem_set hr
  · exact ⟨r, hr, hid, hwork⟩
  · exact ⟨reply, List.mem_of_getElem? hget, hid, hwork⟩

theorem Recorded.setReply (h : Recorded m) (hget : m.replies[i]? = some reply) {phase : ReplyPhase}
    (hlaw : ReplyLaw m.writes m.jobs m.journalFailed { reply with phase := phase }) :
    Recorded (m.setReply i reply phase) := by
  refine ⟨h.keyed, ?_, h.jobs, ?_, ?_, ?_, ?_, h.checking⟩
  · exact fun write hwrite => known_setReply hget (h.owned write hwrite)
  · intro r hr
    obtain hr | rfl := List.mem_or_eq_of_mem_set hr
    · exact h.replies r hr
    · exact hlaw
  · exact fun write hwrite hwork => h.written write hwrite (worked_setReply hget hwork)
  · exact fun id hwork => h.unwritten id (worked_setReply hget hwork)
  · intro id response hs
    obtain ⟨hid, hstored⟩ := h.sent id response hs
    exact ⟨known_setReply hget hid, fun hwork => hstored (worked_setReply hget hwork)⟩

/-- Tasks go on without a new write. -/
theorem Recorded.replaceJobs (h : Recorded m) {jobs : List Job} (hkept : JobsKept m.jobs jobs)
    (hlaw : ∀ job ∈ jobs, JobLaw m.writes m.journalFailed job) : Recorded { m with jobs := jobs } :=
  ⟨h.keyed, h.owned, hlaw, fun reply hreply =>
    (h.replies reply hreply).advance (.refl _) hkept (fun hf => hf) nofun,
    h.written, h.unwritten, h.sent, h.checking⟩

theorem Recorded.setJob (h : Recorded m) (hget : m.jobs[j]? = some job) {new : Job} (hrequest : new.request = job.request)
    (hlaw : JobLaw m.writes m.journalFailed new) : Recorded { m with jobs := m.jobs.set j new } := by
  apply h.replaceJobs (.set hget hrequest)
  intro other hother
  obtain hother | rfl := List.mem_or_eq_of_mem_set hother
  · exact h.jobs other hother
  · exact hlaw

theorem JobLaw.congr {new : Job} (h : JobLaw writes failed job) (hrequest : new.request = job.request)
    (hphase : new.phase = job.phase) : JobLaw writes failed new := by
  unfold JobLaw Job.id at h ⊢
  rw [hphase, hrequest]
  exact h

theorem Recorded.cancelJobs (h : Recorded m) (tasks : List Nat) : Recorded (m.cancelJobs tasks) := by
  apply h.replaceJobs
  · intro j job hj
    obtain ⟨new, hnew, hrequest, -⟩ := @cancelJobs_of m j job tasks hj
    exact ⟨new, hnew, hrequest⟩
  · intro job hjob
    obtain ⟨old, hold, hrequest, hphase⟩ := cancelJobs_mem hjob
    exact (h.jobs old hold).congr hrequest hphase

/-- A write of no work is dropped, or a write that no thread waits for is left as it is. -/
theorem Recorded.cancelWrite (h : Recorded m) (ht : Tracked m)
    (hw : ∀ write, m.writes[w]? = some write → write.phase = .queued → ¬ m.Worked write.id) :
    Recorded (m.cancelWrite w) := by
  have hadvance := Advances.cancel m w
  apply h.advance ht hadvance ?_ (fun hf => hf) ?_ (fun _ _ => rfl)
  · intro k k' write write' hk hk' hkey
    obtain ⟨old, hold, houtcome, -⟩ := cancelWrite_get hk
    obtain ⟨old', hold', houtcome', -⟩ := cancelWrite_get hk'
    apply h.keyed k k' old old' hold hold'
    unfold Write.id at hkey ⊢
    rw [← houtcome, ← houtcome', hkey]
  · intro write hwrite hwork
    obtain ⟨k, hk⟩ := List.mem_iff_getElem?.mp hwrite
    obtain ⟨old, hold, houtcome, hphase | ⟨rfl, hqueued, -⟩⟩ := cancelWrite_get hk
    · have hold' : WriteLaw m.journal m.journalFailed old :=
        h.written old (List.mem_of_getElem? hold) (by rw [Write.id, ← houtcome]; exact hwork)
      unfold WriteLaw Write.id at hold' ⊢
      rw [hphase, houtcome]
      exact hold'
    · exact (hw old hold hqueued (by rw [Write.id, ← houtcome]; exact hwork)).elim

/-- The outcome of a task that has none yet is submitted. -/
theorem Recorded.submitJob (h : Recorded m) (ht : Tracked m) (hget : m.jobs[j]? = some job)
    (hunwritten : Unwritten m.writes job.id) {o : CommandOutcome} (ho : o.requestId = job.id) {new : Job}
    (hrequest : new.request = job.request)
    (hlaw : JobLaw (m.writes ++ [⟨o, .queued⟩]) m.journalFailed new) :
    Recorded { m.submitWrite o with jobs := m.jobs.set j new } := by
  have hmem := List.mem_of_getElem? hget
  have hadvance : Advances m.writes (m.writes ++ [⟨o, .queued⟩]) (some o.requestId) := .submit o
  refine ⟨?_, ?_, ?_, ?_, ?_, ?_, ?_, h.checking⟩
  · apply h.keyed.concat
    intro write hwrite hid
    exact hunwritten write hwrite (hid.trans ho)
  · intro write hwrite
    obtain hwrite | hwrite := List.mem_append.mp hwrite
    · exact h.owned write hwrite
    · obtain rfl := List.mem_singleton.mp hwrite
      obtain ⟨r, hr, hrequest, -⟩ := ht.replied job hmem
      exact ⟨r, hr, (congrArg ParticipantRequest.requestId hrequest).trans ho.symm⟩
  · intro other hother
    obtain ⟨k, hk⟩ := List.mem_iff_getElem?.mp hother
    obtain ⟨-, rfl⟩ | ⟨hkj, hk⟩ := get_set hget hk
    · exact hlaw
    · apply (h.jobs other (List.mem_of_getElem? hk)).advance hadvance (fun hf => hf)
      intro hid
      exact hkj (ht.jobs k j other job hk hget ((Option.some.inj hid).symm.trans ho))
  · intro r hr
    apply (h.replies r hr).advance hadvance (.set hget hrequest) (fun hf => hf)
    intro hid
    obtain ⟨hsame, hphase⟩ := ht.reply_of hmem hr ((Option.some.inj hid).symm.trans ho)
    exact ⟨hphase, by rw [hsame]; exact ht.works job hmem⟩
  · intro write hwrite hwork
    obtain hwrite | hwrite := List.mem_append.mp hwrite
    · exact h.written write hwrite hwork
    · obtain rfl := List.mem_singleton.mp hwrite
      have hid : Write.id ⟨o, .queued⟩ = job.id := ho
      show outcomesOf m.journal _ = []
      rw [hid]
      exact h.unwritten job.id (worked_job ht hmem) hunwritten
  · intro id hwork hid
    exact h.unwritten id hwork (fun write hwrite => hid write (List.mem_append_left _ hwrite))
  · intro id response hs
    obtain ⟨hid, hstored⟩ := h.sent id response hs
    exact ⟨hid, fun hwork => (hstored hwork).imp_right (fun hs => hs.advance hadvance)⟩

theorem Recorded.recordJob (h : Recorded m) (ht : Tracked m) (hget : m.jobs[j]? = some job)
    (hunwritten : Unwritten m.writes job.id) (response : ParticipantResult) (acquired : Bool) :
    Recorded (m.recordJob j job response acquired) :=
  h.submitJob ht hget hunwritten rfl rfl ⟨.queued, get_concat_last⟩

/-- A control command's outcome is submitted. -/
theorem Recorded.recordReply (h : Recorded m) (ht : Tracked m) (hget : m.replies[i]? = some reply)
    (hunwritten : Unwritten m.writes reply.id) (hcontrol : reply.request.command.isWork = false)
    (response : ParticipantResult) : Recorded (m.recordReply i reply response) := by
  have hmem := List.mem_of_getElem? hget
  have hadvance : Advances m.writes (m.writes ++ [⟨resultOutcome reply.id response, .queued⟩]) (some reply.id) :=
    .submit _
  have hnot : ¬ m.Worked reply.id := fun hwork => Bool.eq_false_iff.mp hcontrol (worked_reply ht hwork hmem)
  have hsubmitted : ∀ r ∈ m.replies, r.id ≠ reply.id →
      ReplyLaw (m.writes ++ [⟨resultOutcome reply.id response, .queued⟩]) m.jobs m.journalFailed r := by
    intro r hr hid
    exact (h.replies r hr).advance hadvance (.refl _) (fun hf => hf) (fun hs => (hid (Option.some.inj hs).symm).elim)
  have hback : ∀ id, (m.recordReply i reply response).Worked id → m.Worked id := fun id hwork => worked_setReply hget hwork
  have hstays : ∀ id, m.Known id → (m.recordReply i reply response).Known id := fun id hid => known_setReply hget hid
  refine ⟨?_, ?_, ?_, ?_, ?_, ?_, ?_, h.checking⟩
  · exact h.keyed.concat (fun write hwrite hid => hunwritten write hwrite hid)
  · intro write hwrite
    obtain hwrite | hwrite := List.mem_append.mp hwrite
    · exact hstays _ (h.owned write hwrite)
    · obtain rfl := List.mem_singleton.mp hwrite
      exact hstays _ ⟨reply, hmem, rfl⟩
  · intro job hjob
    apply (h.jobs job hjob).advance hadvance (fun hf => hf)
    intro hid
    exact hnot (Option.some.inj hid ▸ worked_job ht hjob)
  · intro r hr
    obtain ⟨k, hk⟩ := List.mem_iff_getElem?.mp hr
    obtain ⟨-, rfl⟩ | ⟨hki, hk⟩ := get_set hget hk
    · exact ⟨hcontrol, _, _, get_concat_last, rfl⟩
    · apply hsubmitted r (List.mem_of_getElem? hk)
      exact fun hid => hki (ht.replies k i r reply hk hget hid)
  · intro write hwrite hwork
    obtain hwrite | hwrite := List.mem_append.mp hwrite
    · exact h.written write hwrite (hback _ hwork)
    · obtain rfl := List.mem_singleton.mp hwrite
      exact (hnot (hback _ hwork)).elim
  · intro id hwork hid
    exact h.unwritten id (hback id hwork) (fun write hwrite => hid write (List.mem_append_left _ hwrite))
  · intro id response hs
    obtain ⟨hid, hstored⟩ := h.sent id response hs
    exact ⟨hstays id hid, fun hwork => (hstored (hback id hwork)).imp_right (fun hs => hs.advance hadvance)⟩

theorem Recorded.fresh (h : Recorded m) (ht : Tracked m) (hid : id ∉ m.seen) : Unwritten m.writes id := by
  intro write hwrite hsame
  obtain ⟨r, hr, hrid⟩ := h.owned write hwrite
  exact hid (hsame ▸ hrid ▸ ht.seen r hr)

theorem Recorded.admitRequest (h : Recorded m) (ht : Tracked m) (hfresh : request.requestId ∉ m.seen)
    (hclean : request.command.isWork = true → outcomesOf m.journal request.requestId = []) :
    Recorded (m.admitRequest c request) := by
  have hunwritten := h.fresh ht hfresh
  have hworked : ∀ id, (m.admitRequest c request).Worked id →
      m.Worked id ∨ (id = request.requestId ∧ request.command.isWork = true) := by
    intro id ⟨r, hr, hid, hwork⟩
    obtain hr | hr := List.mem_append.mp hr
    · exact .inl ⟨r, hr, hid, hwork⟩
    · obtain rfl := List.mem_singleton.mp hr
      exact .inr ⟨hid.symm, hwork⟩
  refine ⟨h.keyed, ?_, h.jobs, ?_, ?_, ?_, ?_, ?_⟩
  · intro write hwrite
    obtain ⟨r, hr, hid⟩ := h.owned write hwrite
    exact ⟨r, List.mem_append_left _ hr, hid⟩
  · intro r hr
    obtain hr | hr := List.mem_append.mp hr
    · exact h.replies r hr
    · obtain rfl := List.mem_singleton.mp hr
      exact hunwritten
  · intro write hwrite hwork
    obtain hwork | ⟨hid, -⟩ := hworked _ hwork
    · exact h.written write hwrite hwork
    · exact (hunwritten write hwrite hid).elim
  · intro id hwork hid
    obtain hwork | ⟨rfl, hcommand⟩ := hworked _ hwork
    · exact h.unwritten id hwork hid
    · exact hclean hcommand
  · intro id response hs
    obtain ⟨⟨r, hr, hid⟩, hstored⟩ := h.sent id response hs
    refine ⟨⟨r, List.mem_append_left _ hr, hid⟩, fun hwork => ?_⟩
    obtain hwork | ⟨hnew, -⟩ := hworked _ hwork
    · exact hstored hwork
    · exact (hfresh (hnew ▸ hid ▸ ht.seen r hr)).elim
  · intro c' other hget
    have hclosed := (h.setConnection (fun _ => nofun) : Recorded { m with connections := m.connections.set c .reading })
    obtain hseen | hnone := hclosed.checking c' other hget
    · exact .inl (List.mem_cons_of_mem _ hseen)
    · exact .inr hnone

theorem Recorded.startWork (h : Recorded m) (hget : m.replies[i]? = some reply)
    (hphase : reply.phase = .created) : Recorded (m.startWork i reply) := by
  have hmem := List.mem_of_getElem? hget
  have hunwritten : Unwritten m.writes reply.id := by
    have hlaw := h.replies reply hmem
    rw [ReplyLaw, hphase] at hlaw
    exact hlaw
  have hkept : JobsKept m.jobs (m.jobs ++ [⟨reply.request, false, .created⟩]) :=
    fun k job hk => ⟨job, get_concat_left hk, rfl⟩
  have hjobs : Recorded { m with jobs := m.jobs ++ [⟨reply.request, false, .created⟩] } := by
    apply h.replaceJobs hkept
    intro job hjob
    obtain hjob | hjob := List.mem_append.mp hjob
    · exact h.jobs job hjob
    · obtain rfl := List.mem_singleton.mp hjob
      exact hunwritten
  have hcreated : Recorded (m.createJob reply.request) :=
    hjobs.frame rfl rfl rfl rfl (fun hf => hf) rfl hjobs.checking
  exact hcreated.setReply hget ⟨_, get_concat_last, rfl⟩

theorem Recorded.endWrite {ending : WriteEnding} (h : Recorded m) (ht : Tracked m)
    (hok : m.endWrite w ending = some m') : Recorded m' := by
  obtain ⟨write, hget, hrunning, hcases⟩ := endWrite_some hok
  have hmem := List.mem_of_getElem? hget
  have hnew : ∀ phase, Keyed Write.id (m.writes.set w { write with phase := phase }) := fun phase => h.keyed.set hget rfl
  have hadvance := fun phase => Advances.setPhase hget (by rw [hrunning]; exact nofun) phase
  have hclean : m.Worked write.id → outcomesOf m.journal write.outcome.requestId = [] := by
    intro hwork
    have hlaw := h.written write hmem hwork
    rw [WriteLaw, hrunning] at hlaw
    exact hlaw
  -- every other write has another ID, so what the journal has for it stays
  have hothers : ∀ (journal : List CommandOutcome) (failed' : Bool) phase,
      (∀ id, id ≠ write.id → outcomesOf journal id = outcomesOf m.journal id) →
      (m.journalFailed = true → failed' = true) →
      (m.Worked write.id → WriteLaw journal failed' { write with phase := phase }) →
      Recorded { m with
        writes := m.writes.set w { write with phase := phase }, journal := journal, journalFailed := failed' } := by
    intro journal failed' phase hsame hfailed hown
    apply h.advance ht (hadvance phase) (hnew phase) hfailed
    · intro other hother hwork
      obtain ⟨k, hk⟩ := List.mem_iff_getElem?.mp hother
      obtain ⟨-, rfl⟩ | ⟨hkw, hk⟩ := get_set hget hk
      · exact hown hwork
      · have hid : other.id ≠ write.id := fun hid => hkw (h.keyed k w other write hk hget hid)
        exact (h.written other (List.mem_of_getElem? hk) hwork).other (hsame _ hid) hfailed
    · intro id hid
      exact hsame id (fun he => hid write hmem he.symm)
  obtain ⟨-, journal, hrecord, rfl⟩ | ⟨-, hconflict, rfl⟩ | ⟨e, committed, -, rfl⟩ := hcases
  · apply hothers journal m.journalFailed .stored
    · exact fun id hid => record_other hrecord hid.symm
    · exact fun hf => hf
    · intro hwork
      obtain ⟨hsome, hlast⟩ := record_fresh (hclean hwork)
      obtain rfl := Option.some.inj (hsome.symm.trans hrecord)
      exact hlast
  · apply hothers m.journal m.journalFailed (.failed differentResult) (fun _ _ => rfl) (fun hf => hf)
    intro hwork
    rw [(record_fresh (hclean hwork)).1] at hconflict
    cases hconflict
  · apply hothers _ true (.failed e)
    · intro id hid
      cases committed with
      | false => rfl
      | true =>
        cases hrecord : recordCommandResult m.journal write.outcome with
        | none => rfl
        | some journal => exact record_other hrecord hid.symm
    · exact fun _ => rfl
    · intro hwork
      refine ⟨rfl, ?_⟩
      obtain ⟨hsome, hlast⟩ := record_fresh (hclean hwork)
      have hnone : outcomesOf m.journal (Write.id { write with phase := .failed e }) = [] := hclean hwork
      cases committed with
      | false =>
        show (outcomesOf m.journal _).length ≤ 1
        rw [hnone]
        exact Nat.zero_le 1
      | true =>
        rw [hsome]
        show (outcomesOf (m.journal ++ [write.outcome]) write.outcome.requestId).length ≤ 1
        rw [hlast]
        exact Nat.le_refl 1

theorem Recorded.replyRaises (h : Recorded m) (hget : m.replies[i]? = some reply) (e : Raised)
    (he : e.kind = .cancelled ∨ (reply.request.command.isWork = true → m.journalFailed = true)) :
    Recorded (m.replyRaises i reply e) := by
  unfold Server.replyRaises
  have hfailed : Recorded { m with failure := some e } := h.frame rfl rfl rfl rfl (fun hf => hf) rfl h.checking
  have hsending : e.kind ≠ .cancelled → Recorded ({ m with failure := some e }.setReply i reply
      (.sending (participantFailure e.message))) := by
    intro hkind
    exact hfailed.setReply hget (fun hwork => .inl ((he.resolve_left hkind) hwork))
  split
  · exact h.setReply hget trivial
  · exact h.setReply hget trivial
  · exact h.setReply hget trivial
  · next hkind => exact hsending (by rw [hkind]; exact nofun)
  · next hkind => exact hsending (by rw [hkind]; exact nofun)

theorem Recorded.cancelReply (h : Recorded m) (ht : Tracked m) (i : Nat) : Recorded (m.cancelReply i) := by
  unfold Server.cancelReply
  split
  · exact h
  · next reply hget =>
    split
    · exact h
    · exact (h.cancelJobs _).setReply hget trivial
    · next response w hphase =>
      have hmem := List.mem_of_getElem? hget
      have hlaw := h.replies reply hmem
      rw [ReplyLaw, hphase] at hlaw
      obtain ⟨hcontrol, o, phase, hw, hid⟩ := hlaw
      have hcancelled : Recorded (m.cancelWrite w) := by
        apply h.cancelWrite ht
        intro write hwrite _ hwork
        obtain rfl := Option.some.inj (hw.symm.trans hwrite)
        have hwork : m.Worked reply.id := hid ▸ hwork
        exact Bool.eq_false_iff.mp hcontrol (worked_reply ht hwork hmem)
      exact hcancelled.setReply hget trivial
    all_goals exact h.setReply hget trivial

theorem Recorded.closeConnection (h : Recorded m) (ht : Tracked m) (c : Nat) :
    Recorded (m.closeConnection c) ∧ Tracked (m.closeConnection c) := by
  have hclosed : Recorded { m with connections := m.connections.set c .closed } := h.setConnection (fun _ => nofun)
  have htracked : Tracked { m with connections := m.connections.set c .closed } := ht.frame rfl rfl rfl rfl
  exact List.foldlRecOn (motive := fun n => Recorded n ∧ Tracked n) _ _ ⟨hclosed, htracked⟩
    (fun _ hm i _ => ⟨hm.1.cancelReply hm.2 i, hm.2.cancelReply i⟩)

theorem Recorded.leave (h : Recorded m) (id : String) (acquired : Bool) : Recorded (m.leave id acquired) :=
  h.frame rfl rfl rfl rfl (fun hf => hf) rfl h.checking

theorem Recorded.jobFails (h : Recorded m) (hget : m.jobs[j]? = some job) (e : Raised) (acquired : Bool)
    (he : m.journalFailed = true ∨ e.kind = .cancelled ∧ ∃ write ∈ m.writes, write.id = job.id) :
    Recorded (m.jobFails j job e acquired) := by
  have hfailed : Recorded { m with failure := some e } := h.frame rfl rfl rfl rfl (fun hf => hf) rfl h.checking
  have hset : Recorded ({ m with failure := some e }.setJob j job (.raised e)) := by
    refine hfailed.setJob hget rfl ?_
    exact he
  exact hset.leave _ _

theorem Recorded.jobRaises (h : Recorded m) (ht : Tracked m) (hget : m.jobs[j]? = some job)
    (hunwritten : Unwritten m.writes job.id) (e : Raised) : Recorded (m.jobRaises j job e) := by
  unfold Server.jobRaises
  split
  · exact h.recordJob ht hget hunwritten _ _
  · exact h.recordJob ht hget hunwritten _ _
  · have hfailed : Recorded { m with journalFailed := true } :=
      h.frame rfl rfl rfl rfl (fun _ => rfl) rfl h.checking
    exact hfailed.jobFails hget e true (.inl rfl)
  · exact h.recordJob ht hget hunwritten _ _
  · exact h.recordJob ht hget hunwritten _ _

theorem Recorded.holdLock (h : Recorded m) (ht : Tracked m) (hget : m.jobs[j]? = some job)
    (hunwritten : Unwritten m.writes job.id) : Recorded (m.holdLock j job) := by
  have hheld : Recorded { m with locked := true, current := some job.request.requestId } :=
    h.frame rfl rfl rfl rfl (fun hf => hf) rfl h.checking
  have htracked : Tracked { m with locked := true, current := some job.request.requestId } := ht.frame rfl rfl rfl rfl
  unfold Server.holdLock
  split
  · exact hheld.recordJob htracked hget hunwritten _ _
  · exact hheld.setJob hget rfl hunwritten

/-- No audit has a write that waits for a thread. -/
def Audited (m : Server) : Prop := ∀ job ∈ m.jobs, ∀ w, job.phase = .auditing w → m.writePhase w ≠ some .queued

theorem cancelWrite_phase {w' : Nat} (h : m.writePhase w' ≠ some .queued) : (m.cancelWrite w).writePhase w' ≠ some .queued := by
  intro hqueued
  obtain ⟨write, hwrite, hphase⟩ := Option.map_eq_some_iff.mp hqueued
  obtain ⟨old, hold, -, hsame | ⟨-, -, hdropped⟩⟩ := cancelWrite_get hwrite
  · exact h (Option.map_eq_some_iff.mpr ⟨old, hold, hsame.symm.trans hphase⟩)
  · rw [hdropped] at hphase
    cases hphase

theorem Audited.cancelJobs (h : m.Audited) (tasks : List Nat) : (m.cancelJobs tasks).Audited := by
  intro job hjob w hphase
  obtain ⟨old, hold, -, hsame⟩ := cancelJobs_mem hjob
  exact h old hold w (hsame.symm.trans hphase)

theorem Audited.cancelReply (h : m.Audited) (i : Nat) : (m.cancelReply i).Audited := by
  unfold Server.cancelReply
  split
  · exact h
  · next reply hget =>
    split
    · exact h
    · exact h.cancelJobs _
    · exact fun job hjob w hphase => cancelWrite_phase (h job hjob w hphase)
    all_goals exact h

theorem Audited.closeConnection (h : m.Audited) (c : Nat) : (m.closeConnection c).Audited := by
  have hclosed : Audited { m with connections := m.connections.set c .closed } := h
  exact List.foldlRecOn (motive := Audited) _ _ hclosed (fun _ hm i _ => hm.cancelReply i)

theorem Audited.cancelAudit (h : m.Audited) (j : Nat) : (m.cancelAudit j).Audited := by
  unfold Server.cancelAudit
  split
  · intro job hjob w hphase
    obtain hjob | rfl := List.mem_or_eq_of_mem_set hjob
    · exact cancelWrite_phase (h job hjob w hphase)
    · cases hphase
  · exact h

theorem Recorded.cancelAudit (h : Recorded m) (ht : Tracked m) (ha : m.Audited) (j : Nat) : Recorded (m.cancelAudit j) := by
  unfold Server.cancelAudit
  split
  · next request interrupted w hget =>
    have hmem := List.mem_of_getElem? hget
    obtain ⟨o, phase, hw, hid⟩ : ∃ o phase, m.writes[w]? = some ⟨o, phase⟩ ∧ o.requestId = request.requestId :=
      h.jobs _ hmem
    have hcancelled : Recorded (m.cancelWrite w) := by
      apply h.cancelWrite ht
      intro write hwrite hqueued
      exact (ha _ hmem w rfl (Option.map_eq_some_iff.mpr ⟨write, hwrite, hqueued⟩)).elim
    have hfailed : Recorded { m.cancelWrite w with failure := some cancelledError } :=
      hcancelled.frame rfl rfl rfl rfl (fun hf => hf) rfl hcancelled.checking
    have hwritten : ∃ write ∈ (m.cancelWrite w).writes, write.id = request.requestId :=
      written_advance ⟨_, List.mem_of_getElem? hw, hid⟩ (.cancel m w)
    have hset : Recorded ({ m.cancelWrite w with failure := some cancelledError }.setJob j
        ⟨request, interrupted, .auditing w⟩ .audited) := by
      refine hfailed.setJob hget rfl ?_
      exact hwritten
    exact hset.leave _ _
  · exact h

theorem Recorded.close (h : Recorded m) (ht : Tracked m) (ha : m.Audited) : Recorded m.close := by
  have hstopped : Recorded { m with stopping := true } := h.frame rfl rfl rfl rfl (fun hf => hf) rfl h.checking
  have htracked : Tracked { m with stopping := true } := ht.frame rfl rfl rfl rfl
  have haudited : Audited { m with stopping := true } := ha
  have hclosed := List.foldlRecOn (motive := fun n => (Recorded n ∧ Tracked n) ∧ Audited n)
    (List.range m.connections.length) Server.closeConnection
    ⟨⟨hstopped.cancelJobs (m.tasksOf none), htracked.cancelJobs (m.tasksOf none)⟩, haudited.cancelJobs (m.tasksOf none)⟩
    (fun _ hm c _ => ⟨hm.1.1.closeConnection hm.1.2 c, hm.2.closeConnection c⟩)
  have hall := List.foldlRecOn (motive := fun n => (Recorded n ∧ Tracked n) ∧ Audited n)
    (List.range m.jobs.length) Server.cancelAudit hclosed
    (fun _ hm j _ => ⟨⟨hm.1.1.cancelAudit hm.1.2 hm.2 j, hm.1.2.cancelAudit j⟩, hm.2.cancelAudit j⟩)
  exact hall.1.1

theorem Recorded.step {action : Action} (h : Recorded m) (ht : Tracked m) (hseparate : m.Separate action)
    (hkept : m.Kept action) (hok : m.step action = some m') : Recorded m' := by
  cases action with
  | runnerRecords | stop =>
    obtain rfl := Option.some.inj hok
    exact h.frame rfl rfl rfl rfl (fun hf => hf) rfl h.checking
  | connect =>
    obtain rfl := Option.some.inj hok
    refine h.frame rfl rfl rfl rfl (fun hf => hf) rfl ?_
    intro c request hget
    obtain hget | ⟨-, hnew⟩ := get_concat hget
    · exact h.checking c request hget
    · cases hnew
  | receive c request =>
    obtain ⟨-, ⟨-, rfl⟩ | ⟨-, -, rfl⟩ | ⟨hfresh, hcontrol, rfl⟩⟩ := receiveFrame_some hok
    · exact (h.closeConnection ht c).1
    · exact h.setConnection (fun _ => nofun)
    · exact h.admitRequest ht hfresh (fun hwork => absurd hwork (Bool.eq_false_iff.mp hcontrol))
  | lookup c =>
    obtain ⟨request, -, rfl⟩ := lookupResult_some hok
    apply h.setConnection
    intro other hother
    obtain ⟨rfl, hfound⟩ := Connection.checking.inj hother
    have hnone : m.hasResult request.requestId = false := Option.some.inj hfound
    obtain ⟨hany, -⟩ := Bool.or_eq_false_iff.mp hnone
    refine .inr (List.filter_eq_nil_iff.mpr ?_)
    intro o ho
    exact Bool.not_eq_true _ ▸ List.any_eq_false.mp hany o ho
  | lookupFails c message =>
    obtain rfl := lookupFails_some hok
    have hfailed : Recorded { m with failure := some ⟨.logging, message⟩, journalFailed := true } :=
      h.frame rfl rfl rfl rfl (fun _ => rfl) rfl h.checking
    have htracked : Tracked { m with failure := some ⟨.logging, message⟩, journalFailed := true } :=
      ht.frame rfl rfl rfl rfl
    exact (hfailed.closeConnection htracked c).1
  | resume c =>
    obtain ⟨request, ⟨-, rfl⟩ | ⟨hget, rfl⟩⟩ := resumeConnection_some hok
    · exact (h.closeConnection ht c).1
    · have hfresh := hseparate request hget
      exact h.admitRequest ht hfresh (fun _ => (h.checking c request hget).resolve_left hfresh)
  | disconnect c =>
    obtain rfl := disconnect_some hok
    exact (h.closeConnection ht c).1
  | reply i =>
    obtain ⟨reply, hget, hphase, hcases⟩ := startReply_some hok
    have hunwritten : Unwritten m.writes reply.id := by
      have hlaw := h.replies reply (List.mem_of_getElem? hget)
      rw [ReplyLaw, hphase] at hlaw
      exact hlaw
    obtain ⟨-, rfl⟩ | ⟨hcontrol, ⟨phase, hnew, hm⟩ | ⟨id, -, -, rfl⟩⟩ := hcases
    · exact h.startWork hget hphase
    · have hlaw : ReplyLaw m.writes m.jobs m.journalFailed { reply with phase := phase } := by
        obtain rfl | ⟨response, rfl⟩ := hnew
        · exact ⟨hunwritten, hcontrol⟩
        · exact fun hwork => absurd hwork (Bool.eq_false_iff.mp hcontrol)
      obtain rfl | rfl := hm
      · exact h.setReply hget hlaw
      · have hstopped : Recorded { m with stopping := true } := h.frame rfl rfl rfl rfl (fun hf => hf) rfl h.checking
        exact hstopped.setReply hget hlaw
    · exact h.replyRaises hget _ (.inr (fun hwork => absurd hwork (Bool.eq_false_iff.mp hcontrol)))
  | answer i result =>
    obtain ⟨reply, hget, hphase, hcases⟩ := answerReply_some hok
    obtain ⟨hunwritten, hcontrol⟩ : Unwritten m.writes reply.id ∧ reply.request.command.isWork = false := by
      have hlaw := h.replies reply (List.mem_of_getElem? hget)
      rw [ReplyLaw, hphase] at hlaw
      exact hlaw
    have hnot : ¬ reply.request.command.isWork = true := Bool.eq_false_iff.mp hcontrol
    obtain ⟨e, -, rfl⟩ | ⟨response, -, ⟨tasks, rfl⟩ | rfl | rfl⟩ := hcases
    · exact h.replyRaises hget e (.inr (fun hwork => absurd hwork hnot))
    · exact (h.cancelJobs tasks).setReply hget ⟨hunwritten, hcontrol⟩
    · exact h.recordReply ht hget hunwritten hcontrol response
    · exact h.setReply hget (fun hwork => absurd hwork hnot)
  | gathered i =>
    obtain ⟨reply, tasks, response, hget, hphase, rfl⟩ := gathered_some hok
    have hlaw := h.replies reply (List.mem_of_getElem? hget)
    rw [ReplyLaw, hphase] at hlaw
    exact h.recordReply ht hget hlaw.1 hlaw.2 response
  | recorded i =>
    obtain ⟨reply, response, w, hget, hphase, hcases⟩ := replyRecorded_some hok
    have hlaw := h.replies reply (List.mem_of_getElem? hget)
    rw [ReplyLaw, hphase] at hlaw
    have hnot : ¬ reply.request.command.isWork = true := Bool.eq_false_iff.mp hlaw.1
    obtain ⟨-, rfl⟩ | ⟨e, -, rfl⟩ := hcases
    · exact h.setReply hget (fun hwork => absurd hwork hnot)
    · exact h.replyRaises hget e (.inr (fun hwork => absurd hwork hnot))
  | awaited i =>
    obtain ⟨reply, j, job, hget, hphase, hjob, hcases⟩ := awaited_some hok
    have hlaw := h.replies reply (List.mem_of_getElem? hget)
    rw [ReplyLaw, hphase] at hlaw
    obtain ⟨own, hown, hrequest⟩ := hlaw
    obtain rfl := Option.some.inj (hjob.symm.trans hown)
    have hjoblaw := h.jobs job (List.mem_of_getElem? hjob)
    obtain ⟨response, hdone, rfl⟩ | ⟨e, hdone, rfl⟩ | rfl := hcases
    · rw [JobLaw, hdone] at hjoblaw
      have hid : job.id = reply.id := congrArg ParticipantRequest.requestId hrequest
      exact h.setReply hget (fun _ => .inr (hid ▸ hjoblaw))
    · rw [JobLaw, hdone] at hjoblaw
      obtain hfailed | ⟨hkind, -⟩ := hjoblaw
      · exact h.replyRaises hget e (.inr (fun _ => hfailed))
      · exact h.replyRaises hget e (.inl hkind)
    · exact h.setReply hget trivial
  | send i delivered =>
    obtain ⟨reply, response, hget, hphase, rfl | rfl⟩ := sendReply_some hok
    · exact h.setReply hget trivial
    · have hmem := List.mem_of_getElem? hget
      have hlaw := h.replies reply hmem
      rw [ReplyLaw, hphase] at hlaw
      have hsent : Recorded { m with sent := m.sent ++ [(reply.request.requestId, response)] } := by
        refine ⟨h.keyed, h.owned, h.jobs, h.replies, h.written, h.unwritten, ?_, h.checking⟩
        intro id other hs
        obtain hs | hs := List.mem_append.mp hs
        · exact h.sent id other hs
        · obtain ⟨rfl, rfl⟩ := Prod.mk.inj (List.mem_singleton.mp hs)
          exact ⟨⟨reply, hmem, rfl⟩, fun hwork => hlaw (worked_reply ht hwork hmem)⟩
      exact hsent.setReply hget trivial
  | begin j =>
    obtain ⟨job, hget, hphase, hcases⟩ := beginJob_some hok
    have hmem := List.mem_of_getElem? hget
    have hunwritten : Unwritten m.writes job.id := by
      have hlaw := h.jobs job hmem
      rw [JobLaw, hphase] at hlaw
      exact hlaw
    obtain ⟨-, -, rfl⟩ | ⟨-, hmissing, rfl⟩ | ⟨response, -, rfl⟩ | ⟨-, rfl⟩ := hcases
    · exact h.submitJob ht hget hunwritten rfl rfl ⟨_, _, get_concat_last, rfl⟩
    · exact (hmissing (ht.requests job hmem (by rw [hphase]; rfl))).elim
    · exact h.recordJob ht hget hunwritten _ _
    · exact h.setJob hget rfl hunwritten
  | acquire j =>
    obtain ⟨job, hget, hphase, -, hcases⟩ := acquireLock_some hok
    have hunwritten : Unwritten m.writes job.id := by
      have hlaw := h.jobs job (List.mem_of_getElem? hget)
      rw [JobLaw, hphase] at hlaw
      exact hlaw
    obtain ⟨-, rfl⟩ | ⟨-, -, rfl⟩ := hcases
    · have hset : Recorded { m with jobs := m.jobs.set j { job with phase := .granted } } := by
        refine h.setJob hget rfl ?_
        exact hunwritten
      exact hset.frame rfl rfl rfl rfl (fun hf => hf) rfl hset.checking
    · exact h.holdLock ht hget hunwritten
  | granted j =>
    obtain ⟨job, hget, hphase, hcases⟩ := resumeGranted_some hok
    have hlaw := h.jobs job (List.mem_of_getElem? hget)
    rw [JobLaw, hphase] at hlaw
    obtain ⟨-, rfl⟩ | ⟨-, rfl⟩ := hcases
    · exact h.recordJob ht hget hlaw _ _
    · exact h.holdLock ht hget hlaw
  | expire j =>
    obtain ⟨job, hget, hphase, rfl⟩ := expireQueued_some hok
    have hlaw := h.jobs job (List.mem_of_getElem? hget)
    rw [JobLaw, hphase] at hlaw
    exact h.recordJob ht hget hlaw _ _
  | unqueue j =>
    obtain ⟨job, hget, hphase, rfl⟩ := cancelQueued_some hok
    have hlaw := h.jobs job (List.mem_of_getElem? hget)
    rw [JobLaw, hphase] at hlaw
    exact h.recordJob ht hget hlaw _ _
  | started j error =>
    obtain ⟨job, hget, hphase, hcases⟩ := callStarted_some hok
    have hunwritten : Unwritten m.writes job.id := by
      have hlaw := h.jobs job (List.mem_of_getElem? hget)
      rw [JobLaw, hphase] at hlaw
      exact hlaw
    obtain rfl | ⟨e, -, rfl⟩ | ⟨-, rfl⟩ := hcases
    · exact h.recordJob ht hget hunwritten _ _
    · exact h.jobRaises ht hget hunwritten e
    · have hset : Recorded (m.setJob j job .handling) := by
        refine h.setJob hget rfl ?_
        exact hunwritten
      exact hset.frame rfl rfl rfl rfl (fun hf => hf) rfl hset.checking
  | handled j result =>
    obtain ⟨job, hget, hphase, hcases⟩ := handlerEnds_some hok
    have hlaw := h.jobs job (List.mem_of_getElem? hget)
    rw [JobLaw, hphase] at hlaw
    obtain ⟨response, rfl⟩ | ⟨e, -, rfl⟩ := hcases
    · exact h.recordJob ht hget hlaw _ _
    · exact h.jobRaises ht hget hlaw e
  | finish j =>
    obtain ⟨job, response, acquired, w, hget, hphase, hcases⟩ := finishJob_some hok
    have hmem := List.mem_of_getElem? hget
    have hlaw := h.jobs job hmem
    rw [JobLaw, hphase] at hlaw
    obtain ⟨phase, hw⟩ := hlaw
    obtain ⟨hinterrupted, rfl⟩ | ⟨hstored, rfl⟩ | ⟨e, hfailed, rfl⟩ := hcases
    · have hcancelled : Recorded (m.cancelWrite w) := by
        apply h.cancelWrite ht
        intro write hwrite hqueued
        have hnot := hkept job response acquired w hget hinterrupted hphase
        exact (hnot (Option.map_eq_some_iff.mpr ⟨write, hwrite, hqueued⟩)).elim
      apply hcancelled.jobFails hget
      exact .inr ⟨rfl, written_advance ⟨_, List.mem_of_getElem? hw, rfl⟩ (.cancel m w)⟩
    · obtain ⟨write, hwrite, hphase⟩ := Option.map_eq_some_iff.mp hstored
      obtain rfl := Option.some.inj (hw.symm.trans hwrite)
      obtain rfl := hphase
      have hset : Recorded (m.setJob j job (.finished response)) := by
        refine h.setJob hget rfl ?_
        exact ⟨w, hw⟩
      exact hset.leave _ _
    · obtain ⟨write, hwrite, hphase⟩ := Option.map_eq_some_iff.mp hfailed
      obtain rfl := Option.some.inj (hw.symm.trans hwrite)
      have hwritelaw := h.written _ (List.mem_of_getElem? hw) (worked_job ht hmem)
      rw [WriteLaw, hphase] at hwritelaw
      exact h.jobFails hget e acquired (.inl hwritelaw.1)
  | audited j =>
    obtain ⟨job, w, hget, hphase, hcases⟩ := auditJob_some hok
    have hlaw := h.jobs job (List.mem_of_getElem? hget)
    rw [JobLaw, hphase] at hlaw
    obtain ⟨o, phase, hw, hid⟩ := hlaw
    have hwritten : ∃ write ∈ m.writes, write.id = job.id := ⟨_, List.mem_of_getElem? hw, hid⟩
    have hset : Recorded (m.setJob j job .audited) := by
      refine h.setJob hget rfl ?_
      exact hwritten
    obtain ⟨-, rfl⟩ | ⟨e, -, rfl⟩ := hcases
    · exact hset.leave _ _
    · have hfailed : Recorded ({ m with failure := some e }.setJob j job .audited) :=
        hset.frame rfl rfl rfl rfl (fun hf => hf) rfl hset.checking
      exact hfailed.leave _ _
  | beginWrite w =>
    obtain ⟨write, hget, hqueued, rfl⟩ := beginWrite_some hok
    have hadvance : Advances m.writes (m.writes.set w { write with phase := .running }) none :=
      .setPhase hget (by rw [hqueued]; exact nofun) _
    have hkeyed : Keyed Write.id (m.writes.set w { write with phase := .running }) := h.keyed.set hget rfl
    apply h.advance ht hadvance hkeyed (fun hf => hf) ?_ (fun _ _ => rfl)
    intro other hother hwork
    obtain hother | rfl := List.mem_or_eq_of_mem_set hother
    · exact h.written other hother hwork
    · have hlaw := h.written write (List.mem_of_getElem? hget) hwork
      rw [WriteLaw, hqueued] at hlaw
      exact hlaw
  | endWrite w ending => exact h.endWrite ht hok
  | close =>
    obtain rfl := Option.some.inj hok
    exact h.close ht hkept

end Server

end ModularPipelines.Participants
