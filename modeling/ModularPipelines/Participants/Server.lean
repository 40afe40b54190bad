import ModularPipelines.Library.Dict
import ModularPipelines.Library.Indexed
import ModularPipelines.Library.JsonText

namespace ModularPipelines.Participants
open Library

inductive RaisedKind where
  | cancelled
  | timeout
  | os
  | logging
  | other
  deriving DecidableEq, Repr

/-- An exception; `os` leaves out the timeouts. -/
structure Raised where
  kind : RaisedKind
  message : String
  deriving DecidableEq, Repr

def cancelledError : Raised := ⟨.cancelled, ""⟩

structure ParticipantResult where
  success : Bool
  data : Json
  error : Option Json
  execution : Option Json
  deriving DecidableEq

def failWith (data : List (String × Json)) : ParticipantResult := ⟨false, .obj data, none, none⟩

def queueTimeout : ParticipantResult := failWith [("reason", .str "queue_timeout")]

def interruptedResult : ParticipantResult := failWith [("reason", .str "interrupted")]

def cancelledBeforeStart : ParticipantResult := failWith [("reason", .str "cancelled_before_start")]

def commandFailed (message : String) : ParticipantResult :=
  failWith [("code", .str "command_failed"), ("message", .str message)]

def participantFailure (message : String) : ParticipantResult :=
  failWith [("error", .str message), ("code", .str "participant_failure")]

/-- The commands of a runner's connection; only the last kind is work. -/
inductive Command where
  | heartbeat
  | commandState
  | interrupt (target : Option String)
  | shutdown (target : Option String)
  | work (name : String)
  deriving DecidableEq, Repr

def Command.isWork : Command → Bool
  | .work _ => true
  | _ => false

/-- A request of an authenticated runner; `bounded` says that it has a deadline. -/
structure ParticipantRequest where
  requestId : String
  command : Command
  bounded : Bool
  deriving DecidableEq, Repr

/-- A connection reads a frame, or waits for the journal's answer about one. -/
inductive Connection where
  | reading
  | checking (request : ParticipantRequest) (found : Option Bool)
  | closed
  deriving DecidableEq, Repr

inductive ReplyPhase where
  | created
  | answering
  | gathering (tasks : List Nat) (response : ParticipantResult)
  | recording (response : ParticipantResult) (write : Nat)
  | awaiting (job : Nat)
  | sending (response : ParticipantResult)
  | ended
  deriving DecidableEq

structure Reply where
  connection : Nat
  request : ParticipantRequest
  phase : ReplyPhase
  deriving DecidableEq

/-- The task of one working request. A bounded one waits for the lock in a helper task, so the
lock can be `granted` before the task has seen it. -/
inductive JobPhase where
  | created
  | queued
  | granted
  | starting
  | handling
  | recording (response : ParticipantResult) (acquired : Bool) (write : Nat)
  | finished (response : ParticipantResult)
  | raised (error : Raised)
  | auditing (write : Nat)
  | audited
  deriving DecidableEq

/-- The task is done; an audit is a task of its own. -/
def JobPhase.done : JobPhase → Bool
  | .finished _ | .raised _ | .auditing _ | .audited => true
  | _ => false

/-- `interrupted` is a cancellation that the task has not seen yet. -/
structure Job where
  request : ParticipantRequest
  interrupted : Bool
  phase : JobPhase
  deriving DecidableEq

def Job.cancel (job : Job) : Job := if job.phase.done then job else { job with interrupted := true }

structure CommandOutcome where
  requestId : String
  outcome : String
  response : ParticipantResult
  deriving DecidableEq

/-- A write in the thread pool; before a thread takes it, its cancellation drops it. -/
inductive WritePhase where
  | queued
  | running
  | stored
  | failed (error : Raised)
  | dropped
  deriving DecidableEq

structure Write where
  outcome : CommandOutcome
  phase : WritePhase
  deriving DecidableEq

def Write.cancel (write : Write) : Write :=
  if write.phase = .queued then { write with phase := .dropped } else write

/-- `record_command_result`: an author reports one result for a request. -/
def recordCommandResult (journal : List CommandOutcome) (o : CommandOutcome) : Option (List CommandOutcome) :=
  match journal.find? (fun e => e.requestId == o.requestId) with
  | some earlier => if earlier.outcome = o.outcome ∧ earlier.response = o.response then some journal else none
  | none => some (journal ++ [o])

def differentResult : Raised := ⟨.other, "This author already reported a different result."⟩

def resultOutcome (requestId : String) (response : ParticipantResult) : CommandOutcome :=
  ⟨requestId, if response.success then "succeeded" else "failed", response⟩

/-- One participant server; `handed`, `sent` and `journalFailed` only watch it. -/
structure Server where
  seen : List String
  connections : List Connection
  replies : List Reply
  jobs : List Job
  work : Dict Nat
  requests : List String
  current : Option String
  locked : Bool
  writes : List Write
  journal : List CommandOutcome
  runnerResults : List String
  failure : Option Raised
  stopping : Bool
  handed : List String
  sent : List (String × ParticipantResult)
  journalFailed : Bool

namespace Server

def start (journal : List CommandOutcome) (runnerResults : List String) : Server where
  seen := []
  connections := []
  replies := []
  jobs := []
  work := .empty
  requests := []
  current := none
  locked := false
  writes := []
  journal := journal
  runnerResults := runnerResults
  failure := none
  stopping := false
  handed := []
  sent := []
  journalFailed := false

def setReply (m : Server) (i : Nat) (reply : Reply) (phase : ReplyPhase) : Server :=
  { m with replies := m.replies.set i { reply with phase := phase } }

def setJob (m : Server) (j : Nat) (job : Job) (phase : JobPhase) : Server :=
  { m with jobs := m.jobs.set j { job with interrupted := false, phase := phase } }

def submitWrite (m : Server) (o : CommandOutcome) : Server := { m with writes := m.writes ++ [⟨o, .queued⟩] }

def cancelWrite (m : Server) (w : Nat) : Server := { m with writes := m.writes.modify w Write.cancel }

def cancelJobs (m : Server) (tasks : List Nat) : Server :=
  { m with jobs := m.jobs.mapIdx (fun j job => if j ∈ tasks then job.cancel else job) }

/-- A cancelled reply cancels what it gathers; the task of its work is shielded. -/
def cancelReply (m : Server) (i : Nat) : Server :=
  match m.replies[i]? with
  | none => m
  | some reply =>
    match reply.phase with
    | .ended => m
    | .gathering tasks _ => (m.cancelJobs tasks).setReply i reply .ended
    | .recording _ write => (m.cancelWrite write).setReply i reply .ended
    | .created | .answering | .awaiting _ | .sending _ => m.setReply i reply .ended

def repliesOf (m : Server) (c : Nat) : List Nat :=
  (List.range m.replies.length).filter (fun i => m.replies[i]?.map Reply.connection == some c)

def closeConnection (m : Server) (c : Nat) : Server :=
  (m.repliesOf c).foldl cancelReply { m with connections := m.connections.set c .closed }

def admitRequest (m : Server) (c : Nat) (request : ParticipantRequest) : Server :=
  { m with
    seen := request.requestId :: m.seen
    connections := m.connections.set c .reading
    replies := m.replies ++ [⟨c, request, .created⟩] }

/-- A frame of `_handle_client`; control commands are admitted without a look at the journal. -/
def receiveFrame (m : Server) (c : Nat) (request : ParticipantRequest) : Option Server :=
  if m.connections[c]? = some .reading then
    if request.requestId ∈ m.seen then some (m.closeConnection c)
    else if request.command.isWork then
      some { m with connections := m.connections.set c (.checking request none) }
    else some (m.admitRequest c request)
  else none

def hasResult (m : Server) (requestId : String) : Bool :=
  m.journal.any (fun o => o.requestId == requestId) || m.runnerResults.contains requestId

/-- The journal answers in a thread; the connection goes on later. -/
def lookupResult (m : Server) (c : Nat) : Option Server :=
  match m.connections[c]? with
  | some (.checking request none) =>
    some { m with connections := m.connections.set c (.checking request (some (m.hasResult request.requestId))) }
  | _ => none

def lookupFails (m : Server) (c : Nat) (message : String) : Option Server :=
  match m.connections[c]? with
  | some (.checking _ none) =>
    some ({ m with failure := some ⟨.logging, message⟩, journalFailed := true }.closeConnection c)
  | _ => none

/-- The seen IDs were compared before the journal was asked, and are not compared again. -/
def resumeConnection (m : Server) (c : Nat) : Option Server :=
  match m.connections[c]? with
  | some (.checking request (some found)) =>
    some (if found then m.closeConnection c else m.admitRequest c request)
  | _ => none

def disconnect (m : Server) (c : Nat) : Option Server :=
  match m.connections[c]? with
  | some .reading | some (.checking _ _) => some (m.closeConnection c)
  | _ => none

/-- The last part of `_reply`: what becomes of an exception. -/
def replyRaises (m : Server) (i : Nat) (reply : Reply) (error : Raised) : Server :=
  match error.kind with
  | .cancelled | .timeout | .os => m.setReply i reply .ended
  | .logging | .other =>
    { m with failure := some error }.setReply i reply (.sending (participantFailure error.message))

/-- `_start_work` -/
def createJob (m : Server) (request : ParticipantRequest) : Server :=
  { m with
    requests := request.requestId :: m.requests
    jobs := m.jobs ++ [⟨request, false, .created⟩]
    work := m.work.set request.requestId m.jobs.length }

def startWork (m : Server) (i : Nat) (reply : Reply) : Server :=
  (m.createJob reply.request).setReply i reply (.awaiting m.jobs.length)

def heartbeatFailure (m : Server) : ParticipantResult :=
  failWith [("error", .str ((m.failure.map Raised.message).getD "stopping"))]

/-- The first part of `_reply`, up to its first wait. -/
def startReply (m : Server) (i : Nat) : Option Server :=
  match m.replies[i]? with
  | none => none
  | some reply =>
    if reply.phase = .created then
      match reply.request.command with
      | .work _ => some (m.startWork i reply)
      | .heartbeat =>
        some (m.setReply i reply (if m.failure.isSome || m.stopping then .sending m.heartbeatFailure else .answering))
      | .commandState =>
        match m.current.filter (fun id => !m.requests.contains id) with
        | some id => some (m.replyRaises i reply ⟨.other, "'" ++ id ++ "'"⟩)
        | none => some (m.setReply i reply .answering)
      | .interrupt _ => some (m.setReply i reply .answering)
      | .shutdown _ => some ({ m with stopping := true }.setReply i reply .answering)
    else none

def tasksOf (m : Server) (target : Option String) : List Nat :=
  (m.work.entries.filter (fun e => target.all (· == e.1))).map Prod.snd

def recordReply (m : Server) (i : Nat) (reply : Reply) (response : ParticipantResult) : Server :=
  (m.submitWrite (resultOutcome reply.request.requestId response)).setReply i reply
    (.recording response m.writes.length)

/-- The handler of a control command, or the one that describes the state, has come to its end. -/
def answerReply (m : Server) (i : Nat) (result : Except Raised ParticipantResult) : Option Server :=
  match m.replies[i]? with
  | none => none
  | some reply =>
    if reply.phase = .answering then
      match result with
      | .error e => some (m.replyRaises i reply e)
      | .ok response =>
        match reply.request.command with
        | .interrupt target | .shutdown target =>
          if response.success then
            some ((m.cancelJobs (m.tasksOf target)).setReply i reply (.gathering (m.tasksOf target) response))
          else some (m.recordReply i reply response)
        | .heartbeat | .commandState | .work _ => some (m.setReply i reply (.sending response))
    else none

def allDone (m : Server) (tasks : List Nat) : Bool := tasks.all (fun j => m.jobs[j]?.all (fun job => job.phase.done))

def gathered (m : Server) (i : Nat) : Option Server :=
  match m.replies[i]? with
  | some ⟨c, request, .gathering tasks response⟩ =>
    if m.allDone tasks then some (m.recordReply i ⟨c, request, .gathering tasks response⟩ response) else none
  | _ => none

def writePhase (m : Server) (w : Nat) : Option WritePhase := m.writes[w]?.map Write.phase

def replyRecorded (m : Server) (i : Nat) : Option Server :=
  match m.replies[i]? with
  | some ⟨c, request, .recording response w⟩ =>
    match m.writePhase w with
    | some .stored => some (m.setReply i ⟨c, request, .recording response w⟩ (.sending response))
    | some (.failed e) => some (m.replyRaises i ⟨c, request, .recording response w⟩ e)
    | _ => none
  | _ => none

/-- The shielded task of the work is done. -/
def awaited (m : Server) (i : Nat) : Option Server :=
  match m.replies[i]? with
  | some ⟨c, request, .awaiting j⟩ =>
    match m.jobs[j]?.map Job.phase with
    | some (.finished response) => some (m.setReply i ⟨c, request, .awaiting j⟩ (.sending response))
    | some (.raised e) => some (m.replyRaises i ⟨c, request, .awaiting j⟩ e)
    | some (.auditing _) | some .audited => some (m.setReply i ⟨c, request, .awaiting j⟩ .ended)
    | _ => none
  | _ => none

def sendReply (m : Server) (i : Nat) (delivered : Bool) : Option Server :=
  match m.replies[i]? with
  | some ⟨c, request, .sending response⟩ =>
    some ({ m with sent := if delivered then m.sent ++ [(request.requestId, response)] else m.sent }.setReply i
      ⟨c, request, .sending response⟩ .ended)
  | _ => none

/-- The response of a call is passed to the journal. -/
def recordJob (m : Server) (j : Nat) (job : Job) (response : ParticipantResult) (acquired : Bool) : Server :=
  (m.submitWrite (resultOutcome job.request.requestId response)).setJob j job
    (.recording response acquired m.writes.length)

/-- The `finally` of `_run_work`. -/
def leave (m : Server) (requestId : String) (acquired : Bool) : Server :=
  { m with
    current := if acquired then none else m.current
    locked := if acquired then false else m.locked
    requests := m.requests.filter (fun id => id != requestId)
    work := m.work.pop requestId }

def jobFails (m : Server) (j : Nat) (job : Job) (error : Raised) (acquired : Bool) : Server :=
  ({ m with failure := some error }.setJob j job (.raised error)).leave job.request.requestId acquired

/-- The exceptions of the inner `try` of `_run_work`, raised while the lock is held. -/
def jobRaises (m : Server) (j : Nat) (job : Job) (error : Raised) : Server :=
  match error.kind with
  | .timeout => m.recordJob j job queueTimeout true
  | .cancelled => m.recordJob j job interruptedResult true
  | .logging => { m with journalFailed := true }.jobFails j job error true
  | .os | .other => m.recordJob j job (commandFailed error.message) true

/-- A task that is cancelled before its first step has its cancellation recorded for it. -/
def beginJob (m : Server) (j : Nat) : Option Server :=
  match m.jobs[j]? with
  | none => none
  | some job =>
    if job.phase = .created then
      if job.interrupted then
        if m.requests.contains job.request.requestId then
          some ((m.submitWrite ⟨job.request.requestId, "cancelled", cancelledBeforeStart⟩).setJob j job
            (.auditing m.writes.length))
        else some (m.setJob j job (.raised cancelledError))
      else if m.stopping then
        some (m.recordJob j job (commandFailed "Participant is stopping; no new work is accepted.") false)
      else some (m.setJob j job .queued)
    else none

/-- The task goes on with the lock. -/
def holdLock (m : Server) (j : Nat) (job : Job) : Server :=
  if m.stopping then
    { m with locked := true, current := some job.request.requestId }.recordJob j job
      (commandFailed "Participant stopped accepting work while the request was queued.") true
  else { m with locked := true, current := some job.request.requestId }.setJob j job .starting

/-- Any waiting task may get a free lock. The helper of a bounded one takes it also when the
task itself has been cancelled meanwhile. -/
def acquireLock (m : Server) (j : Nat) : Option Server :=
  match m.jobs[j]? with
  | none => none
  | some job =>
    if job.phase = .queued ∧ m.locked = false then
      if job.request.bounded then
        some { m with locked := true, jobs := m.jobs.set j { job with phase := .granted } }
      else if job.interrupted then none
      else some (m.holdLock j job)
    else none

/-- The task of a bounded request sees that its helper has the lock, or that it was cancelled. -/
def resumeGranted (m : Server) (j : Nat) : Option Server :=
  match m.jobs[j]? with
  | none => none
  | some job =>
    if job.phase = .granted then
      some (if job.interrupted then m.recordJob j job interruptedResult false else m.holdLock j job)
    else none

def expireQueued (m : Server) (j : Nat) : Option Server :=
  match m.jobs[j]? with
  | none => none
  | some job =>
    if job.phase = .queued ∧ job.request.bounded = true ∧ job.interrupted = false then
      some (m.recordJob j job queueTimeout false)
    else none

def cancelQueued (m : Server) (j : Nat) : Option Server :=
  match m.jobs[j]? with
  | none => none
  | some job =>
    if job.phase = .queued ∧ job.interrupted = true then some (m.recordJob j job interruptedResult false) else none

/-- The event `call.started` is written, and the handler is called. -/
def callStarted (m : Server) (j : Nat) (error : Option Raised) : Option Server :=
  match m.jobs[j]? with
  | none => none
  | some job =>
    if job.phase = .starting then
      if job.interrupted then some (m.recordJob j job interruptedResult true)
      else
        match error with
        | some e => some (m.jobRaises j job e)
        | none => some ({ m with handed := m.handed ++ [job.request.requestId] }.setJob j job .handling)
    else none

/-- The handler ends; what it makes of a cancellation is its own. -/
def handlerEnds (m : Server) (j : Nat) (result : Except Raised ParticipantResult) : Option Server :=
  match m.jobs[j]? with
  | none => none
  | some job =>
    if job.phase = .handling then
      match result with
      | .ok response => some (m.recordJob j job response true)
      | .error e => some (m.jobRaises j job e)
    else none

def finishJob (m : Server) (j : Nat) : Option Server :=
  match m.jobs[j]? with
  | some ⟨request, interrupted, .recording response acquired w⟩ =>
    let job : Job := ⟨request, interrupted, .recording response acquired w⟩
    if interrupted then some ((m.cancelWrite w).jobFails j job cancelledError acquired)
    else
      match m.writePhase w with
      | some .stored => some ((m.setJob j job (.finished response)).leave request.requestId acquired)
      | some (.failed e) => some (m.jobFails j job e acquired)
      | _ => none
  | _ => none

def auditJob (m : Server) (j : Nat) : Option Server :=
  match m.jobs[j]? with
  | some ⟨request, interrupted, .auditing w⟩ =>
    let job : Job := ⟨request, interrupted, .auditing w⟩
    match m.writePhase w with
    | some .stored => some ((m.setJob j job .audited).leave request.requestId false)
    | some (.failed e) =>
      some (({ m with failure := some e }.setJob j job .audited).leave request.requestId false)
    | _ => none
  | _ => none

def cancelAudit (m : Server) (j : Nat) : Server :=
  match m.jobs[j]? with
  | some ⟨request, interrupted, .auditing w⟩ =>
    (({ m.cancelWrite w with failure := some cancelledError }).setJob j ⟨request, interrupted, .auditing w⟩ .audited).leave
      request.requestId false
  | _ => m

inductive WriteEnding where
  | stored
  | failed (error : Raised) (committed : Bool)
  deriving DecidableEq

def beginWrite (m : Server) (w : Nat) : Option Server :=
  match m.writes[w]? with
  | none => none
  | some write =>
    if write.phase = .queued then some { m with writes := m.writes.set w { write with phase := .running } } else none

/-- A write that has failed may have been committed. -/
def endWrite (m : Server) (w : Nat) (ending : WriteEnding) : Option Server :=
  match m.writes[w]? with
  | none => none
  | some write =>
    if write.phase = .running then
      match ending, recordCommandResult m.journal write.outcome with
      | .stored, some journal =>
        some { m with journal := journal, writes := m.writes.set w { write with phase := .stored } }
      | .stored, none => some { m with writes := m.writes.set w { write with phase := .failed differentResult } }
      | .failed e committed, recorded =>
        some { m with
          journal := if committed then recorded.getD m.journal else m.journal
          writes := m.writes.set w { write with phase := .failed e }
          journalFailed := true }
    else none

/-- `close` cancels the work, the connections and the audits. -/
def close (m : Server) : Server :=
  let stopped := { m with stopping := true }.cancelJobs (m.tasksOf none)
  let closed := (List.range m.connections.length).foldl closeConnection stopped
  (List.range m.jobs.length).foldl cancelAudit closed

end Server

inductive Action where
  | connect
  | receive (c : Nat) (request : ParticipantRequest)
  | lookup (c : Nat)
  | lookupFails (c : Nat) (message : String)
  | resume (c : Nat)
  | disconnect (c : Nat)
  | reply (i : Nat)
  | answer (i : Nat) (result : Except Raised ParticipantResult)
  | gathered (i : Nat)
  | recorded (i : Nat)
  | awaited (i : Nat)
  | send (i : Nat) (delivered : Bool)
  | begin (j : Nat)
  | acquire (j : Nat)
  | granted (j : Nat)
  | expire (j : Nat)
  | unqueue (j : Nat)
  | started (j : Nat) (error : Option Raised)
  | handled (j : Nat) (result : Except Raised ParticipantResult)
  | finish (j : Nat)
  | audited (j : Nat)
  | beginWrite (w : Nat)
  | endWrite (w : Nat) (ending : Server.WriteEnding)
  | runnerRecords (requestId : String)
  | stop
  | close

namespace Server

/-- One step of one of the server's tasks, from a wait to the next. -/
def step (m : Server) : Action → Option Server
  | .connect => some { m with connections := m.connections ++ [.reading] }
  | .receive c request => m.receiveFrame c request
  | .lookup c => m.lookupResult c
  | .lookupFails c message => m.lookupFails c message
  | .resume c => m.resumeConnection c
  | .disconnect c => m.disconnect c
  | .reply i => m.startReply i
  | .answer i result => m.answerReply i result
  | .gathered i => m.gathered i
  | .recorded i => m.replyRecorded i
  | .awaited i => m.awaited i
  | .send i delivered => m.sendReply i delivered
  | .begin j => m.beginJob j
  | .acquire j => m.acquireLock j
  | .granted j => m.resumeGranted j
  | .expire j => m.expireQueued j
  | .unqueue j => m.cancelQueued j
  | .started j error => m.callStarted j error
  | .handled j result => m.handlerEnds j result
  | .finish j => m.finishJob j
  | .audited j => m.auditJob j
  | .beginWrite w => m.beginWrite w
  | .endWrite w ending => m.endWrite w ending
  | .runnerRecords requestId => some { m with runnerResults := requestId :: m.runnerResults }
  | .stop => some { m with stopping := true }
  | .close => some m.close

/-- The runs of a server all of whose steps are allowed. -/
inductive Reachable (allowed : Server → Action → Prop) : Server → Prop where
  | start (journal : List CommandOutcome) (runnerResults : List String) : Reachable allowed (start journal runnerResults)
  | step {m m' : Server} (action : Action) (before : Reachable allowed m) (apart : allowed m action)
      (step : m.step action = some m') : Reachable allowed m'

/-- A run that stops at the first step that is not allowed. -/
def runAllowed (allowed : Server → Action → Prop) [∀ m action, Decidable (allowed m action)] (m : Server) :
    List Action → Option Server
  | [] => some m
  | action :: actions => if allowed m action then (m.step action).bind (fun m' => runAllowed allowed m' actions) else none

theorem Reachable.run {allowed : Server → Action → Prop} [∀ m action, Decidable (allowed m action)] {m m' : Server}
    {actions : List Action} (h : Reachable allowed m) (hrun : m.runAllowed allowed actions = some m') :
    Reachable allowed m' := by
  induction actions generalizing m with
  | nil =>
    obtain rfl := Option.some.inj hrun
    exact h
  | cons action actions ih =>
    obtain ⟨hallowed, hrun⟩ := Option.ite_none_right_eq_some.mp hrun
    obtain ⟨next, hstep, hrun⟩ := Option.bind_eq_some_iff.mp hrun
    exact ih (h.step action hallowed hstep) hrun

end Server

end ModularPipelines.Participants
