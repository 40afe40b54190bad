import ModularPipelines.Participants.Server

namespace ModularPipelines.Participants.Server
open Library

variable {m m' : Server} {i j c w : Nat} {request : ParticipantRequest}

theorem receiveFrame_some (hok : m.receiveFrame c request = some m') :
    m.connections[c]? = some .reading ∧
      ((request.requestId ∈ m.seen ∧ m' = m.closeConnection c) ∨
       (request.requestId ∉ m.seen ∧ request.command.isWork = true ∧
          m' = { m with connections := m.connections.set c (.checking request none) }) ∨
       (request.requestId ∉ m.seen ∧ request.command.isWork = false ∧ m' = m.admitRequest c request)) := by
  unfold receiveFrame at hok
  grind

theorem lookupResult_some (hok : m.lookupResult c = some m') :
    ∃ request, m.connections[c]? = some (.checking request none) ∧
      m' = { m with connections :=
        m.connections.set c (.checking request (some (m.hasResult request.requestId))) } := by
  unfold lookupResult at hok
  grind

theorem lookupFails_some {message : String} (hok : m.lookupFails c message = some m') :
    m' = { m with failure := some ⟨.logging, message⟩, journalFailed := true }.closeConnection c := by
  unfold lookupFails at hok
  grind

theorem resumeConnection_some (hok : m.resumeConnection c = some m') :
    ∃ request, (m.connections[c]? = some (.checking request (some true)) ∧ m' = m.closeConnection c) ∨
      (m.connections[c]? = some (.checking request (some false)) ∧ m' = m.admitRequest c request) := by
  unfold resumeConnection at hok
  split at hok
  · next request found hget =>
    obtain rfl := Option.some.inj hok
    cases found with
    | true => exact ⟨request, .inl ⟨hget, rfl⟩⟩
    | false => exact ⟨request, .inr ⟨hget, rfl⟩⟩
  · cases hok

theorem disconnect_some (hok : m.disconnect c = some m') : m' = m.closeConnection c := by
  unfold disconnect at hok
  grind

theorem startReply_some (hok : m.startReply i = some m') :
    ∃ reply, m.replies[i]? = some reply ∧ reply.phase = .created ∧
      ((reply.request.command.isWork = true ∧ m' = m.startWork i reply) ∨
       (reply.request.command.isWork = false ∧
          ((∃ phase, (phase = .answering ∨ ∃ response, phase = .sending response) ∧
              (m' = m.setReply i reply phase ∨ m' = { m with stopping := true }.setReply i reply phase)) ∨
            ∃ id, m.current = some id ∧ id ∉ m.requests ∧ m' = m.replyRaises i reply ⟨.other, "'" ++ id ++ "'"⟩))) := by
  unfold startReply at hok
  split at hok
  · cases hok
  · next reply hget =>
    split at hok
    · next hphase =>
      refine ⟨reply, hget, hphase, ?_⟩
      split at hok
      · next hcommand =>
        obtain rfl := Option.some.inj hok
        exact .inl ⟨by rw [hcommand]; rfl, rfl⟩
      · next hcommand =>
        obtain rfl := Option.some.inj hok
        refine .inr ⟨by rw [hcommand]; rfl, .inl ⟨_, ?_, .inl rfl⟩⟩
        split
        · exact .inr ⟨_, rfl⟩
        · exact .inl rfl
      · next hcommand =>
        refine .inr ⟨by rw [hcommand]; rfl, ?_⟩
        split at hok
        · next id hid =>
          obtain rfl := Option.some.inj hok
          obtain ⟨hcurrent, hmissing⟩ := Option.filter_eq_some_iff.mp hid
          exact .inr ⟨id, hcurrent, by simpa using hmissing, rfl⟩
        · obtain rfl := Option.some.inj hok
          exact .inl ⟨_, .inl rfl, .inl rfl⟩
      · next hcommand =>
        obtain rfl := Option.some.inj hok
        exact .inr ⟨by rw [hcommand]; rfl, .inl ⟨_, .inl rfl, .inl rfl⟩⟩
      · next hcommand =>
        obtain rfl := Option.some.inj hok
        exact .inr ⟨by rw [hcommand]; rfl, .inl ⟨_, .inl rfl, .inr rfl⟩⟩
    · cases hok

theorem answerReply_some {result : Except Raised ParticipantResult} (hok : m.answerReply i result = some m') :
    ∃ reply, m.replies[i]? = some reply ∧ reply.phase = .answering ∧
      ((∃ e, result = .error e ∧ m' = m.replyRaises i reply e) ∨
       ∃ response, result = .ok response ∧
         ((∃ tasks, m' = (m.cancelJobs tasks).setReply i reply (.gathering tasks response)) ∨
           m' = m.recordReply i reply response ∨ m' = m.setReply i reply (.sending response))) := by
  unfold answerReply at hok
  grind

theorem gathered_some (hok : m.gathered i = some m') :
    ∃ reply tasks response, m.replies[i]? = some reply ∧ reply.phase = .gathering tasks response ∧
      m' = m.recordReply i reply response := by
  unfold gathered at hok
  grind

theorem replyRecorded_some (hok : m.replyRecorded i = some m') :
    ∃ reply response w, m.replies[i]? = some reply ∧ reply.phase = .recording response w ∧
      ((m.writePhase w = some .stored ∧ m' = m.setReply i reply (.sending response)) ∨
       ∃ e, m.writePhase w = some (.failed e) ∧ m' = m.replyRaises i reply e) := by
  unfold replyRecorded at hok
  grind

theorem awaited_some (hok : m.awaited i = some m') :
    ∃ reply j job, m.replies[i]? = some reply ∧ reply.phase = .awaiting j ∧ m.jobs[j]? = some job ∧
      ((∃ response, job.phase = .finished response ∧ m' = m.setReply i reply (.sending response)) ∨
       (∃ e, job.phase = .raised e ∧ m' = m.replyRaises i reply e) ∨ m' = m.setReply i reply .ended) := by
  unfold awaited at hok
  grind

theorem sendReply_some {delivered : Bool} (hok : m.sendReply i delivered = some m') :
    ∃ reply response, m.replies[i]? = some reply ∧ reply.phase = .sending response ∧
      (m' = m.setReply i reply .ended ∨
       m' = { m with sent := m.sent ++ [(reply.request.requestId, response)] }.setReply i reply .ended) := by
  unfold sendReply at hok
  split at hok
  · next c request response hget =>
    obtain rfl := Option.some.inj hok
    refine ⟨_, response, hget, rfl, ?_⟩
    cases delivered with
    | false => exact .inl rfl
    | true => exact .inr rfl
  · cases hok

theorem beginJob_some (hok : m.beginJob j = some m') :
    ∃ job, m.jobs[j]? = some job ∧ job.phase = .created ∧
      ((job.interrupted = true ∧ job.request.requestId ∈ m.requests ∧
          m' = (m.submitWrite ⟨job.request.requestId, "cancelled", cancelledBeforeStart⟩).setJob j job
            (.auditing m.writes.length)) ∨
       (job.interrupted = true ∧ job.request.requestId ∉ m.requests ∧ m' = m.setJob j job (.raised cancelledError)) ∨
       (∃ response, job.interrupted = false ∧ m' = m.recordJob j job response false) ∨
       (job.interrupted = false ∧ m' = m.setJob j job .queued)) := by
  unfold beginJob at hok
  grind

theorem acquireLock_some (hok : m.acquireLock j = some m') :
    ∃ job, m.jobs[j]? = some job ∧ job.phase = .queued ∧ m.locked = false ∧
      ((job.request.bounded = true ∧ m' = { m with locked := true, jobs := m.jobs.set j { job with phase := .granted } }) ∨
       (job.request.bounded = false ∧ job.interrupted = false ∧ m' = m.holdLock j job)) := by
  unfold acquireLock at hok
  grind

theorem resumeGranted_some (hok : m.resumeGranted j = some m') :
    ∃ job, m.jobs[j]? = some job ∧ job.phase = .granted ∧
      ((job.interrupted = true ∧ m' = m.recordJob j job interruptedResult false) ∨
       (job.interrupted = false ∧ m' = m.holdLock j job)) := by
  unfold resumeGranted at hok
  grind

theorem expireQueued_some (hok : m.expireQueued j = some m') :
    ∃ job, m.jobs[j]? = some job ∧ job.phase = .queued ∧ m' = m.recordJob j job queueTimeout false := by
  unfold expireQueued at hok
  grind

theorem cancelQueued_some (hok : m.cancelQueued j = some m') :
    ∃ job, m.jobs[j]? = some job ∧ job.phase = .queued ∧ m' = m.recordJob j job interruptedResult false := by
  unfold cancelQueued at hok
  grind

theorem callStarted_some {error : Option Raised} (hok : m.callStarted j error = some m') :
    ∃ job, m.jobs[j]? = some job ∧ job.phase = .starting ∧
      (m' = m.recordJob j job interruptedResult true ∨ (∃ e, error = some e ∧ m' = m.jobRaises j job e) ∨
       (job.interrupted = false ∧ m' = { m with handed := m.handed ++ [job.request.requestId] }.setJob j job .handling)) := by
  unfold callStarted at hok
  grind

theorem handlerEnds_some {result : Except Raised ParticipantResult} (hok : m.handlerEnds j result = some m') :
    ∃ job, m.jobs[j]? = some job ∧ job.phase = .handling ∧
      ((∃ response, m' = m.recordJob j job response true) ∨ ∃ e, result = .error e ∧ m' = m.jobRaises j job e) := by
  unfold handlerEnds at hok
  grind

theorem finishJob_some (hok : m.finishJob j = some m') :
    ∃ job response acquired w, m.jobs[j]? = some job ∧ job.phase = .recording response acquired w ∧
      ((job.interrupted = true ∧ m' = (m.cancelWrite w).jobFails j job cancelledError acquired) ∨
       (m.writePhase w = some .stored ∧
          m' = (m.setJob j job (.finished response)).leave job.request.requestId acquired) ∨
       ∃ e, m.writePhase w = some (.failed e) ∧ m' = m.jobFails j job e acquired) := by
  unfold finishJob at hok
  grind

theorem auditJob_some (hok : m.auditJob j = some m') :
    ∃ job w, m.jobs[j]? = some job ∧ job.phase = .auditing w ∧
      ((m.writePhase w = some .stored ∧ m' = (m.setJob j job .audited).leave job.request.requestId false) ∨
       ∃ e, m.writePhase w = some (.failed e) ∧
          m' = ({ m with failure := some e }.setJob j job .audited).leave job.request.requestId false) := by
  unfold auditJob at hok
  grind

theorem beginWrite_some (hok : m.beginWrite w = some m') :
    ∃ write, m.writes[w]? = some write ∧ write.phase = .queued ∧
      m' = { m with writes := m.writes.set w { write with phase := .running } } := by
  unfold beginWrite at hok
  grind

theorem endWrite_some {ending : WriteEnding} (hok : m.endWrite w ending = some m') :
    ∃ write, m.writes[w]? = some write ∧ write.phase = .running ∧
      ((ending = .stored ∧ ∃ journal, recordCommandResult m.journal write.outcome = some journal ∧
          m' = { m with journal := journal, writes := m.writes.set w { write with phase := .stored } }) ∨
       (ending = .stored ∧ recordCommandResult m.journal write.outcome = none ∧
          m' = { m with writes := m.writes.set w { write with phase := .failed differentResult } }) ∨
       ∃ e committed, ending = .failed e committed ∧
          m' = { m with
            journal := if committed then (recordCommandResult m.journal write.outcome).getD m.journal else m.journal
            writes := m.writes.set w { write with phase := .failed e }
            journalFailed := true }) := by
  unfold endWrite at hok
  grind

end ModularPipelines.Participants.Server
