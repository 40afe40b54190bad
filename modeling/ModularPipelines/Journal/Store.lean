import ModularPipelines.Journal.Events

namespace ModularPipelines.Journal
open Library

/-- The request context that owns a command. -/
structure Identity where
  experimentId : String
  participantId : String
  participantInstanceId : Option String
  deriving DecidableEq

structure AuthorObservation where
  producerInstanceId : String
  occurredAt : String
  context : Context
  operationId : Option String
  deriving DecidableEq

/-- A row of `events`, read back as the event it was appended with. -/
structure EventRow where
  cursor : Nat
  event : JournalEvent
  deriving DecidableEq

/-- One author's columns of a `command_results` row. -/
structure AuthorColumns where
  eventId : String
  observation : AuthorObservation
  deriving DecidableEq

structure CommandRow where
  requestId : String
  identity : Identity
  runner : Option AuthorColumns
  participant : Option AuthorColumns
  effectiveEventId : String
  effectiveAuthor : Author
  deriving DecidableEq

inductive ChangeKind where
  | event
  | commandResult
  deriving DecidableEq, Repr

structure ChangeObserver where
  author : Author
  observation : AuthorObservation
  deriving DecidableEq

structure JournalChangeData where
  kind : ChangeKind
  requestId : Option String
  effectiveEventId : String
  effectiveAuthor : Option Author
  provisional : Bool
  resultChanged : Bool
  relatedEventIds : List String
  observation : Option ChangeObserver
  deriving DecidableEq

structure ChangeRow where
  changeCursor : Nat
  eventId : String
  change : JournalChangeData
  deriving DecidableEq

/-- The tables of one journal; the two sequences number events and changes. -/
structure EventStore where
  journalId : String
  generation : String
  eventSequence : Nat
  changeSequence : Nat
  events : List EventRow
  results : List CommandRow
  changes : List ChangeRow
  deriving DecidableEq

def EventStore.create (journalId generation : String) : EventStore :=
  ⟨journalId, generation, 0, 0, [], [], []⟩

/-- An event with the result metadata of its page. -/
structure JournalEntry where
  cursor : Nat
  event : JournalEvent
  effectiveAuthor : Option Author
  provisional : Bool
  deriving DecidableEq

structure AuthorEntry where
  eventId : String
  entry : EventRow
  observation : AuthorObservation
  result : CommandObservation
  deriving DecidableEq

/-- A cross-checked index row with the observations it refers to. -/
structure CommandState where
  identity : Identity
  runner : Option AuthorEntry
  participant : Option AuthorEntry
  effectiveEventId : String
  effectiveAuthor : Author
  deriving DecidableEq

def contextText (context : Context) (name : String) : Option String :=
  match context.lookup name with
  | some (.str s) => some s
  | _ => none

/-- The owner of a request, as an event context names it. -/
def identityOf (context : Context) : Except JournalError Identity :=
  match contextText context "experiment_id", contextText context "participant_id" with
  | some experimentId, some participantId =>
    if isText experimentId && isText participantId then
      .ok ⟨experimentId, participantId, contextText context "participant_instance_id"⟩
    else .error (.value "experiment_id must be nonempty and contain no null characters.")
  | _, _ => .error (.value "experiment_id must be a string.")

def EventStore.findEvent (j : EventStore) (eventId : String) : Option EventRow :=
  j.events.find? (fun r => r.event.eventId == eventId)

def EventStore.findResult (j : EventStore) (requestId : String) : Option CommandRow :=
  j.results.find? (fun r => r.requestId == requestId)

/-- `JournalEvent.model_validate` of a stored event. -/
def decodeRow (settings : Settings) (row : EventRow) : Except JournalError EventRow :=
  if row.event.valid settings then .ok row
  else .error (.value "Stored event disagrees with its indexed identity.")

def AuthorObservation.valid (settings : Settings) (o : AuthorObservation) : Bool :=
  isText o.producerInstanceId && isText o.occurredAt && settings.isUtc o.occurredAt &&
    validContext o.context && o.operationId.all isText

def decodeAuthorObservation (settings : Settings) (event : JournalEvent) (observation : AuthorObservation)
    (requestId : String) (identity : Identity) :
    Except JournalError (AuthorObservation × CommandObservation) := do
  rejectIf (event.eventType ≠ "command.result")
    (.value "Command result refers to an unrelated event.")
  let data ← validatedCommandResult event.data
  rejectIf (data.requestId ≠ requestId ∨ contextText event.context "request_id" ≠ some requestId)
    (.value "Command result request identity does not match.")
  let owner ← identityOf event.context
  rejectIf (owner ≠ identity) (.value "Command result belongs to another request context.")
  rejectIf (observation.valid settings = false) (.value "Invalid author observation.")
  rejectIf (contextText observation.context "request_id" ≠ some requestId)
    (.value "Observation request_id does not match.")
  let observer ← identityOf observation.context
  rejectIf (observer ≠ identity) (.value "Observation belongs to another request context.")
  return (observation, data)

def Outcome.ignoredReason : Outcome → String
  | .timedOut => "request_timed_out"
  | .cancelled => "request_cancelled"
  | .invalidated => "request_invalidated"
  | _ => "runner_result_precedence"

def ignoredReason (result : CommandObservation) : String := result.outcome.ignoredReason

/-- Canonical text of an outcome and its response, with sorted member names. -/
def responseKey (result : CommandObservation) : String :=
  (Json.sortKeys (.arr [.str result.outcome.text, result.response])).dumps

def validateSharedPrecedence (effective : AuthorEntry) : Except JournalError Unit :=
  rejectIf (effective.result.ignored.isSome ∨ effective.result.supersedes ≠ [])
    (.value "A shared result cannot be ignored or superseded.")

def validateSupersedes (runner : AuthorEntry) (participant : Option AuthorEntry) :
    Except JournalError Unit :=
  rejectIf (runner.result.supersedes ≠ [] ∧ (participant.isNone ∨
      runner.result.supersedes.length ≠ 1 ∨
      runner.result.supersedes.head?.map SupersededObservation.eventId ≠ participant.map AuthorEntry.eventId ∨
      runner.result.supersedes.head?.map SupersededObservation.ignored ≠ some (ignoredReason runner.result)))
    (.value "Invalid superseded participant reference.")

def validateRunnerPrecedence (runner : AuthorEntry) (participant : Option AuthorEntry) :
    Except JournalError Unit := do
  rejectIf (runner.result.ignored.isSome) (.value "A runner result cannot be ignored.")
  validateSupersedes runner participant
  match participant with
  | none => return ()
  | some p =>
    rejectIf (p.result.ignored.isSome ∧ p.result.ignored ≠ some (ignoredReason runner.result))
      (.value "Invalid ignored participant reason.")
    rejectIf (responseKey runner.result = responseKey p.result)
      (.value "Matching results must share one event ID.")

def sharedEvent (state : CommandState) : Bool :=
  match state.runner, state.participant with
  | some r, some p => r.eventId == p.eventId
  | _, _ => false

def authorMatches (author : Author) (entry : Option AuthorEntry) : Prop :=
  ∀ e ∈ entry, e.result.author = author

instance (author : Author) (entry : Option AuthorEntry) : Decidable (authorMatches author entry) :=
  inferInstanceAs (Decidable (∀ e ∈ entry, e.result.author = author))

/-- `_validate_result_precedence` over a decoded index row. -/
def validateResultPrecedence (state : CommandState) : Except JournalError Unit := do
  rejectIf (sharedEvent state = false ∧
      ¬ (authorMatches .runner state.runner ∧ authorMatches .participant state.participant))
    (.value "Command event author does not match its index.")
  let effectiveAuthor := if state.runner.isSome then Author.runner else .participant
  match state.runner.or state.participant with
  | none => .error (.value "Invalid effective command result.")
  | some effective =>
    rejectIf (state.effectiveAuthor ≠ effectiveAuthor ∨ state.effectiveEventId ≠ effective.eventId)
      (.value "Invalid effective command result.")
    rejectIf (state.runner.isNone ∧ state.participant.any (fun p => p.result.ignored.isSome))
      (.value "An ignored participant response requires a runner result.")
    if sharedEvent state then validateSharedPrecedence effective
    else
      rejectIf (state.participant.any (fun p => !p.result.supersedes.isEmpty))
        (.value "A participant response cannot supersede runner.")
      match state.runner with
      | none => return ()
      | some runner => validateRunnerPrecedence runner state.participant

def loadAuthor (settings : Settings) (j : EventStore) (requestId : String) (identity : Identity) :
    Option AuthorColumns → Except JournalError (Option AuthorEntry)
  | none => .ok none
  | some columns =>
    match j.findEvent columns.eventId with
    | none => .error (.value "Command result refers to a missing event.")
    | some stored => do
      let entry ← decodeRow settings stored
      let (observation, result) ←
        decodeAuthorObservation settings entry.event columns.observation requestId identity
      return some ⟨columns.eventId, entry, observation, result⟩

def Identity.valid (identity : Identity) : Bool :=
  isText identity.experimentId && isText identity.participantId && identity.participantInstanceId.all isText

def loadRow (settings : Settings) (j : EventStore) (row : CommandRow) :
    Except JournalError CommandState := do
  rejectIf (row.identity.valid = false) (.value "Invalid request identity fields.")
  let runner ← loadAuthor settings j row.requestId row.identity row.runner
  let participant ← loadAuthor settings j row.requestId row.identity row.participant
  let state : CommandState :=
    ⟨row.identity, runner, participant, row.effectiveEventId, row.effectiveAuthor⟩
  validateResultPrecedence state
  return state

/-- `_load_command_result`: a row that fails a check makes the request unreadable. -/
def loadCommandResult (settings : Settings) (j : EventStore) (requestId : String) :
    Except JournalError (Option CommandState) :=
  match j.findResult requestId with
  | none => .ok none
  | some row =>
    ((loadRow settings j row).map some).mapError (fun _ => .storage "Corrupt command-result index.")

def upsertResult (row : CommandRow) : List CommandRow → List CommandRow
  | [] => [row]
  | r :: rows => if r.requestId = row.requestId then row :: rows else r :: upsertResult row rows

/-- `_save_command_state`; a state without observations violates the table's check. -/
def saveCommandState (j : EventStore) (requestId : String) (identity : Identity)
    (runner participant : Option AuthorColumns) : Except JournalError EventStore :=
  match runner.or participant with
  | none => .error (.storage "IntegrityError")
  | some effective =>
    let row : CommandRow := ⟨requestId, identity, runner, participant, effective.eventId,
      if runner.isSome then .runner else .participant⟩
    .ok { j with results := upsertResult row j.results }

/-- Unique event IDs and producer sequences, as the table declares them. -/
def insertEvent (j : EventStore) (event : JournalEvent) : Except JournalError EventStore :=
  if j.events.any (fun r => r.event.eventId == event.eventId) ∨
      j.events.any (fun r => r.event.producerInstanceId == event.producerInstanceId &&
        r.event.sequenceNumber == event.sequenceNumber) then
    .error (.storage "IntegrityError")
  else .ok { j with eventSequence := j.eventSequence + 1,
                    events := j.events ++ [⟨j.eventSequence + 1, event⟩] }

def insertChange (j : EventStore) (eventId : String) (change : JournalChangeData) : EventStore :=
  { j with changeSequence := j.changeSequence + 1,
           changes := j.changes ++ [⟨j.changeSequence + 1, eventId, change⟩] }

def CommandState.relatedEventIds (state : CommandState) : List String :=
  match state.runner, state.participant with
  | some r, some p => if r.eventId = p.eventId then [r.eventId] else [r.eventId, p.eventId]
  | some r, none => [r.eventId]
  | none, some p => [p.eventId]
  | none, none => []

/-- `_record_change` for an ordinary event. -/
def recordEventChange (j : EventStore) (eventId : String) : EventStore :=
  insertChange j eventId ⟨.event, none, eventId, none, false, true, [eventId], none⟩

/-- `_record_change` for a command result, from the index as it now stands. -/
def recordResultChange (settings : Settings) (j : EventStore) (eventId requestId : String)
    (resultChanged : Bool) (observation : Option ChangeObserver) : Except JournalError EventStore := do
  match ← loadCommandResult settings j requestId with
  | none => .error (.storage "Command result has no index row.")
  | some state =>
    return insertChange j eventId
      ⟨.commandResult, some requestId, state.effectiveEventId, some state.effectiveAuthor,
        state.runner.isNone, resultChanged, state.relatedEventIds, observation⟩

/-- `append`: ordinary events only. -/
def append (settings : Settings) (j : EventStore) (event : JournalEvent) : Except JournalError EventStore := do
  let _ ← encodeEvent settings event
  rejectIf (event.eventType = "command.result")
    (.value "Use append_command_result for managed command observations.")
  let j ← insertEvent j event
  return recordEventChange j event.eventId

def observationOf (event : JournalEvent) : AuthorObservation :=
  ⟨event.producerInstanceId, event.occurredAt, event.context, event.operationId⟩

def CommandState.entry (state : CommandState) : Author → Option AuthorEntry
  | .runner => state.runner
  | .participant => state.participant

def AuthorEntry.columns (entry : AuthorEntry) : AuthorColumns := ⟨entry.eventId, entry.observation⟩

def supersedesJson (eventId ignored : String) : Json :=
  .arr [.obj [("event_id", .str eventId), ("ignored", .str ignored)]]

/-- The other author's equal answer is reused; a different one leaves its mark on
the new event. -/
def prepareOtherAuthorResult (other : Option AuthorEntry) (author : Author) (event : JournalEvent)
    (result : CommandObservation) : String ⊕ JournalEvent :=
  match other with
  | none => .inr event
  | some entry =>
    if responseKey entry.result = responseKey result then .inl entry.eventId
    else match author with
      | .participant =>
        .inr { event with data := event.data.set "ignored" (.str (ignoredReason entry.result)) }
      | .runner =>
        let mark := supersedesJson entry.eventId (ignoredReason result)
        .inr { event with data := event.data.set "supersedes" mark }

/-- The checks of a report that do not read the journal. -/
def validateReport (settings : Settings) (event : JournalEvent) :
    Except JournalError (CommandObservation × Identity) := do
  let _ ← encodeEvent settings event
  rejectIf (event.eventType ≠ "command.result")
    (.value "append_command_result requires a command.result event.")
  let data ← validatedCommandResult event.data
  rejectIf (data.ignored.isSome ∨ data.supersedes ≠ [])
    (.value "Ignored/superseded state is assigned by the journal.")
  let identity ← identityOf event.context
  rejectIf (contextText event.context "request_id" ≠ some data.requestId)
    (.value "Command request_id must match the event context.")
  return (data, identity)

/-- The event of a first report, unless the other author's equal answer already has one. -/
def writeReport (settings : Settings) (j : EventStore) (other : Option AuthorEntry) (event : JournalEvent)
    (data : CommandObservation) : Except JournalError (EventStore × String) :=
  match prepareOtherAuthorResult other data.author event data with
  | .inl eventId => .ok (j, eventId)
  | .inr snapshot => do
    let _ ← encodeEvent settings snapshot
    let j ← insertEvent j snapshot
    return (j, snapshot.eventId)

/-- A first report's own columns beside the columns of the other author. -/
def reportedColumns (state : Option CommandState) (author : Author) (own : AuthorColumns) (a : Author) :
    Option AuthorColumns :=
  if author = a then some own else (state.bind (CommandState.entry · a)).map AuthorEntry.columns

def resultChanged (state : Option CommandState) (runner participant : Option AuthorColumns) : Bool :=
  state.map (fun s => (s.effectiveAuthor, some s.effectiveEventId)) !=
    some (if runner.isSome then Author.runner else .participant,
      (runner.or participant).map AuthorColumns.eventId)

/-- The first report of an author: its event, the index row and one change. -/
def recordReport (settings : Settings) (j : EventStore) (event : JournalEvent) (data : CommandObservation)
    (identity : Identity) (state : Option CommandState) : Except JournalError (EventStore × String) := do
  let (j, eventId) ←
    writeReport settings j (state.bind (CommandState.entry · data.author.other)) event data
  let own : AuthorColumns := ⟨eventId, observationOf event⟩
  let runner := reportedColumns state data.author own .runner
  let participant := reportedColumns state data.author own .participant
  let j ← saveCommandState j data.requestId identity runner participant
  let j ← recordResultChange settings j eventId data.requestId (resultChanged state runner participant)
    (some ⟨data.author, observationOf event⟩)
  return (j, eventId)

def appendCommandResult (settings : Settings) (j : EventStore) (event : JournalEvent) :
    Except JournalError (EventStore × String) := do
  let (data, identity) ← validateReport settings event
  let state ← loadCommandResult settings j data.requestId
  rejectIf (state.any (fun s => s.identity ≠ identity))
    (.value "request_id already belongs to another request context.")
  match state.bind (CommandState.entry · data.author) with
  | some own =>
    rejectIf (responseKey data ≠ responseKey own.result)
      (.value "This author already reported a different result.")
    return (j, own.eventId)
  | none => recordReport settings j event data identity state

end ModularPipelines.Journal
