import ModularPipelines.Journal.Client
import ModularPipelines.Journal.Store

namespace ModularPipelines.Journal
open Library

/-- `error.__cause__` of a storage failure, as far as the writer looks at it. -/
inductive Cause where
  | none
  | sqlite
  | integrity
  | os
  | value
  | type
  | configuration
  deriving DecidableEq

/-- An exception of the writer: its class, its text and its `journal_failed` mark. -/
structure Failure where
  type : String
  message : String
  journalFailed : Bool
  cause : Cause
  deriving DecidableEq

/-- `_storage_failure` -/
def storageFailure (settings : Settings) (action : String) (cause : Cause) : Failure :=
  ⟨"LoggingStorageError", "Cannot " ++ action ++ " journal at " ++ settings.dbPath ++ ".", true, cause⟩

def errorType : JournalError → String
  | .value _ => "ValueError"
  | .key _ => "KeyError"
  | .state _ => "LoggingStateError"
  | .storage _ => "LoggingStorageError"
  | .generationChanged => "JournalGenerationChanged"

def errorMessage : JournalError → String
  | .value message => message
  | .key field => field
  | .state message => message
  | .storage message => message
  | .generationChanged => "Journal identity or generation changed; restart reading."

def rejection (error : JournalError) : Failure := ⟨errorType error, errorMessage error, false, .none⟩

/-- Where a transaction is interrupted: in the checks before its first read, by the
COMMIT, or by the check after it. -/
inductive Interruption where
  | early (cause : Cause)
  | commit (cause : Cause)
  | committed (cause : Cause)
  deriving DecidableEq

def settleBody (settings : Settings) (action : String) (j : EventStore) (interruption : Option Interruption)
    (fail : JournalError → Failure) (body : Except JournalError (EventStore × String)) : EventStore × Except Failure String :=
  match interruption, body with
  | some (.early cause), _ => (j, .error (storageFailure settings action cause))
  | _, .error error => (j, .error (fail error))
  | some (.commit cause), .ok _ => (j, .error (storageFailure settings action cause))
  | some (.committed cause), .ok (k, _) => (k, .error (storageFailure settings action cause))
  | none, .ok (k, eventId) => (k, .ok eventId)

/-- An event's text with sorted member names. -/
def canonicalText (event : JournalEvent) : String := event.document.sortKeys.dumps

/-- The body of `_append_validated` for a replay. -/
def appendBody (settings : Settings) (j : EventStore) (event : JournalEvent) :
    Except JournalError (EventStore × String) :=
  match j.findEvent event.eventId with
  | some existing => do
    let stored ← decodeRow settings existing
    rejectIf (canonicalText event ≠ canonicalText stored.event)
      (.value "Replayed event ID has different contents.")
    return (j, event.eventId)
  | none => do
    let k ← insertEvent j event
    return (recordEventChange k event.eventId, event.eventId)

/-- Every error of the body fails the store. -/
def appendFailure (settings : Settings) : JournalError → Failure
  | .value _ => storageFailure settings "append event" .value
  | .storage "IntegrityError" => storageFailure settings "append event" .integrity
  | error => ⟨errorType error, errorMessage error, true, .none⟩

def appendReplayed (settings : Settings) (j : EventStore) (event : JournalEvent)
    (interruption : Option Interruption) : EventStore × Except Failure String :=
  match encodeEvent settings event with
  | .error error => (j, .error (rejection error))
  | .ok _ =>
    if event.eventType = "command.result" then
      (j, .error (rejection (.value "Managed results require append_command_result.")))
    else settleBody settings "append event" j interruption (appendFailure settings) (appendBody settings j event)

/-- A value error before the first write is a plain rejection; a corrupt index has a
value error for its cause. -/
def reportFailure (settings : Settings) : JournalError → Failure
  | .value message => rejection (.value message)
  | .storage "IntegrityError" => storageFailure settings "reconcile command" .integrity
  | .storage message => ⟨"LoggingStorageError", message, true, .value⟩
  | error => ⟨errorType error, errorMessage error, true, .none⟩

def reportReplayed (settings : Settings) (j : EventStore) (event : JournalEvent)
    (interruption : Option Interruption) : EventStore × Except Failure String :=
  match validateReport settings event with
  | .error error => (j, .error (rejection error))
  | .ok _ =>
    settleBody settings "reconcile command" j interruption (reportFailure settings) (appendCommandResult settings j event)

/-- One writer process and the database it has open. -/
structure JournalWriter where
  managed : Bool
  store : EventStore
  storageError : Bool
  deriving DecidableEq

/-- How closing and opening again fail; value and type errors are wrapped. -/
inductive OpenFailure where
  | storage (action : String) (cause : Cause)
  | state
  | configuration (message : String)
  | generationChanged
  deriving DecidableEq

def OpenFailure.failure (settings : Settings) : OpenFailure → Failure
  | .storage action cause => storageFailure settings action cause
  | .state => ⟨"LoggingStateError", "Journal is already open.", false, .none⟩
  | .configuration message => ⟨"LoggingConfigurationError", message, false, .none⟩
  | .generationChanged => ⟨"JournalGenerationChanged", errorMessage .generationChanged, true, .none⟩

/-- `_check_free_space` -/
def freeSpaceMessage (settings : Settings) (minimum : Nat) : String :=
  "Free space at " ++ settings.directory ++ " is below the required " ++ toString minimum ++ " bytes."

/-- What one `_apply` meets: both attempts to reopen the storage, the free space, an
interruption of the transaction and the answer of a call that appends nothing. -/
structure Conditions where
  reopening : Option OpenFailure
  freeSpace : Bool
  interruption : Option Interruption
  reopenedAfter : Bool
  other : Except Failure Json

/-- `writer_error`. -/
def writerError (failure : Failure) : ErrorDocument := ⟨failure.type, failure.message, failure.journalFailed⟩

def Cause.retryable : Cause → Bool
  | .integrity | .value | .type => false
  | _ => true

def JournalCall.appends : JournalCall → Bool
  | .append _ | .appendCommandResult _ => true
  | .other _ _ => false

def JournalCall.event : JournalCall → Option JournalEvent
  | .append event => some event
  | .appendCommandResult event => some event
  | .other _ _ => none

namespace JournalWriter

def dispatch (settings : Settings) (w : JournalWriter) (o : Conditions) :
    JournalCall → EventStore × Except Failure Json
  | .append event =>
    let (k, result) := appendReplayed settings w.store event o.interruption
    (k, result.map .str)
  | .appendCommandResult event =>
    let (k, result) := reportReplayed settings w.store event o.interruption
    (k, result.map .str)
  | .other _ _ => (w.store, o.other)

/-- The guarded part of `_apply`. -/
def perform (settings : Settings) (w : JournalWriter) (r : JournalRequest) (o : Conditions) :
    JournalWriter × Except Failure Json :=
  if r.expectedJournal.any (· ≠ ⟨w.store.journalId, w.store.generation⟩) then
    (w, .error (rejection .generationChanged))
  else if r.readOnly = true ∧ r.call.appends = true then
    (w, .error (rejection (.state "This journal client is read-only.")))
  else match w.storageError, o.reopening with
  | true, some failure => (w, .error (failure.failure settings))
  | _, _ =>
    if r.call.appends = true ∧ o.freeSpace = false then
      ({ w with storageError := false }, .error (rejection (.storage (freeSpaceMessage settings r.minFreeBytes))))
    else
      let (k, result) := w.dispatch settings o r.call
      ({ w with storageError := false, store := k }, result)

/-- The handler of `_apply`: a failed store is reopened before the next request. -/
def recover (w : JournalWriter) (failure : Failure) (o : Conditions) : JournalWriter × JournalReply :=
  if failure.journalFailed = false then (w, ⟨false, .null, writerError failure, false⟩)
  else if o.reopenedAfter then
    ({ w with storageError := false }, ⟨false, .null, writerError failure, w.managed && failure.cause.retryable⟩)
  else ({ w with storageError := true }, ⟨false, .null, writerError failure, w.managed⟩)

def apply (settings : Settings) (w : JournalWriter) (r : JournalRequest) (o : Conditions) :
    JournalWriter × JournalReply :=
  match w.perform settings r o with
  | (w, .ok value) => (w, ⟨true, value, ⟨"", "", false⟩, false⟩)
  | (w, .error failure) => w.recover failure o

end JournalWriter

end ModularPipelines.Journal
