import Mathlib.Data.String.Basic
import ModularPipelines.Library.JsonText
import ModularPipelines.Library.Outcome

namespace ModularPipelines.Journal
open Library

/-- Exceptions of the journal, by the class a caller distinguishes. -/
inductive JournalError where
  | value (message : String)
  | key (field : String)
  | state (message : String)
  | storage (message : String)
  | generationChanged
  deriving DecidableEq, Repr

/-- Characters that `str.strip` removes. -/
def isBlank (c : Char) : Bool :=
  let n := c.toNat
  (9 ≤ n && n ≤ 13) || (28 ≤ n && n ≤ 32) || n == 0x85 || n == 0xA0 || n == 0x1680 ||
    (0x2000 ≤ n && n ≤ 0x200A) || n == 0x2028 || n == 0x2029 || n == 0x202F || n == 0x205F || n == 0x3000

def isText (s : String) : Bool :=
  s.toList.any (fun c => !isBlank c) && s.toList.all (fun c => c.toNat != 0)

def requireText (s : String) (name : String) : Except JournalError Unit :=
  if isText s then .ok ()
  else .error (.value s!"{name} must be nonempty and contain no null characters.")

/-- What the journal takes from its settings file and from its platform: the
calendar decides which timestamps carry the UTC offset. -/
structure Settings where
  isUtc : String → Bool
  maxEventBytes : Option Nat
  directory : String
  fileName : String

def Settings.dbPath (s : Settings) : String := s.directory ++ "/" ++ s.fileName

abbrev Context := List (String × Json)

def contextTextFields : List String :=
  ["experiment_id", "previous_experiment_id", "previous_run_id", "dag_revision_id",
    "template_revision_id", "stage_id", "stage_execution_id", "cycle_id", "attempt_id",
    "service_id", "request_id", "command_id", "command_chain_id", "run_id", "node_id",
    "node_execution_id", "runner_session_id", "service_instance_id", "participant_id",
    "participant_instance_id", "module_name", "module_version", "module_hash",
    "configuration_hash", "worker_id", "host_name", "source", "parent_operation_id"]

def contextIntegerFields : List String :=
  ["attempt_number", "process_id", "cycle_number", "stage_position"]

def validContextItem : String × Json → Bool
  | (name, .null) => contextTextFields.contains name || contextIntegerFields.contains name
  | (name, .str s) => contextTextFields.contains name && isText s
  | (name, .int n) => contextIntegerFields.contains name && decide (1 ≤ n)
  | _ => false

def validContext (context : Context) : Bool := context.all validContextItem

/-- The event envelope; its schema version is always 2. -/
structure JournalEvent where
  eventId : String
  producerInstanceId : String
  sequenceNumber : Nat
  occurredAt : String
  eventType : String
  context : Context
  operationId : Option String
  data : Json
  deriving DecidableEq

def optionalText : Option String → Json
  | some s => .str s
  | none => .null

def JournalEvent.document (e : JournalEvent) : Json :=
  .obj [("schema_version", .int 2), ("event_id", .str e.eventId),
    ("producer_instance_id", .str e.producerInstanceId), ("sequence_number", .int e.sequenceNumber),
    ("occurred_at", .str e.occurredAt), ("event_type", .str e.eventType),
    ("context", .obj e.context), ("operation_id", optionalText e.operationId), ("data", e.data)]

/-- Nesting that the shared JSON copier accepts. -/
def maxDepth : Nat := 32

def JournalEvent.valid (settings : Settings) (e : JournalEvent) : Bool :=
  decide (e.document.depth ≤ maxDepth) && isText e.eventId && isText e.producerInstanceId &&
    decide (0 < e.sequenceNumber) && decide (e.sequenceNumber ≤ 9223372036854775807) &&
    isText e.occurredAt && settings.isUtc e.occurredAt && isText e.eventType &&
    validContext e.context && e.operationId.all isText && e.data.isObj

theorem JournalEvent.valid_iff {settings : Settings} {e : JournalEvent} :
    e.valid settings = true ↔ e.document.depth ≤ maxDepth ∧ isText e.eventId = true ∧
      isText e.producerInstanceId = true ∧ 0 < e.sequenceNumber ∧
      e.sequenceNumber ≤ 9223372036854775807 ∧ isText e.occurredAt = true ∧
      settings.isUtc e.occurredAt = true ∧ isText e.eventType = true ∧ validContext e.context = true ∧
      e.operationId.all isText = true ∧ e.data.isObj = true := by
  simp only [JournalEvent.valid, Bool.and_eq_true, decide_eq_true_eq, and_assoc]

attribute [irreducible] JournalEvent.valid

/-- Envelope validation and the byte limit of the encoded text. -/
def encodeEvent (settings : Settings) (e : JournalEvent) : Except JournalError String :=
  if e.valid settings = false then .error (.value "Event fields do not match the journal envelope.")
  else
    let encoded := e.document.dumps
    match settings.maxEventBytes with
    | none => .ok encoded
    | some limit =>
      if limit < encoded.utf8ByteSize then .error (.value s!"Encoded event exceeds max_event_bytes ({limit}).")
      else .ok encoded

inductive Author where
  | runner
  | participant
  deriving DecidableEq, Repr

def Author.other : Author → Author
  | .runner => .participant
  | .participant => .runner

inductive Outcome where
  | succeeded
  | failed
  | cancelled
  | timedOut
  | invalidated
  deriving DecidableEq, Repr

def Author.read : Json → Option Author
  | .str s => if s = "runner" then some .runner else if s = "participant" then some .participant else none
  | _ => none

def Outcome.text : Outcome → String
  | .succeeded => "succeeded"
  | .failed => "failed"
  | .cancelled => "cancelled"
  | .timedOut => "timed_out"
  | .invalidated => "invalidated"

def Outcome.read : Json → Option Outcome
  | .str s => [Outcome.succeeded, .failed, .cancelled, .timedOut, .invalidated].find? (fun o => o.text == s)
  | _ => none

structure SupersededObservation where
  eventId : String
  ignored : String
  deriving DecidableEq

structure CommandObservation where
  requestId : String
  author : Author
  outcome : Outcome
  response : Json
  ignored : Option String
  supersedes : List SupersededObservation
  deriving DecidableEq

def readText : Json → Option String
  | .str s => if isText s then some s else none
  | _ => none

def readOptionalText : Json → Option (Option String)
  | .null => some none
  | j => (readText j).map some

def readSuperseded (j : Json) : Option SupersededObservation :=
  if j.keys.all (["event_id", "ignored"].contains ·) then do
    let eventId ← (j.get? "event_id").bind readText
    let ignored ← (j.get? "ignored").bind readText
    some ⟨eventId, ignored⟩
  else none

def readSupersededList : Json → Option (List SupersededObservation)
  | .arr xs => xs.mapM readSuperseded
  | _ => none

def commandFields : List String :=
  ["request_id", "author", "outcome", "response", "ignored", "supersedes"]

def readObject (j : Json) : Option Json := if j.isObj then some j else none

/-- `CommandObservation.model_validate`. -/
def readCommandResult (data : Json) : Option CommandObservation :=
  if maxDepth < data.depth || !data.keys.all (commandFields.contains ·) then none
  else do
    let requestId ← (data.get? "request_id").bind readText
    let author ← (data.get? "author").bind Author.read
    let outcome ← (data.get? "outcome").bind Outcome.read
    let response ← (data.get? "response").bind readObject
    let ignored ← (data.get? "ignored").bind readOptionalText
    let supersedes ← (data.get? "supersedes").bind readSupersededList
    some ⟨requestId, author, outcome, response, ignored, supersedes⟩

def validatedCommandResult (data : Json) : Except JournalError CommandObservation :=
  match readCommandResult data with
  | some result => .ok result
  | none => .error (.value "Invalid command observation.")

end ModularPipelines.Journal
