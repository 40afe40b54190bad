import ModularPipelines.Journal.View

namespace ModularPipelines.Journal
open Library

/-- The exported result index row of one request; an observation is one author's columns. -/
structure DiagnosticCommand where
  requestId : String
  identity : Identity
  runner : Option AuthorColumns
  participant : Option AuthorColumns
  deriving DecidableEq

def DiagnosticCommand.entry (c : DiagnosticCommand) : Author → Option AuthorColumns
  | .runner => c.runner
  | .participant => c.participant

def AuthorColumns.valid (settings : Settings) (c : AuthorColumns) : Bool :=
  isText c.eventId && c.observation.valid settings

def DiagnosticCommand.valid (settings : Settings) (c : DiagnosticCommand) : Bool :=
  isText c.requestId && c.identity.valid && c.runner.all (AuthorColumns.valid settings) &&
    c.participant.all (AuthorColumns.valid settings) && (c.runner.isSome || c.participant.isSome)

structure DiagnosticManifest where
  diagnosticsId : String
  journalId : String
  generation : String
  operationIds : List String
  cursor : Nat
  changeCursor : Nat
  createdAt : String
  recordsSha256 : String
  eventCount : Nat
  commandCount : Nat
  deriving DecidableEq

/-- Members in key order, as the canonical parameters list them. -/
def DiagnosticManifest.document (m : DiagnosticManifest) : Json :=
  .obj [("change_cursor", .int m.changeCursor), ("command_count", .int m.commandCount),
    ("created_at", .str m.createdAt), ("cursor", .int m.cursor),
    ("diagnostics_id", .str m.diagnosticsId), ("event_count", .int m.eventCount),
    ("generation", .str m.generation), ("journal_id", .str m.journalId),
    ("kind", .str "journal.diagnostics"), ("operation_ids", .arr (m.operationIds.map Json.str)),
    ("records", .str "records.jsonl"), ("records_sha256", .str m.recordsSha256),
    ("schema_version", .int 2)]

inductive DiagnosticRecord where
  | event (event : JournalEvent)
  | command (command : DiagnosticCommand)
  deriving DecidableEq

/-- A bundle directory: its manifest, the parsed lines of its records and their checksum. -/
structure DiagnosticBundle where
  manifest : DiagnosticManifest
  records : List DiagnosticRecord
  recordsSha256 : String
  deriving DecidableEq

structure DiagnosticContents where
  events : List JournalEvent
  commands : List DiagnosticCommand
  deriving DecidableEq

def readRecord (settings : Settings) (read : DiagnosticContents) :
    DiagnosticRecord → Except JournalError DiagnosticContents
  | .event event => do
    let _ ← encodeEvent settings event
    rejectIf (event.eventId ∈ read.events.map JournalEvent.eventId)
      (.value "Diagnostic bundle contains duplicate event IDs.")
    return { read with events := read.events ++ [event] }
  | .command command => do
    rejectIf (command.valid settings = false) (.value "Invalid diagnostic command.")
    rejectIf (command.requestId ∈ read.commands.map DiagnosticCommand.requestId)
      (.value "Duplicate diagnostic request ID.")
    return { read with commands := read.commands ++ [command] }

def observationInside (eventIds : List String) (columns : Option AuthorColumns) : Bool :=
  columns.all (fun c => eventIds.contains c.eventId)

/-- `_read_diagnostic_records`. -/
def readDiagnosticRecords (settings : Settings) (bundle : DiagnosticBundle) :
    Except JournalError DiagnosticContents := do
  let read ← bundle.records.foldlM (readRecord settings) ⟨[], []⟩
  rejectIf (bundle.recordsSha256 ≠ bundle.manifest.recordsSha256)
    (.value "Diagnostic records checksum does not match.")
  rejectIf ((read.events.length, read.commands.length) ≠
      (bundle.manifest.eventCount, bundle.manifest.commandCount))
    (.value "Diagnostic record counts do not match.")
  let eventIds := read.events.map JournalEvent.eventId
  rejectIf (read.commands.any (fun c =>
      !(observationInside eventIds c.runner && observationInside eventIds c.participant)))
    (.value "Diagnostic result refers outside its bundle.")
  return read

def AuthorColumns.document (c : AuthorColumns) : Json :=
  .obj [("event_id", .str c.eventId),
    ("observation", .obj [("producer_instance_id", .str c.observation.producerInstanceId),
      ("occurred_at", .str c.observation.occurredAt), ("context", .obj c.observation.context),
      ("operation_id", optionalText c.observation.operationId)])]

/-- Canonical text of an observation, with sorted member names. -/
def AuthorColumns.key (c : AuthorColumns) : String := c.document.sortKeys.dumps

/-- One author of a merge: an observation may be added, never replaced. -/
def mergeObservation (current incoming : Option AuthorColumns) :
    Except JournalError (Option AuthorColumns × Bool) :=
  match incoming, current with
  | none, _ => .ok (current, false)
  | some new, none => .ok (some new, true)
  | some new, some old =>
    if old.key ≠ new.key then
      .error (.value "Diagnostic observation conflicts with restored history.")
    else .ok (some old, false)

structure MergedCommand where
  identity : Identity
  runner : Option AuthorColumns
  participant : Option AuthorColumns
  before : Option (Author × String)
  changed : Bool

/-- `_merge_diagnostic_command`. -/
def mergeDiagnosticCommand (state : Option CommandState) (record : DiagnosticCommand) :
    Except JournalError MergedCommand := do
  rejectIf (state.any (fun s => decide (s.identity ≠ record.identity)))
    (.value "Diagnostic request belongs to another context.")
  let current (author : Author) := (state.bind (CommandState.entry · author)).map AuthorEntry.columns
  let (runner, runnerChanged) ← mergeObservation (current .runner) record.runner
  let (participant, participantChanged) ← mergeObservation (current .participant) record.participant
  return ⟨record.identity, runner, participant,
    state.map (fun s => (s.effectiveAuthor, s.effectiveEventId)), runnerChanged || participantChanged⟩

end ModularPipelines.Journal
