import ModularPipelines.Journal.Diagnostics

namespace ModularPipelines.Journal
open Library

structure SnapshotManifest where
  snapshotId : String
  journalId : String
  generation : String
  storageSchemaVersion : Nat
  cursor : Nat
  eventCount : Nat
  changeCursor : Nat
  contentSha256 : String
  createdAt : String
  deriving DecidableEq

def SnapshotManifest.document (m : SnapshotManifest) : Json :=
  .obj [("change_cursor", .int m.changeCursor), ("content_sha256", .str m.contentSha256),
    ("created_at", .str m.createdAt), ("cursor", .int m.cursor), ("database", .str "journal.sqlite"),
    ("event_count", .int m.eventCount), ("generation", .str m.generation),
    ("journal_id", .str m.journalId), ("schema_version", .int 2), ("snapshot_id", .str m.snapshotId),
    ("storage_schema_version", .int m.storageSchemaVersion)]

structure RestorationResult where
  boundary : JournalReadBoundary
  restorationId : String
  snapshotId : String
  importedEvents : Nat
  deriving DecidableEq

def RestorationResult.document (r : RestorationResult) : Json :=
  .obj [("change_cursor", .int r.boundary.changeCursor), ("cursor", .int r.boundary.cursor),
    ("event_count", .int r.boundary.eventCount), ("generation", .str r.boundary.generation),
    ("imported_events", .int r.importedEvents), ("journal_id", .str r.boundary.journalId),
    ("restoration_id", .str r.restorationId), ("schema_version", .int 2),
    ("snapshot_id", .str r.snapshotId)]

def readNat : Json → Option Nat
  | .int n => if 0 ≤ n then some n.toNat else none
  | _ => none

def readString : Json → Option String
  | .str s => some s
  | _ => none

def resultFields : List String :=
  ["change_cursor", "cursor", "event_count", "generation", "imported_events", "journal_id",
    "restoration_id", "schema_version", "snapshot_id"]

def RestorationResult.read (j : Json) : Option RestorationResult :=
  if j.keys = resultFields then do
    let changeCursor ← (j.get? "change_cursor").bind readNat
    let cursor ← (j.get? "cursor").bind readNat
    let eventCount ← (j.get? "event_count").bind readNat
    let generation ← (j.get? "generation").bind readString
    let importedEvents ← (j.get? "imported_events").bind readNat
    let journalId ← (j.get? "journal_id").bind readString
    let restorationId ← (j.get? "restoration_id").bind readString
    let snapshotId ← (j.get? "snapshot_id").bind readString
    some ⟨⟨journalId, generation, cursor, eventCount, changeCursor⟩, restorationId, snapshotId, importedEvents⟩
  else none

structure RestorationRow where
  restorationId : String
  parametersJson : String
  resultJson : String
  deriving DecidableEq

/-- What the table definitions of a journal enforce. -/
structure EventStore.Keyed (j : EventStore) : Prop where
  ordered : Ordered EventRow.cursor j.events
  bounded : ∀ r ∈ j.events, r.cursor ≤ j.eventSequence
  eventIds : j.events.Pairwise (fun r r' => r.event.eventId ≠ r'.event.eventId)
  producers : j.events.Pairwise (fun r r' => ¬ (r.event.producerInstanceId = r'.event.producerInstanceId ∧
    r.event.sequenceNumber = r'.event.sequenceNumber))
  changeOrder : Ordered ChangeRow.changeCursor j.changes
  changeBound : ∀ c ∈ j.changes, c.changeCursor ≤ j.changeSequence
  requestIds : j.results.Pairwise (fun r r' => r.requestId ≠ r'.requestId)

/-- A journal file with its restoration history. -/
structure JournalDatabase where
  tables : EventStore
  restorations : List RestorationRow
  schemaVersion : Nat
  keyed : tables.Keyed

/-- The points of a restoration at which storage may fail. -/
inductive RestorePoint where
  | read
  | check
  | event (remaining : Nat)
  | command (remaining : Nat)
  | change (remaining : Nat)
  | generation
  | record
  | validate
  | commit
  deriving DecidableEq

abbrev Faults := RestorePoint → Bool

def interrupt (faults : Faults) (point : RestorePoint) : Except JournalError Unit :=
  rejectIf (faults point = true) (.storage "complete journal restoration")

structure RestoreCall where
  manifest : SnapshotManifest
  restorationId : String
  newGeneration : String
  diagnostics : Option DiagnosticBundle
  expectedJournal : String × String

/-- The canonical text that tells one restoration from another. -/
def RestoreCall.parameters (call : RestoreCall) : String :=
  Json.dumps (.obj [
    ("diagnostics", (call.diagnostics.map (fun b => b.manifest.document)).getD .null),
    ("new_generation", .str call.newGeneration), ("snapshot", call.manifest.document)])

def RestoreCall.identity (call : RestoreCall) : String × String :=
  (call.manifest.journalId, call.manifest.generation)

def prepareRestoreImport (settings : Settings) (call : RestoreCall) :
    Except JournalError DiagnosticContents :=
  match call.diagnostics with
  | none => .ok ⟨[], []⟩
  | some bundle => do
    let contents ← readDiagnosticRecords settings bundle
    rejectIf (bundle.manifest.journalId ≠ call.manifest.journalId)
      (.value "Diagnostic bundle belongs to another journal.")
    return contents

def recordedRestorationResult (previous : RestorationRow) (call : RestoreCall)
    (actual : String × String) : Except JournalError RestorationResult := do
  rejectIf (previous.parametersJson ≠ call.parameters)
    (.value "restoration_id already belongs to another restoration.")
  match (Json.loads previous.resultJson).bind RestorationResult.read with
  | none => .error (.storage "Invalid recorded restoration result.")
  | some result =>
    rejectIf (result.restorationId ≠ call.restorationId ∨ result.boundary.generation ≠ call.newGeneration)
      (.storage "Invalid recorded restoration result.")
    rejectIf (actual ≠ (result.boundary.journalId, result.boundary.generation))
      (.state "This restoration has already been superseded.")
    return result

/-- Foreign keys: results and changes refer to events of the journal. -/
def brokenReferences (j : EventStore) : Bool :=
  j.changes.any (fun c => (j.findEvent c.eventId).isNone) ||
    j.results.any (fun r => (j.findEvent r.effectiveEventId).isNone ||
      r.runner.any (fun c => (j.findEvent c.eventId).isNone) ||
      r.participant.any (fun c => (j.findEvent c.eventId).isNone))

/-- `_validate_snapshot_source`: every row reads back inside one view. -/
def validateSnapshotSource (settings : Settings) (j : EventStore) : Except JournalError Unit := do
  let _ ← j.events.mapM (fun row => do
    let entry ← decodeRow settings row
    effectiveEntry settings j entry)
  let _ ← j.results.mapM (fun row => loadCommandResult settings j row.requestId)
  let _ ← j.changes.mapM (decodeChange settings j)
  rejectIf (brokenReferences j = true) (.storage "Journal contains broken references.")

def checkRestoredSnapshot (settings : Settings) (contentDigest : JournalDatabase → String)
    (db : JournalDatabase) (manifest : SnapshotManifest) : Except JournalError Unit := do
  rejectIf (db.schemaVersion ≠ manifest.storageSchemaVersion)
    (.value "Snapshot storage version does not match its database.")
  validateSnapshotSource settings db.tables
  let boundary := readBoundary db.tables
  rejectIf ((boundary.cursor, boundary.eventCount, boundary.changeCursor) ≠
      (manifest.cursor, manifest.eventCount, manifest.changeCursor))
    (.value "Restored journal does not match the snapshot boundary.")
  rejectIf (contentDigest db ≠ manifest.contentSha256)
    (.value "Restored journal does not match the snapshot contents.")

/-- Canonical text of an event, with sorted member names. -/
def JournalEvent.key (e : JournalEvent) : String := e.document.sortKeys.dumps

/-- `_import_diagnostic_events`: an event that is already there must be the same. -/
def importEvents (settings : Settings) (faults : Faults) (j : EventStore) :
    List JournalEvent → Except JournalError (EventStore × List JournalEvent)
  | [] => .ok (j, [])
  | event :: events => do
    interrupt faults (.event events.length)
    match j.findEvent event.eventId with
    | some row =>
      let entry ← decodeRow settings row
      rejectIf (entry.event.key ≠ event.key)
        (.value "Diagnostic event ID conflicts with restored history.")
      importEvents settings faults j events
    | none =>
      rejectIf (j.events.any (fun r => r.event.producerInstanceId == event.producerInstanceId &&
          r.event.sequenceNumber == event.sequenceNumber) = true)
        (.value "Diagnostic producer sequence conflicts with restored history.")
      let k ← insertEvent j event
      let (l, inserted) ← importEvents settings faults k events
      return (l, event :: inserted)

/-- A request that the import changed: its effective event, and whether the outcome changed. -/
structure ChangedRequest where
  requestId : String
  eventId : String
  resultChanged : Bool
  deriving DecidableEq

def importCommand (settings : Settings) (j : EventStore) (record : DiagnosticCommand) :
    Except JournalError (EventStore × Option ChangedRequest) := do
  let state ← loadCommandResult settings j record.requestId
  let merged ← mergeDiagnosticCommand state record
  let k ← saveCommandState j record.requestId merged.identity merged.runner merged.participant
  match ← loadCommandResult settings k record.requestId with
  | none => .error (.storage "Command result has no index row.")
  | some checked =>
    return (k, if merged.changed then some ⟨record.requestId, checked.effectiveEventId,
      merged.before != some (checked.effectiveAuthor, checked.effectiveEventId)⟩ else none)

/-- `_import_diagnostic_commands`. -/
def importCommands (settings : Settings) (faults : Faults) (j : EventStore) :
    List DiagnosticCommand → Except JournalError (EventStore × List ChangedRequest)
  | [] => .ok (j, [])
  | record :: records => do
    interrupt faults (.command records.length)
    let (k, changed) ← importCommand settings j record
    let (l, rest) ← importCommands settings faults k records
    return (l, changed.toList ++ rest)

def recordInserted (settings : Settings) (faults : Faults) (j : EventStore) :
    List JournalEvent → Except JournalError EventStore
  | [] => .ok j
  | event :: events => do
    interrupt faults (.change events.length)
    if event.eventType ≠ "command.result" then
      recordInserted settings faults (recordEventChange j event.eventId) events
    else
      let row ← eventEntry settings j event.eventId
      let _ ← effectiveEntry settings j row
      recordInserted settings faults j events

def recordRequests (settings : Settings) (faults : Faults) (j : EventStore) :
    List ChangedRequest → Except JournalError EventStore
  | [] => .ok j
  | changed :: rest => do
    interrupt faults (.change rest.length)
    let k ← recordResultChange settings j changed.eventId changed.requestId changed.resultChanged none
    recordRequests settings faults k rest

/-- `_record_restored_changes`. -/
def recordRestoredChanges (settings : Settings) (faults : Faults) (j : EventStore)
    (inserted : List JournalEvent) (changed : List ChangedRequest) : Except JournalError EventStore := do
  let k ← recordInserted settings faults j inserted
  recordRequests settings faults k changed

/-- The import of a bundle into a checked snapshot, up to its own change records. -/
def importDiagnostics (settings : Settings) (faults : Faults) (j : EventStore)
    (contents : DiagnosticContents) : Except JournalError (EventStore × List JournalEvent) := do
  let (k, inserted) ← importEvents settings faults j contents.events
  let (l, changed) ← importCommands settings faults k contents.commands
  let m ← recordRestoredChanges settings faults l inserted changed
  return (m, inserted)

end ModularPipelines.Journal
