import Mathlib.Data.Finset.Sort
import Mathlib.Data.String.Basic
import ModularPipelines.Journal.Events

namespace ModularPipelines.Journal.CheckpointIds
open Library

def lowerHex (c : Char) : Bool := c.isDigit || ('a' ≤ c && c ≤ 'f')

/-- Lower-case hexadecimal groups of 8, 4, 4, 4 and 12 characters. -/
def canonicalRequestId (s : String) : Bool :=
  let groups := s.toList.splitOn '-'
  groups.map List.length == [8, 4, 4, 4, 12] && groups.all (fun g => g.all lowerHex)

def sortedUnique (values : List String) : Bool :=
  (values.zip values.tail).all (fun p => p.1 < p.2)

def sortedRequestIds (values : List String) : Bool :=
  values.all canonicalRequestId && sortedUnique values

inductive CheckpointType where
  | runner
  | rebuild
  deriving DecidableEq, Repr

def CheckpointType.text : CheckpointType → String
  | .runner => "runner.checkpoint"
  | .rebuild => "rebuild.checkpoint"

def CheckpointType.read (s : String) : Option CheckpointType :=
  if s = "runner.checkpoint" then some .runner
  else if s = "rebuild.checkpoint" then some .rebuild
  else none

def asString : Json → Option String
  | .str s => some s
  | _ => none

def asStrings : Json → Option (List String)
  | .arr xs => xs.mapM asString
  | _ => none

def ofStrings (ids : List String) : Json := .arr (ids.map .str)

def textField (key : String) (j : Json) : Except JournalError String :=
  match (j.get? key).bind asString with
  | some s => .ok s
  | none => .error (.key key)

/-- The fields of checkpoint data that make it eligible for packing. -/
structure CheckpointIdsInput where
  experimentId : String
  runId : String
  usedRequestIds : List String

def CheckpointIdsInput.validate (data : Json) : Option CheckpointIdsInput := do
  let version ← data.get? "schema_version"
  let experimentId ← (data.get? "experiment_id").bind asString
  let runId ← (data.get? "run_id").bind asString
  let usedRequestIds ← (data.get? "used_request_ids").bind asStrings
  if (version = .int 3 ∨ version = .int 4) ∧ experimentId ≠ "" ∧ runId ≠ "" ∧
      sortedRequestIds usedRequestIds = true then
    some ⟨experimentId, runId, usedRequestIds⟩
  else none

structure HistoryFields where
  eventId : String
  experimentId : String
  runId : String
  eventType : CheckpointType
  generation : String
  baseEventId : Option String
  depth : Nat
  ids : List String
  itemCount : Nat
  eventSha256 : String

def hexText (n : Nat) (s : String) : Bool := s.toList.length == n && s.toList.all lowerHex

/-- Field constraints and `validate_anchor`. -/
def HistoryFields.valid (h : HistoryFields) : Bool :=
  h.eventId != "" && h.experimentId != "" && h.runId != "" && hexText 32 h.generation &&
  h.baseEventId != some "" && decide (h.depth < 32) && sortedRequestIds h.ids &&
  hexText 64 h.eventSha256 &&
  (h.baseEventId.isNone == (h.depth == 0)) && h.baseEventId != some h.eventId &&
  !(decide (h.itemCount < h.ids.length) || (h.baseEventId.isNone && h.itemCount != h.ids.length))

/-- A full array at depth zero, or additions to an earlier array of its scope. -/
structure CheckpointIdHistory extends HistoryFields where
  ok : toHistoryFields.valid = true

def CheckpointIdHistory.make (f : HistoryFields) : Except JournalError CheckpointIdHistory :=
  if h : f.valid = true then .ok ⟨f, h⟩
  else .error (.value "Checkpoint history is inconsistent.")

structure Scope where
  experimentId : String
  runId : String
  eventType : CheckpointType
  generation : String
  deriving DecidableEq

def HistoryFields.scope (h : HistoryFields) : Scope :=
  ⟨h.experimentId, h.runId, h.eventType, h.generation⟩

/-- The stored placeholder is empty and carries the identity of its history. -/
def CheckpointIdHistory.validateEnvelope (h : CheckpointIdHistory) (document : Json) :
    Except JournalError Unit := do
  let eventId ← textField "event_id" document
  let eventType ← textField "event_type" document
  match (document.get? "data").bind CheckpointIdsInput.validate, CheckpointType.read eventType with
  | some data, some kind =>
    if eventId ≠ h.eventId ∨ kind ≠ h.eventType ∨ data.experimentId ≠ h.experimentId ∨
        data.runId ≠ h.runId ∨ data.usedRequestIds ≠ [] then
      .error (.value "Compact checkpoint envelope disagrees with its history.")
    else .ok ()
  | _, _ => .error (.value "Stored checkpoint envelope is invalid.")

inductive PayloadEncoding where
  | json
  | checkpointIds
  deriving DecidableEq, Repr

structure StoredEvent where
  cursor : Nat
  eventId : String
  producerInstanceId : String
  sequenceNumber : Nat
  eventJson : String
  payloadEncoding : PayloadEncoding
  deriving DecidableEq

/-- A row of `checkpoint_request_ids`; the additions are stored as JSON text. -/
structure HistoryRow where
  fields : HistoryFields
  idsJson : String
  eventCursor : Nat

/-- The tables of a format-3 journal that packing reads and writes. -/
structure Database where
  generation : String
  eventSequence : Nat
  events : List StoredEvent
  histories : List HistoryRow

def historyFromRow (row : HistoryRow) : Except JournalError CheckpointIdHistory :=
  match (Json.loads row.idsJson).bind asStrings with
  | some ids => CheckpointIdHistory.make { row.fields with ids := ids }
  | none => .error (.value "Checkpoint additions are not a string array.")

def readHistory (db : Database) (eventId : String) :
    Except JournalError (CheckpointIdHistory × StoredEvent) := do
  match db.histories.find? (fun h => h.fields.eventId == eventId) with
  | none => .error (.value "Compact checkpoint is missing its request-ID history.")
  | some row =>
    let history ← historyFromRow row
    match db.events.find? (fun e => e.eventId == eventId) with
    | none => .error (.value "Checkpoint history does not match its stored event.")
    | some event =>
      if event.cursor ≠ row.eventCursor ∨ event.payloadEncoding ≠ .checkpointIds then
        .error (.value "Checkpoint history does not match its stored event.")
      else match Json.loads event.eventJson with
        | none => .error (.value "Stored checkpoint must be JSON text.")
        | some document =>
          history.validateEnvelope document
          return (history, event)

/-- The links of `_reconstruct_ids`, nearest first. A link lowers the depth by
one, so the depth bounds the loop. -/
def ancestors (db : Database) : Nat → CheckpointIdHistory → Nat →
    Except JournalError (List CheckpointIdHistory)
  | n, history, cursor =>
    match history.baseEventId, n with
    | none, _ => .ok []
    | some _, 0 => .error (.value "Checkpoint base and depth disagree.")
    | some base, n + 1 => do
      let (parent, row) ← readHistory db base
      if parent.scope ≠ history.scope ∨ parent.depth + 1 ≠ history.depth ∨ cursor ≤ row.cursor then
        .error (.value "Checkpoint parent has an invalid scope, depth, or order.")
      else
        let rest ← ancestors db n parent row.cursor
        return parent :: rest

def addIdentifiers (identifiers : Finset String) (item : CheckpointIdHistory) :
    Except JournalError (Finset String) :=
  if (identifiers ∩ item.ids.toFinset).Nonempty then
    .error (.value "Checkpoint additions repeat an existing request ID.")
  else if (identifiers ∪ item.ids.toFinset).card ≠ item.itemCount then
    .error (.value "Reconstructed checkpoint request-ID count differs.")
  else .ok (identifiers ∪ item.ids.toFinset)

def reconstructIds (db : Database) (history : CheckpointIdHistory) (cursor : Nat) :
    Except JournalError (List String) := do
  let chain ← ancestors db history.depth history cursor
  let identifiers ← (history :: chain).reverse.foldlM addIdentifiers ∅
  return identifiers.sort (· ≤ ·)

section Checksum

-- The hexadecimal checksum of a text's UTF-8 bytes; packing uses it as a function only.
variable (sha256 : String → String)

def reconstructEvent (db : Database) (row : StoredEvent) : Except JournalError String :=
  match row.payloadEncoding with
  | .json => .ok row.eventJson
  | .checkpointIds =>
    let decoded : Except JournalError String := do
      let (history, stored) ← readHistory db row.eventId
      if stored ≠ row then .error (.value "Checkpoint changed within the selected read view.")
      else
        let identifiers ← reconstructIds db history row.cursor
        match Json.loads row.eventJson with
        | none => .error (.value "Stored checkpoint must be JSON text.")
        | some event => match event.get? "data" with
          | none => .error (.key "data")
          | some data =>
            let encoded := Json.dumps (event.set "data" (data.set "used_request_ids" (ofStrings identifiers)))
            if sha256 encoded ≠ history.eventSha256 then
              .error (.value "Reconstructed checkpoint content checksum differs.")
            else .ok encoded
    decoded.mapError (fun _ => .storage "Invalid checkpoint request-ID history.")

/-- `ORDER BY event_cursor DESC LIMIT 1`. -/
def newest : List HistoryRow → Option HistoryRow
  | [] => none
  | row :: rows => match newest rows with
    | none => some row
    | some best => if best.eventCursor < row.eventCursor then some row else some best

def payloadSize (ids : List String) (base : Option String) (depth : Nat) : Nat :=
  (Json.dumps (.arr [ofStrings ids, (base.map Json.str).getD .null, .int depth])).utf8ByteSize

def usedRequestIds (encoded : String) : Except JournalError (List String) :=
  match (((Json.loads encoded).bind (Json.get? "data")).bind (Json.get? "used_request_ids")).bind
      asStrings with
  | some ids => .ok ids
  | none => .error (.key "used_request_ids")

def selectRequestIdDelta (db : Database) (payload : CheckpointIdsInput)
    (eventType : CheckpointType) : Except JournalError (List String × Option String × Nat) := do
  let anchor := (payload.usedRequestIds, none, 0)
  let scope : Scope := ⟨payload.experimentId, payload.runId, eventType, db.generation⟩
  match newest (db.histories.filter (fun h => h.fields.scope == scope)) with
  | none => return anchor
  | some row =>
    let (base, baseRow) ← readHistory db row.fields.eventId
    if base.depth = 31 then return anchor
    let original ← reconstructEvent sha256 db baseRow
    let previous := (← usedRequestIds original).toFinset
    let current := payload.usedRequestIds.toFinset
    if ¬ previous ⊆ current then return anchor
    let added := (current \ previous).sort (· ≤ ·)
    if payloadSize anchor.1 none 0 ≤ payloadSize added (some base.eventId) (base.depth + 1) then
      return anchor
    return (added, some base.eventId, base.depth + 1)

/-- Packs an eligible canonical checkpoint; any other event keeps its text. -/
def prepareCheckpoint (db : Database) (event : Json) (encoded : String) :
    Except JournalError (String × Option CheckpointIdHistory) := do
  match CheckpointType.read (← textField "event_type" event), event.get? "data" with
  | none, _ => return (encoded, none)
  | some _, none => .error (.key "data")
  | some eventType, some data => match CheckpointIdsInput.validate data with
    | none => return (encoded, none)
    | some payload =>
      if Json.dumps event ≠ encoded then return (encoded, none)
      let (ids, base, depth) ← selectRequestIdDelta sha256 db payload eventType
      let history ← CheckpointIdHistory.make
        { eventId := ← textField "event_id" event
          experimentId := payload.experimentId
          runId := payload.runId
          eventType := eventType
          generation := db.generation
          baseEventId := base
          depth := depth
          ids := ids
          itemCount := payload.usedRequestIds.length
          eventSha256 := sha256 encoded }
      let stored := event.set "data" (data.set "used_request_ids" (.arr []))
      return (Json.dumps stored, some history)

/-- Unique event IDs and producer sequences, as the table declares them. -/
def insertEvent (db : Database) (eventId producer : String) (sequenceNumber : Nat)
    (encoding : PayloadEncoding) (stored : String) : Except JournalError (Database × Nat) :=
  if sequenceNumber = 0 ∨ db.events.any (fun e => e.eventId == eventId) ∨
      db.events.any (fun e => e.producerInstanceId == producer && e.sequenceNumber == sequenceNumber) then
    .error (.storage "IntegrityError")
  else
    let cursor := db.eventSequence + 1
    .ok ({ db with eventSequence := cursor,
                   events := db.events ++ [⟨cursor, eventId, producer, sequenceNumber, stored, encoding⟩] },
      cursor)

def insertHistory (db : Database) (history : CheckpointIdHistory) (cursor : Nat) :
    Except JournalError Database :=
  if db.histories.any (fun h => h.fields.eventId == history.eventId || h.eventCursor == cursor) ∨
      (∃ base ∈ history.baseEventId, ¬ db.histories.any (fun h => h.fields.eventId == base)) then
    .error (.storage "IntegrityError")
  else .ok { db with histories := db.histories ++
    [⟨history.toHistoryFields, Json.dumps (ofStrings history.ids), cursor⟩] }

def insertStoredEvent (db : Database) (event : Json) (encoded : String) :
    Except JournalError Database := do
  let (stored, history) ← prepareCheckpoint sha256 db event encoded
  let eventId ← textField "event_id" event
  let producer ← textField "producer_instance_id" event
  match event.get? "sequence_number" with
  | some (.int n) =>
    let (db, cursor) ← insertEvent db eventId producer n.toNat
      (if history.isNone then .json else .checkpointIds) stored
    match history with
    | none => return db
    | some history => insertHistory db history cursor
  | _ => .error (.key "sequence_number")

end Checksum

end ModularPipelines.Journal.CheckpointIds
