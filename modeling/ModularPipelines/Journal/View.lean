import Mathlib.Data.List.MinMax
import ModularPipelines.Journal.Store
import ModularPipelines.Library.OrderedTable

namespace ModularPipelines.Journal
open Library

def eventEntry (settings : Settings) (j : EventStore) (eventId : String) : Except JournalError EventRow :=
  match j.findEvent eventId with
  | none => .error (.storage "Journal reference points to a missing event.")
  | some row => decodeRow settings row

def EventRow.withResult (row : EventRow) (author : Option Author) (provisional : Bool) : JournalEntry :=
  ⟨row.cursor, row.event, author, provisional⟩

/-- An entry with its current result metadata, or nothing for a superseded observation. -/
def effectiveEntry (settings : Settings) (j : EventStore) (entry : EventRow) :
    Except JournalError (Option JournalEntry) :=
  if entry.event.eventType ≠ "command.result" then .ok (some (entry.withResult none false))
  else do
    let data ← validatedCommandResult entry.event.data
    match ← loadCommandResult settings j data.requestId with
    | none => .error (.storage "Command observation has no result index.")
    | some state =>
      rejectIf (entry.event.eventId ∉ state.relatedEventIds)
        (.storage "Command observation is absent from its result index.")
      if entry.event.eventId ≠ state.effectiveEventId then return none
      else return some (entry.withResult (some state.effectiveAuthor) state.runner.isNone)

structure JournalChangeEntry where
  changeCursor : Nat
  eventId : String
  change : JournalChangeData
  entry : JournalEntry
  observed : EventRow

/-- `JournalChangeData.consistent_change`. -/
def JournalChangeData.consistent (change : JournalChangeData) : Bool :=
  !change.relatedEventIds.isEmpty && decide change.relatedEventIds.Nodup &&
    match change.kind with
    | .event => change.requestId.isNone && change.effectiveAuthor.isNone && !change.provisional &&
        change.resultChanged && change.observation.isNone
    | .commandResult => change.requestId.any isText && change.effectiveAuthor.isSome &&
        change.provisional == (change.effectiveAuthor == some Author.participant)

def ownerFields : List String :=
  ["experiment_id", "participant_id", "participant_instance_id", "request_id"]

def sameOwner (context other : Context) : Bool :=
  ownerFields.all (fun key => decide ((context.lookup key).getD .null = (other.lookup key).getD .null))

def validateRelated (settings : Settings) (j : EventStore) (change : JournalChangeData) (entry : EventRow) :
    List String → Except JournalError Unit
  | [] => .ok ()
  | relatedId :: related => do
    let row ← eventEntry settings j relatedId
    rejectIf (row.event.eventType ≠ "command.result") (.storage "Change refers to an unrelated event.")
    let data ← validatedCommandResult row.event.data
    rejectIf (some data.requestId ≠ change.requestId) (.storage "Change refers to another request.")
    rejectIf (sameOwner row.event.context entry.event.context = false)
      (.storage "Change mixes request owners.")
    validateRelated settings j change entry related

def validateCommandChange (settings : Settings) (j : EventStore) (change : JournalChangeData)
    (entry : EventRow) : Except JournalError Unit := do
  validateRelated settings j change entry change.relatedEventIds
  match change.observation with
  | none => return ()
  | some o =>
    rejectIf (sameOwner o.observation.context entry.event.context = false)
      (.storage "Change observer belongs to another request.")

def observedEntry (settings : Settings) (j : EventStore) (row : ChangeRow) (entry : EventRow) :
    Except JournalError EventRow :=
  if row.eventId = row.change.effectiveEventId then .ok entry else eventEntry settings j row.eventId

def validateChange (settings : Settings) (j : EventStore) (row : ChangeRow) (entry : EventRow) :
    Except JournalError Unit :=
  match row.change.kind with
  | .event =>
    rejectIf (row.change.relatedEventIds ≠ [row.eventId] ∨ entry.event.eventType = "command.result")
      (.storage "Invalid ordinary event change.")
  | .commandResult => validateCommandChange settings j row.change entry

/-- A stored change with the events that it refers to. -/
def decodeChange (settings : Settings) (j : EventStore) (row : ChangeRow) :
    Except JournalError JournalChangeEntry := do
  rejectIf (row.change.consistent = false) (.value "Invalid change.")
  let entry ← eventEntry settings j row.change.effectiveEventId
  let observed ← observedEntry settings j row entry
  rejectIf (row.eventId ∉ row.change.relatedEventIds ∨
      row.change.effectiveEventId ∉ row.change.relatedEventIds)
    (.storage "Change is missing its event references.")
  validateChange settings j row entry
  return ⟨row.changeCursor, row.eventId, row.change,
    entry.withResult row.change.effectiveAuthor row.change.provisional, observed⟩

structure JournalReadBoundary where
  journalId : String
  generation : String
  cursor : Nat
  eventCount : Nat
  changeCursor : Nat
  deriving DecidableEq

def maxCursor (cursors : List Nat) : Nat := cursors.foldr max 0

def readBoundary (j : EventStore) : JournalReadBoundary :=
  ⟨j.journalId, j.generation, maxCursor (j.events.map EventRow.cursor), j.events.length,
    maxCursor (j.changes.map ChangeRow.changeCursor)⟩

/-- The effective view computed from the index as it stands. -/
def effectiveView (settings : Settings) (j : EventStore) : Except JournalError (List JournalEntry) := do
  let entries ← j.events.mapM (fun row => do
    let entry ← decodeRow settings row
    effectiveEntry settings j entry)
  return entries.reduceOption

structure FilteredPublication where
  boundary : JournalReadBoundary
  publicationId : String
  publishedAt : String
  deriving DecidableEq

inductive SourceLines where
  | entries (es : List JournalEntry)
  | changes (cs : List JournalChangeEntry)

/-- The immutable file a refresh reads: a header, then a whole view or a delta. -/
structure SourceView where
  boundary : JournalReadBoundary
  lines : SourceLines

def SourceView.rebuild (source : SourceView) : Bool :=
  match source.lines with
  | .entries _ => true
  | .changes _ => false

def needsRebuild (previous : Option FilteredPublication) (boundary : JournalReadBoundary) : Bool :=
  match previous with
  | none => true
  | some p => p.boundary.journalId != boundary.journalId ||
      p.boundary.generation != boundary.generation ||
      decide (boundary.changeCursor < p.boundary.changeCursor)

def exportSourceView (settings : Settings) (j : EventStore) (previous : Option FilteredPublication) :
    Except JournalError SourceView := do
  let boundary := readBoundary j
  if needsRebuild previous boundary then
    let entries ← effectiveView settings j
    return ⟨boundary, .entries entries⟩
  else
    let after : Nat := (previous.map (fun p => p.boundary.changeCursor)).getD 0
    let rows := j.changes.filter (fun c => decide (after < c.changeCursor))
    let changes ← rows.mapM (decodeChange settings j)
    return ⟨boundary, .changes changes⟩

end ModularPipelines.Journal
