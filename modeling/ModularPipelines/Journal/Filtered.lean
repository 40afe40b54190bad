import ModularPipelines.Journal.View

namespace ModularPipelines.Journal
open Library

/-- The committed tables of the derived database, its rows in cursor order. -/
structure FilteredView where
  rows : List JournalEntry
  publication : Option FilteredPublication
  deriving DecidableEq

/-- The upsert of one entry; another event at its cursor violates the primary key. -/
def writeEntry (settings : Settings) (rows : List JournalEntry) (entry : JournalEntry) :
    Except JournalError (List JournalEntry) := do
  let others := rows.filter (fun e => decide (e.event.eventId ≠ entry.event.eventId))
  rejectIf (entry.event.valid settings = false)
    (.value "Event fields do not match the journal envelope.")
  rejectIf (others.any (fun e => e.cursor == entry.cursor)) (.storage "IntegrityError")
  return insertRow JournalEntry.cursor entry others

def applyViewChange (settings : Settings) (rows : List JournalEntry) (change : JournalChangeEntry) :
    Except JournalError (List JournalEntry) :=
  writeEntry settings (rows.filter (fun e => decide (e.event.eventId ∉ change.change.relatedEventIds ∨
    e.event.eventId = change.change.effectiveEventId))) change.entry

def applyLines (settings : Settings) (rows : List JournalEntry) :
    SourceLines → Except JournalError (List JournalEntry)
  | .entries es => es.foldlM (writeEntry settings) []
  | .changes cs => cs.foldlM (applyViewChange settings) rows

/-- A refresh between the read view it exports and the end of its transaction. -/
structure Refresh where
  readView : EventStore
  previous : Option FilteredPublication

/-- One publisher over a live journal: the derived database outlives the publisher,
its last error and its refresh do not. -/
structure Publisher where
  viewPath : String
  source : EventStore
  view : FilteredView
  lastError : Option Json
  refresh : Option Refresh

def Publisher.create (viewPath journalId generation : String) : Publisher :=
  ⟨viewPath, EventStore.create journalId generation, ⟨[], none⟩, none, none⟩

/-- The derived transaction of a refresh, up to its COMMIT. -/
def Refresh.publish (settings : Settings) (r : Refresh) (view : FilteredView)
    (publicationId publishedAt : String) : Except JournalError FilteredView := do
  let source ← exportSourceView settings r.readView r.previous
  let rows ← applyLines settings view.rows source.lines
  let kept := (view.publication.filter (fun p => !source.rebuild &&
    p.boundary.changeCursor == source.boundary.changeCursor)).map FilteredPublication.publicationId
  return ⟨rows, some ⟨source.boundary, kept.getD publicationId, publishedAt⟩⟩

/-- A journal event that the publisher records about itself. -/
def Publisher.record (settings : Settings) (p : Publisher) (eventType : String) (data : Json)
    (envelope : JournalEvent) : Except JournalError Publisher :=
  (append settings p.source { envelope with eventType := eventType, data := data }).map
    fun source => { p with source := source }

inductive PublisherStep where
  | append (event : JournalEvent)
  | report (event : JournalEvent)
  | open
  | export
  | publish (publicationId publishedAt : String) (envelope : JournalEvent)
  | publishUnchecked (publicationId publishedAt : String)
  | rollback
  | reportFailure (errorType message : String) (envelope : JournalEvent)

/-- `_report_refresh_failure`: a repeated error is not recorded again. -/
def Publisher.reportRefreshFailure (settings : Settings) (p : Publisher) (errorType message : String)
    (envelope : JournalEvent) : Except JournalError Publisher :=
  let error : Json := .obj [("error_type", .str errorType), ("message", .str message),
    ("view_path", .str p.viewPath)]
  if p.lastError = some error then .ok p
  else (p.record settings "logger.filtered_refresh_failed" error envelope).map
    fun q => { q with lastError := some error }

def Publisher.step (settings : Settings) (p : Publisher) : PublisherStep → Except JournalError Publisher
  | .append event => (Journal.append settings p.source event).map fun source => { p with source := source }
  | .report event =>
    (appendCommandResult settings p.source event).map fun (source, _) => { p with source := source }
  -- a new publisher over the same files, also after a crash
  | .open => .ok { p with lastError := none, refresh := none }
  | .export =>
    .ok { p with refresh := some ⟨p.source, if p.lastError.isSome then none else p.view.publication⟩ }
  | .publish publicationId publishedAt envelope =>
    match p.refresh with
    | none => .error (.state "No refresh is in progress.")
    | some r => do
      let view ← r.publish settings p.view publicationId publishedAt
      let q : Publisher := { p with view := view, refresh := none }
      match p.lastError with
      | none => return q
      | some _ =>
        -- the view is committed even when the recovery event cannot be recorded
        match q.record settings "logger.filtered_refresh_recovered" (.obj [("view_path", .str q.viewPath)]) envelope with
        | .error _ => return q
        | .ok q => return { q with lastError := none }
  -- the check after COMMIT fails, or the process ends right after it
  | .publishUnchecked publicationId publishedAt =>
    match p.refresh with
    | none => .error (.state "No refresh is in progress.")
    | some r => do
      let view ← r.publish settings p.view publicationId publishedAt
      return { p with view := view, refresh := none }
  | .rollback => .ok { p with refresh := none }
  | .reportFailure errorType message envelope =>
    p.reportRefreshFailure settings errorType message envelope

end ModularPipelines.Journal
