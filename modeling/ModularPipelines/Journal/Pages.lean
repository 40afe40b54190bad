import ModularPipelines.Journal.Filtered

namespace ModularPipelines.Journal
open Library

/-- The bytes that one page may hold, and the lengths of the encoded items. -/
structure PageSizes where
  pageBytes : Nat
  eventBytes : JournalEvent → Nat
  changeBytes : JournalChangeEntry → Nat

inductive EventView where
  | raw
  | effective
  deriving DecidableEq

structure JournalCheckpoint where
  journalId : String
  generation : String
  position : Nat
  deriving DecidableEq

structure JournalEventPage where
  events : List JournalEntry
  boundary : JournalReadBoundary
  after : Nat

def JournalEventPage.checkpoint (page : JournalEventPage) : JournalCheckpoint :=
  ⟨page.boundary.journalId, page.boundary.generation, page.after⟩

def JournalEventPage.hasMore (page : JournalEventPage) : Bool := decide (page.after < page.boundary.cursor)

structure JournalChangePage where
  changes : List JournalChangeEntry
  boundary : JournalReadBoundary
  after : Nat

def JournalChangePage.checkpoint (page : JournalChangePage) : JournalCheckpoint :=
  ⟨page.boundary.journalId, page.boundary.generation, page.after⟩

def JournalChangePage.hasMore (page : JournalChangePage) : Bool :=
  decide (page.after < page.boundary.changeCursor)

/-- `_checkpoint_position`, where `last` is the boundary's own position. -/
def checkpointPosition (checkpoint : Option JournalCheckpoint) (boundary : JournalReadBoundary) (last : Nat) :
    Except JournalError Nat :=
  match checkpoint with
  | none => .ok 0
  | some c => do
    rejectIf ((c.journalId, c.generation) ≠ (boundary.journalId, boundary.generation)) .generationChanged
    rejectIf (last < c.position) (.state "Checkpoint is beyond the committed journal boundary.")
    return c.position

def validateLimit (limit : Nat) : Except JournalError Unit :=
  rejectIf (¬ (1 ≤ limit ∧ limit ≤ 1000)) (.value "limit must be an integer from 1 to 1000.")

def viewEntry (settings : Settings) (j : EventStore) (view : EventView) (row : EventRow) :
    Except JournalError (Option JournalEntry) := do
  let entry ← decodeRow settings row
  match view with
  | .raw => return some (entry.withResult none false)
  | .effective => effectiveEntry settings j entry

def readEventPage (settings : Settings) (sizes : PageSizes) (j : EventStore) (view : EventView) (limit : Nat) :
    List EventRow → Nat → List JournalEntry → Nat → Except JournalError (List JournalEntry × Nat)
  | [], after, result, _ => .ok (result, after)
  | row :: rows, after, result, pageBytes => do
    match ← viewEntry settings j view row with
    | none => readEventPage settings sizes j view limit rows row.cursor result pageBytes
    | some entry =>
      let size := sizes.eventBytes entry.event
      if result ≠ [] ∧ sizes.pageBytes < pageBytes + size then return (result, after)
      else if (result ++ [entry]).length = limit then return (result ++ [entry], row.cursor)
      else readEventPage settings sizes j view limit rows row.cursor (result ++ [entry]) (pageBytes + size)

def readEvents (settings : Settings) (sizes : PageSizes) (j : EventStore) (view : EventView)
    (checkpoint : Option JournalCheckpoint) (limit : Nat) : Except JournalError JournalEventPage := do
  validateLimit limit
  let boundary := readBoundary j
  let after ← checkpointPosition checkpoint boundary boundary.cursor
  let rows := (j.events.filter (fun r => decide (after < r.cursor))).take 1000
  let (result, after) ← readEventPage settings sizes j view limit rows after [] 0
  return ⟨result, boundary, after⟩

def readChangePage (settings : Settings) (sizes : PageSizes) (j : EventStore) :
    List ChangeRow → Nat → List JournalChangeEntry → Nat → Except JournalError (List JournalChangeEntry × Nat)
  | [], after, result, _ => .ok (result, after)
  | row :: rows, after, result, size => do
    let item ← decodeChange settings j row
    let itemSize := sizes.changeBytes item
    if result ≠ [] ∧ sizes.pageBytes < size + itemSize then return (result, after)
    else readChangePage settings sizes j rows row.changeCursor (result ++ [item]) (size + itemSize)

def readChanges (settings : Settings) (sizes : PageSizes) (j : EventStore)
    (checkpoint : Option JournalCheckpoint) (limit : Nat) : Except JournalError JournalChangePage := do
  validateLimit limit
  let boundary := readBoundary j
  let after ← checkpointPosition checkpoint boundary boundary.changeCursor
  let rows := (j.changes.filter (fun c => decide (after < c.changeCursor))).take limit
  let (result, after) ← readChangePage settings sizes j rows after [] 0
  return ⟨result, boundary, after⟩

structure FilteredCheckpoint where
  journalId : String
  generation : String
  cursor : Nat
  publicationId : String
  deriving DecidableEq

inductive PageSource where
  | filtered
  | journal
  deriving DecidableEq

structure FilteredPage where
  events : List JournalEntry
  boundary : JournalReadBoundary
  after : Nat
  hasMore : Bool
  source : PageSource
  publicationId : String

def FilteredPage.checkpoint (page : FilteredPage) : FilteredCheckpoint :=
  ⟨page.boundary.journalId, page.boundary.generation, page.after, page.publicationId⟩

/-- The rows beyond a position, up to the limit and the bytes of a page. -/
def readDerivedRows (settings : Settings) (sizes : PageSizes) (limit : Nat) :
    List JournalEntry → Nat → List JournalEntry → Nat → Except JournalError (List JournalEntry × Nat × Bool)
  | [], after, entries, _ => .ok (entries, after, false)
  | row :: rows, after, entries, size => do
    let itemSize := sizes.eventBytes row.event
    if entries.length = limit ∨ (entries ≠ [] ∧ sizes.pageBytes < size + itemSize) then
      return (entries, after, true)
    else
      rejectIf (row.event.valid settings = false) (.value "Invalid derived event identity.")
      rejectIf (row.provisional ≠ (row.effectiveAuthor == some .participant))
        (.value "Invalid derived result state.")
      readDerivedRows settings sizes limit rows row.cursor (entries ++ [row]) (size + itemSize)

def readDerivedPage (settings : Settings) (sizes : PageSizes) (rows : List JournalEntry) (after limit : Nat)
    (metadata : FilteredPublication) : Except JournalError (List JournalEntry × Nat × Bool) := do
  let beyond := (rows.filter (fun r => decide (after < r.cursor))).take (limit + 1)
  let (entries, after, more) ← readDerivedRows settings sizes limit beyond after [] 0
  return (entries, if more then after else metadata.boundary.cursor, more)

def sourcePublication (boundary : JournalReadBoundary) : String :=
  "source:" ++ boundary.generation ++ ":" ++ toString boundary.changeCursor

def fallbackPage (settings : Settings) (sizes : PageSizes) (source : EventStore)
    (checkpoint : Option FilteredCheckpoint) (limit : Nat) : Except JournalError FilteredPage := do
  let base := checkpoint.map (fun c => JournalCheckpoint.mk c.journalId c.generation c.cursor)
  let page ← readEvents settings sizes source .effective base limit
  let publication := sourcePublication page.boundary
  rejectIf (checkpoint.any (fun c => c.publicationId != publication) = true)
    (.state "Publication changed; restart reading from the first page.")
  return ⟨page.events, page.boundary, page.after, page.hasMore, .journal, publication⟩

/-- A page from the current publication; without one the primary journal is read. -/
def publicationPage (settings : Settings) (sizes : PageSizes) (view : FilteredView)
    (metadata : FilteredPublication) (checkpoint : Option FilteredCheckpoint) (limit : Nat) :
    Except JournalError FilteredPage := do
  rejectIf (checkpoint.any (fun c => c.publicationId != metadata.publicationId) = true)
    (.state "Publication changed; restart reading from the first page.")
  let after := (checkpoint.map FilteredCheckpoint.cursor).getD 0
  rejectIf (metadata.boundary.cursor < after) (.state "Checkpoint is beyond this publication.")
  let (entries, after, more) ← readDerivedPage settings sizes view.rows after limit metadata
  return ⟨entries, metadata.boundary, after, more, .filtered, metadata.publicationId⟩

/-- The publication that `read_events` reads, if one is current and its file is open. -/
def Publisher.current (p : Publisher) (connected : Bool) : Option FilteredPublication :=
  if connected ∧ p.lastError = none then
    p.view.publication.filter (fun m => m.boundary.journalId == p.source.journalId &&
      m.boundary.generation == p.source.generation)
  else none

/-- A derived page that cannot be read is reported, and the primary journal answers instead. -/
def Publisher.readEvents (settings : Settings) (sizes : PageSizes) (p : Publisher) (connected : Bool)
    (envelope : JournalEvent) (checkpoint : Option FilteredCheckpoint) (limit : Nat) :
    Except JournalError (FilteredPage × Publisher) := do
  validateLimit limit
  rejectIf (checkpoint.any (fun c => (c.journalId, c.generation) != (p.source.journalId, p.source.generation))
    = true) .generationChanged
  match p.current connected with
  | none =>
    let page ← fallbackPage settings sizes p.source checkpoint limit
    return (page, p)
  | some metadata =>
    match publicationPage settings sizes p.view metadata checkpoint limit with
    | .ok page => return (page, p)
    | .error (.state message) => .error (.state message)
    | .error .generationChanged => .error .generationChanged
    | .error (.value message) | .error (.storage message) | .error (.key message) =>
      let q ← p.reportRefreshFailure settings "ValueError" message envelope
      let page ← fallbackPage settings sizes q.source checkpoint limit
      return (page, q)

end ModularPipelines.Journal
