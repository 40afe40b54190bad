import ModularPipelines.Library.OrderedTable
import ModularPipelines.Snapshots.Preflight

namespace ModularPipelines.Snapshots
open Library Runner Services

/-- The largest sequence number that a manifest may have. -/
def lastSequence : Int := 9223372036854775807

inductive EntryKind where
  | directory
  | link
  | file
  deriving DecidableEq

/-- The header of a manifest; `sequence` is there when it is an integer, and `wellFormed` is
about every other field. -/
structure ManifestHeader where
  sequence : Option Int
  snapshotId : String
  experimentId : String
  experimentFolder : String
  wellFormed : Bool

/-- The sequence number of a header that validates. -/
def ManifestHeader.number (h : ManifestHeader) : Option Int :=
  if h.wellFormed then h.sequence.filter (fun n => decide (0 < n ∧ n ≤ lastSequence)) else none

/-- An entry of a snapshot store. Its header and its payload are read from one manifest, which has to
be there, and no payload is read through a link. -/
structure StoreEntry where
  name : String
  kind : EntryKind
  linkedManifest : Bool
  manifestExists : Bool
  header : Except Raised ManifestHeader
  folder : SnapshotFolder
  direct : folder.confined = true → kind = .directory
  own : folder.manifestConfined = true → linkedManifest = false
  sameManifest : ∀ p, folder.manifest = .ok p → manifestExists = true ∧ ∃ h n, header = .ok h ∧ h.number = some n ∧
    p.snapshotId = h.snapshotId ∧ p.experimentId = h.experimentId ∧ p.experimentFolder = h.experimentFolder
  missing : manifestExists = false → ∃ raised, header = .error raised ∧ (raised.kind = .os ∨ raised.kind = .fileNotFound)

def StoreEntry.number (e : StoreEntry) : Option Int := e.header.toOption.bind ManifestHeader.number

/-- The folder of one experiment's snapshots. -/
structure SnapshotStore where
  entries : List StoreEntry
  distinct : (entries.map StoreEntry.name).Nodup

def hexDigit (c : Char) : Bool := c.isDigit || ('a' ≤ c && c ≤ 'f')

/-- The text of a UUID as it is printed. -/
def uuidText (s : String) : Bool :=
  match s.toList.splitOn '-' with
  | [a, b, c, d, e] => [a, b, c, d, e].map List.length == [8, 4, 4, 4, 12] && [a, b, c, d, e].all (fun part => part.all hexDigit)
  | _ => false

/-- The entries that retention may delete. -/
def StoreEntry.owned (e : StoreEntry) : Bool := e.kind == .directory && uuidText e.name

abbrev Candidate := Int × StoreEntry

/-- The newer candidate comes first; equal numbers are ordered by path. -/
def newerFirst (a b : Candidate) : Bool := decide (b.1 < a.1) || (a.1 == b.1 && decide (b.2.name ≤ a.2.name))

def ranked (candidates : List Candidate) : List Candidate := candidates.mergeSort newerFirst

/-- A header that names its own folder and this experiment. -/
def StoreEntry.candidate (experimentId experimentFolder : String) (e : StoreEntry) : Except Raised (Option Candidate) :=
  if e.owned && !e.linkedManifest then
    match e.header with
    | .ok h => .ok
      (if h.snapshotId = e.name ∧ h.experimentId = experimentId ∧ h.experimentFolder = experimentFolder then
        h.number.map (fun n => (n, e))
      else none)
    | .error raised =>
      if raised.kind = .os ∨ raised.kind = .fileNotFound ∨ raised.kind = .value ∨ raised.kind = .type then .ok none
      else .error raised
  else .ok none

/-- `_retention_candidates` -/
def retentionCandidates (store : SnapshotStore) (experimentId experimentFolder : String) :
    Except Raised (List Candidate) := do
  let read ← store.entries.mapM (StoreEntry.candidate experimentId experimentFolder)
  return ranked read.reduceOption

/-- The classes that both scans name when they read a candidate. -/
def Raised.passedOver (raised : Raised) : Bool := raised.kind != .runtime && raised.kind != .other

def matches? (experimentId experimentFolder : String) (e : StoreEntry) (p : SnapshotPayload) : Bool :=
  p.snapshotId == e.name && p.experimentId == experimentId && p.experimentFolder == experimentFolder

/-- A candidate that cannot be read is passed over, unless reading it raises a class that is not named. -/
def retainedSnapshot (experimentId experimentFolder : String) (e : StoreEntry) : Except Raised Bool :=
  match e.folder.load with
  | .ok p => .ok (matches? experimentId experimentFolder e p)
  | .error raised => if raised.passedOver then .ok false else .error raised

/-- Candidates are validated until enough are retained. -/
def selectRetained (experimentId experimentFolder published : String) (keep : Nat) :
    List String → List Candidate → Except Raised (List String)
  | retained, [] => .ok retained
  | retained, (_, e) :: rest =>
    if keep ≤ retained.length then .ok retained
    else if e.name = published then selectRetained experimentId experimentFolder published keep retained rest
    else do
      let valid ← retainedSnapshot experimentId experimentFolder e
      selectRetained experimentId experimentFolder published keep (if valid then retained ++ [e.name] else retained) rest

/-- `_retain_snapshots`, on a disk that deletes what it is told to. What raises does so before the first deletion. -/
def retainSnapshots (store : SnapshotStore) (experimentId experimentFolder published : String) (keep : Nat) :
    Except Raised SnapshotStore := do
  let candidates ← retentionCandidates store experimentId experimentFolder
  let retained ← selectRetained experimentId experimentFolder published keep [published] candidates
  return ⟨store.entries.filter (fun e => !e.owned || retained.contains e.name),
    store.distinct.sublist ((List.filter_sublist).map _)⟩

/-- A manifest that cannot be read is passed over; one that is no object raises. -/
def StoreEntry.readSequence (e : StoreEntry) : Except Raised (Option Int) :=
  match e.header with
  | .ok h => .ok h.sequence
  | .error raised => if raised.kind = .os ∨ raised.kind = .fileNotFound ∨ raised.kind = .value then .ok none else .error raised

/-- The manifests that `*/manifest.json` finds, also behind links. -/
def SnapshotStore.found (store : SnapshotStore) : List StoreEntry :=
  store.entries.filter (fun e => e.kind != .file && e.manifestExists)

def SnapshotStore.readSequences (store : SnapshotStore) : Except Raised (List (Option Int × StoreEntry)) :=
  store.found.mapM (fun e => e.readSequence.map (fun n => (n, e)))

/-- The sequence number of the next snapshot. -/
def nextSequence (read : List (Option Int × StoreEntry)) : Int :=
  ((read.filterMap Prod.fst).filter (fun n => decide (0 < n ∧ n < lastSequence))).foldl max 0 + 1

/-- `_latest_valid` -/
def latestValid (store : SnapshotStore) (experimentFolder : String) : Except Raised StoreEntry := do
  let read ← store.readSequences
  let candidates := ranked (read.filterMap (fun r => r.1.map (fun n => (n, r.2))))
  readCandidates candidates
where
  readCandidates : List Candidate → Except Raised StoreEntry
    | [] => .error ⟨.fileNotFound, "No complete valid experiment snapshot is available."⟩
    | (_, e) :: rest =>
      match e.folder.load with
      | .ok p => if p.experimentFolder = experimentFolder ∧ p.snapshotId = e.name then .ok e else readCandidates rest
      | .error raised => if raised.passedOver then readCandidates rest else .error raised

/-- `_build_snapshot`: a valid snapshot under the next sequence number of its store. -/
structure Build (store : SnapshotStore) where
  entry : StoreEntry
  payload : SnapshotPayload
  uuid : uuidText entry.name = true
  fresh : entry.name ∉ store.entries.map StoreEntry.name
  valid : entry.folder.load = .ok payload
  named : payload.snapshotId = entry.name
  read : List (Option Int × StoreEntry)
  sequences : store.readSequences = .ok read
  number : entry.number = some (nextSequence read)

namespace Build

variable {store : SnapshotStore}

/-- The store once the manifest has been written. -/
def published (b : Build store) : SnapshotStore where
  entries := store.entries ++ [b.entry]
  distinct := by
    rw [List.map_append]
    apply store.distinct.append (List.nodup_singleton _)
    intro name hold hnew
    exact b.fresh (List.mem_singleton.mp hnew ▸ hold)

/-- The store after `_retain_snapshots`. -/
def retain (b : Build store) (keep : Nat) : Except Raised SnapshotStore :=
  retainSnapshots b.published b.payload.experimentId b.payload.experimentFolder b.entry.name keep

/-- No other valid snapshot of the folder has the last sequence number. -/
def NotExhausted (b : Build store) : Prop :=
  ∀ e ∈ store.entries, ∀ p, e.folder.load = .ok p → p.experimentFolder = b.payload.experimentFolder →
    p.snapshotId = e.name → e.number ≠ some lastSequence

/-- The entry is read before the published one. -/
def Ahead (b : Build store) (e : StoreEntry) : Prop :=
  ∃ n, e.readSequence = .ok (some n) ∧ newerFirst (n, e) (nextSequence b.read, b.entry) = true

/-- A valid snapshot of the same experiment. -/
def Valid (b : Build store) (e : StoreEntry) : Prop :=
  ∃ p, e.folder.load = .ok p ∧ matches? b.payload.experimentId b.payload.experimentFolder e p = true

end Build

/-- Reading the entry's snapshot raises only what the scans pass over. -/
def StoreEntry.Handled (e : StoreEntry) : Prop := ∀ raised, e.folder.load = .error raised → raised.passedOver = true

/-- Newer by sequence number, then by path. -/
def StoreEntry.Newer (a b : StoreEntry) : Prop :=
  ∃ m n, a.number = some m ∧ b.number = some n ∧ (n < m ∨ (m = n ∧ b.name < a.name))

/-- What retention leaves of a store. -/
structure KeepsNewest {store : SnapshotStore} (b : Build store) (keep : Nat) (out : SnapshotStore) : Prop where
  published : b.entry ∈ out.entries
  few : (out.entries.filter StoreEntry.owned).length ≤ keep
  newest : ∀ e ∈ b.published.entries, e ∉ out.entries → b.Valid e →
    ∃ kept : List StoreEntry, kept.Nodup ∧ kept.length = keep ∧ ∀ x ∈ kept, x ∈ out.entries ∧ b.Valid x ∧ x.Newer e
  only : ∀ e ∈ b.published.entries, e ∉ out.entries → e.owned = true

end ModularPipelines.Snapshots
