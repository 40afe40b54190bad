import ModularPipelines.Services.Shutdown
import Mathlib.Algebra.GroupWithZero.Nat

namespace ModularPipelines.Snapshots
open Library Runner Services

/-- Classes of exceptions; `os` is every `OSError` but `FileNotFoundError`, and `other` is one that
no handler names, such as `yaml.YAMLError`. -/
inductive ErrorClass where
  | value
  | fileNotFound
  | os
  | runtime
  | logging
  | type
  | key
  | other
  deriving DecidableEq, Repr

structure Raised where
  kind : ErrorClass
  message : String
  deriving DecidableEq, Repr

def Raised.value (message : String) : Raised := ⟨.value, message⟩

def Raised.runtime (message : String) : Raised := ⟨.runtime, message⟩

structure SnapshotFile where
  path : String
  sizeBytes : Nat
  sha256 : String
  deriving DecidableEq, Repr

structure SnapshotPayload where
  snapshotId : String
  experimentId : String
  experimentFolder : String
  files : List SnapshotFile
  directories : List String
  services : Dict (Option String)
  deriving DecidableEq

/-- A file that `os.walk` names, with the reading of its size and digest. -/
structure WalkedFile where
  path : String
  regular : Bool
  reading : Except Raised (Nat × String)

structure WalkedFolder where
  path : String
  linkedChild : Bool
  files : List WalkedFile

/-- The walk below `files` or below `journal`. -/
structure Walk where
  present : Bool
  folders : List WalkedFolder

/-- A snapshot folder, as far as it is read: every entry that touches the disk can raise. -/
structure SnapshotFolder where
  confined : Bool
  manifestConfined : Bool
  manifest : Except Raised SnapshotPayload
  membersConfined : Bool
  filesTop : Walk
  journalTop : Walk
  state : Except Raised RunnerState
  templatePath : Bool
  template : Except Raised Bool
  modules : List (Except Raised Bool)
  present : String → Bool
  exportConfined : String → String → Bool
  journalManifest : Except Raised Bool
  journal : Except Raised Unit

def SnapshotPayload.checkFile (p : SnapshotPayload) (file : WalkedFile) : Except Raised Unit := do
  rejectIf (file.regular = false) (.value "Snapshot files must be regular files.")
  match p.files.find? (fun expected => expected.path == file.path) with
  | none => .error (.value "Invalid snapshot file inventory.")
  | some expected => do
    let (size, digest) ← file.reading
    rejectIf (size ≠ expected.sizeBytes ∨ digest ≠ expected.sha256)
      (.value ("Snapshot file checksum mismatch: " ++ file.path))

def SnapshotPayload.checkFolder (p : SnapshotPayload) (folder : WalkedFolder) : Except Raised Unit := do
  rejectIf (folder.linkedChild = true) (.value "Snapshot directories cannot be links.")
  folder.files.forM p.checkFile

def SnapshotPayload.checkTop (p : SnapshotPayload) (top : Walk) : Except Raised Unit := do
  rejectIf (top.present = false) (.value "Snapshot payload is missing or linked.")
  top.folders.forM p.checkFolder

def SnapshotFolder.walked (f : SnapshotFolder) : List WalkedFolder := f.filesTop.folders ++ f.journalTop.folders

/-- `_check_snapshot_inventory` -/
def SnapshotFolder.checkInventory (f : SnapshotFolder) (p : SnapshotPayload) : Except Raised Unit := do
  rejectIf (f.membersConfined = false) (.value "Snapshot member escapes its directory.")
  p.checkTop f.filesTop
  p.checkTop f.journalTop
  let files := (f.walked.flatMap WalkedFolder.files).map WalkedFile.path
  let directories := f.walked.map WalkedFolder.path
  rejectIf ((∃ x ∈ p.files, x.path ∉ files) ∨ (∃ d ∈ directories, d ∉ p.directories) ∨
      ∃ d ∈ p.directories, d ∉ directories)
    (.value "Snapshot members differ from the inventory.")

/-- `_validate_snapshot_modules`: one reading for each definition of the template. -/
def checkModules : List (Except Raised Bool) → Except Raised Unit
  | [] => .ok ()
  | reading :: rest => do
    let agrees ← reading
    rejectIf (agrees = false) (.value "Snapshot module identity or contents differ from its template.")
    checkModules rest

/-- `_load_snapshot` -/
def SnapshotFolder.load (f : SnapshotFolder) : Except Raised SnapshotPayload := do
  rejectIf (f.confined = false) (.value "Snapshot directory escapes the project.")
  rejectIf (f.manifestConfined = false) (.value "Snapshot manifest escapes its directory.")
  let payload ← f.manifest
  f.checkInventory payload
  let state ← f.state
  rejectIf (f.templatePath = false) (.value "Snapshot runner state is inconsistent.")
  let template ← f.template
  rejectIf (template = false) (.value "Snapshot template differs from its applied revision.")
  checkModules f.modules
  rejectIf (∃ path ∈ state.retainedArtifacts, f.present path = false)
    (.value "Snapshot is missing a retained conditional artifact.")
  rejectIf (∃ service ∈ state.services.keys, ∃ path ∈ (payload.services.get? service).bind id,
      f.exportConfined service path = false)
    (.value "Service export escapes its allocated snapshot directory.")
  let journalManifest ← f.journalManifest
  rejectIf (journalManifest = false) (.value "Journal manifest differs from the experiment snapshot.")
  f.journal
  return payload

inductive RestorePhase where
  | staging
  | prepared
  | filesInstalled
  | journalRestored
  | servicesStarting
  | complete
  | failed
  deriving DecidableEq, Repr

structure RestoreTransaction where
  restorationId : String
  experimentId : String
  targetFolder : String
  sourceFolder : String
  snapshotId : String
  phase : RestorePhase
  deriving DecidableEq, Repr

/-- A marker file: its document validates, or only its phase can be read, or nothing can. -/
inductive MarkerFile where
  | valid (transaction : RestoreTransaction)
  | invalid (phase : Option RestorePhase) (error : Raised)
  | unreadable (error : Raised)
  deriving DecidableEq, Repr

/-- What `restore` meets before it touches the participants. -/
structure Preflight where
  folder : String
  targetInStore : Bool
  markerConfined : Bool
  marker : Option MarkerFile
  owner : Except Raised Unit
  workConfined : Bool
  pathsConfined : Bool
  suspendedEarlier : Except Raised Unit
  stateFile : Bool
  recovered : Except Raised RunnerState
  reopenedEarlier : Except Raised Unit
  announced : List ServiceInstance
  announcedError : Option Raised
  shutdown : Shutdown
  reset : Except Raised Unit
  retired : Except Raised Unit
  snapshot : SnapshotFolder
  registry : Except Raised (Dict String)
  checkedState : Except Raised Unit
  checkedModules : Except Raised Unit
  free : Nat
  minSnapshotFreeBytes : Nat
  suspended : Except Raised Unit

namespace Preflight

def checkStore (o : Preflight) : Except Raised Unit := do
  rejectIf (o.targetInStore = false) (.value "Restoration requires an experiment folder inside the project.")
  rejectIf (o.markerConfined = false) (.value "Restore marker escapes the project.")

/-- `_check_restore_paths` -/
def checkRestorePaths (o : Preflight) (s : RunnerState) (t : RestoreTransaction) : Except Raised Unit := do
  o.owner
  rejectIf (t.targetFolder ≠ o.folder ∨ t.experimentId ≠ s.experimentId ∨ o.workConfined = false)
    (.value "Restore transaction belongs to another experiment.")
  rejectIf (o.pathsConfined = false) (.value "Restoration paths cannot escape the project.")

def announce (s : RunnerState) (found : List ServiceInstance) : RunnerState :=
  { s with services := found.foldl (fun d i => d.set i.serviceId i) s.services }

/-- `_stop_interrupted_restore`: the state on disk replaces the one in memory, and the
services that it or their own records name are stopped. -/
def stopInterrupted (o : Preflight) (s : RunnerState) : RunnerState × Except Raised Unit :=
  if o.stateFile = false then
    (s, .error (.runtime "Restored participant state is missing; termination cannot be confirmed."))
  else match o.recovered with
    | .error e => (s, .error e)
    | .ok recovered =>
      if recovered.experimentId ≠ s.experimentId then
        (s, .error (.value "Restored participant state belongs to another experiment."))
      else match o.reopenedEarlier with
        | .error e => (recovered, .error e)
        | .ok () =>
          match o.announcedError with
          | some e => (announce recovered o.announced, .error e)
          | none =>
            let stopped := stopAll o.shutdown (announce recovered o.announced)
            if allStopped stopped = false ∨ ∃ service ∈ stopped.services.keys, (o.shutdown.error service).isSome then
              (stopped, .error (.runtime "Interrupted restoration participants have not stopped cleanly."))
            else (stopped, o.reset)

def retire (o : Preflight) (s : RunnerState) : RunnerState × Option MarkerFile × Except Raised Bool :=
  match o.retired with
  | .error e => (s, o.marker, .error e)
  | .ok () => (s, none, .ok false)

/-- A failed transaction gives way once its participants have stopped. -/
def retryFailed (o : Preflight) (s : RunnerState) : RunnerState × Option MarkerFile × Except Raised Bool :=
  match o.suspendedEarlier with
  | .error e => (s, o.marker, .error e)
  | .ok () =>
    match o.stopInterrupted s with
    | (s, .error e) => (s, o.marker, .error e)
    | (s, .ok ()) => o.retire s

/-- The transaction that an earlier restoration left. `true` says that it is resumed;
its participants were stopped before it was recorded. -/
def settleEarlier (o : Preflight) (s : RunnerState) (snapshotId : String) :
    RunnerState × Option MarkerFile × Except Raised Bool :=
  match o.marker with
  | none => (s, none, .ok false)
  | some (.unreadable e) => (s, o.marker, .error e)
  | some (.invalid _ e) => (s, o.marker, .error e)
  | some (.valid t) =>
    match o.checkRestorePaths s t with
    | .error e => (s, o.marker, .error e)
    | .ok () =>
      if t.phase = .failed then o.retryFailed s
      else if t.phase = .complete then o.retire s
      else if t.snapshotId = snapshotId ∧ t.sourceFolder = o.folder then (s, o.marker, .ok true)
      else (s, o.marker, .error (.runtime "Resolve the existing restoration transaction first."))

/-- The checks of the selected snapshot, in their order. -/
def checkSelection (o : Preflight) (s : RunnerState) (snapshotId : String) : Except Raised Unit := do
  let manifest ← o.snapshot.load
  rejectIf (manifest.snapshotId ≠ snapshotId ∨ manifest.experimentFolder ≠ o.folder)
    (.value "Snapshot identity differs from its selected directory.")
  let registry ← o.registry
  rejectIf (registry.get? manifest.experimentId ≠ some o.folder)
    (.value "Snapshot belongs to another registered experiment.")
  rejectIf (manifest.experimentId ≠ s.experimentId) (.value "Rollback snapshot belongs to another experiment.")
  o.checkedState
  o.checkedModules
  rejectIf (o.free < 3 * (manifest.files.map SnapshotFile.sizeBytes).sum + o.minSnapshotFreeBytes)
    ⟨.os, "Insufficient free space to stage and validate restoration."⟩
  o.suspended

/-- `restore` up to its participant barrier, for a rollback. -/
def restore (o : Preflight) (s : RunnerState) (snapshotId : String) :
    RunnerState × Option MarkerFile × Except Raised Unit :=
  match o.checkStore with
  | .error e => (s, o.marker, .error e)
  | .ok () =>
    match o.settleEarlier s snapshotId with
    | (s, marker, .error e) => (s, marker, .error e)
    | (s, marker, .ok true) => (s, marker, .ok ())
    | (s, marker, .ok false) => (s, marker, o.checkSelection s snapshotId)

end Preflight

end ModularPipelines.Snapshots
