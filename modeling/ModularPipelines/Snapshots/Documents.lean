import Mathlib.Data.List.Infix
import ModularPipelines.Snapshots.Executors

namespace ModularPipelines.Snapshots
open Library Services Runner

/-- What a link leads to. -/
inductive LinkTarget where
  | nothing
  | file
  | directory
  deriving DecidableEq, Repr

inductive SourceKind where
  | file
  | directory
  | link (target : LinkTarget)
  | special
  deriving DecidableEq, Repr

/-- An entry of the experiment, by its path relative to the experiment. -/
structure FileEntry where
  path : String
  kind : SourceKind
  deriving DecidableEq

/-- The components of a relative path. -/
def pathParts (path : String) : List (List Char) := path.toList.splitOn '/'

def FileEntry.parts (e : FileEntry) : List (List Char) := pathParts e.path

/-- The entries of an experiment, in the order in which they are walked. -/
structure FileTree where
  entries : List FileEntry
  distinct : (entries.map FileEntry.path).Nodup
  proper : ∀ e ∈ entries, ∀ part ∈ e.parts, part ≠ [] ∧ part ≠ ['.'] ∧ part ≠ ['.', '.']
  folders : ∀ e ∈ entries, e.parts.dropLast = [] ∨
    ∃ d ∈ entries, d.kind = .directory ∧ d.parts = e.parts.dropLast

def FileTree.exists (tree : FileTree) (path : String) : Prop := ∃ e ∈ tree.entries, e.path = path

instance (tree : FileTree) (path : String) : Decidable (tree.exists path) :=
  inferInstanceAs (Decidable (∃ e ∈ tree.entries, e.path = path))

/-- The nesting that `copy_json_object` accepts. -/
def maxDepth : Nat := 32

def payloadRoots : List (List Char) :=
  ["modules".toList, "module_data".toList, "shared_settings".toList, "shared_data".toList, "shared_artifacts".toList]

def stageControlFiles : List (List Char) :=
  ["launch.json".toList, "context.json".toList, "process.json".toList, "ready.json".toList, "executor.token".toList,
    "executor.lock.json".toList, "stop.emergency.json".toList]

def servicesFolder : List (List Char) := ["shared_artifacts".toList, "services".toList]

/-- A folder that the copy does not enter: live services, and exports of other snapshots. -/
def prunedFolder (snapshotId : String) (folder : List (List Char)) : Bool :=
  folder == servicesFolder ||
    (folder.take 2 == ["shared_data".toList, "service_state".toList] && decide (4 ≤ folder.length) &&
      folder[3]? != some snapshotId.toList)

def copiedFolder (snapshotId : String) (folder : List (List Char)) : Bool :=
  folder.head?.any (payloadRoots.contains ·) && folder.inits.all (fun f => !prunedFolder snapshotId f)

/-- A live control file of a stage attempt. -/
def controlFile (folder : List (List Char)) (filename : List Char) : Bool :=
  decide (folder.length = 5) && folder[0]? == some "shared_artifacts".toList &&
    folder[1]?.any ("epoch_".toList.isPrefixOf ·) && folder[4]?.any ("attempt_".toList.isPrefixOf ·) &&
      (stageControlFiles.contains filename ||
        ("executor.lock.".toList.isPrefixOf filename && ".token".toList.isSuffixOf filename))

/-- `_copy_snapshot_payload` for one entry of the experiment. -/
def copies (snapshotId : String) (e : FileEntry) : Bool :=
  match e.kind with
  | .directory => copiedFolder snapshotId e.parts
  | .file => copiedFolder snapshotId e.parts.dropLast && !controlFile e.parts.dropLast (e.parts.getLastD [])
  | .link _ => false
  | .special => false

def copiedFiles (snapshotId : String) (tree : FileTree) : List FileEntry := tree.entries.filter (copies snapshotId)

/-- What the copy raises at an entry of a folder that it walks, or at one of the folders that it starts from. -/
def checkSource (snapshotId : String) (e : FileEntry) : Except RunnerError Unit :=
  let walked := copiedFolder snapshotId e.parts.dropLast = true
  match e.kind with
  | .file => .ok ()
  | .directory => .ok ()
  | .link target => do
    rejectIf (e.parts.length = 1 ∧ e.parts.any (payloadRoots.contains ·) = true ∧ target ≠ .nothing ∨
        walked ∧ target = .directory)
      (.value "Snapshot sources cannot contain filesystem links.")
    rejectIf walked (.value "Snapshot sources must be regular files.")
  | .special => rejectIf walked (.value "Snapshot sources must be regular files.")

/-- `_copy_snapshot_payload` -/
def copySnapshotPayload (snapshotId : String) (tree : FileTree) : Except RunnerError (List FileEntry) := do
  let _ ← tree.entries.mapM (checkSource snapshotId)
  pure (copiedFiles snapshotId tree)

/-- The entries beside the folders of the payload that a snapshot may have below `files`. -/
def payloadMembers : List (List Char) := payloadRoots ++ ["experiment.yaml".toList]

/-- A component that some file systems read as another one. -/
def unsafePart (part : List Char) : Bool :=
  part == ['.'] || part == ['.', '.'] || part.getLast?.any (fun c => c == ' ' || c == '.')

/-- `_snapshot_member`; without a colon and a backslash only a leading slash makes a path absolute. -/
def snapshotMember (name : String) : Except RunnerError Unit := do
  let parts := (pathParts name).filter (· ≠ [])
  rejectIf (name = "" ∨ '\\' ∈ name.toList ∨ ':' ∈ name.toList ∨ name.toList.head? = some '/' ∨
      (pathParts name).any unsafePart = true ∨ parts.head? ≠ some "files".toList ∧ parts.head? ≠ some "journal".toList)
    (.value "Unsafe snapshot member path.")
  rejectIf (parts.head? = some "files".toList ∧ ∃ second ∈ parts[1]?, second ∉ payloadMembers)
    (.value "Snapshot contains a runtime control file.")
  rejectIf (parts.take 3 = "files".toList :: servicesFolder)
    (.value "Snapshot contains live service control artifacts.")
  rejectIf (parts.length = 7 ∧ parts.head? = some "files".toList ∧
      controlFile parts.tail.dropLast (parts.getLastD []) = true)
    (.value "Snapshot contains live stage control artifacts.")

def memberName (e : FileEntry) : String := "files/" ++ e.path

/-- The names of `_snapshot_inventory`, directories first. -/
def inventoryNames (files : List FileEntry) : List String :=
  "files" :: "journal" :: (files.filter (·.kind == .directory)).map memberName ++
    "files/experiment.yaml" :: "journal/journal.sqlite" :: "journal/manifest.json" ::
      (files.filter (·.kind == .file)).map memberName

/-- The checks of `SnapshotInventory`, for a folding of letter case. -/
def validateInventory (casefold : String → String) (names : List String) : Except RunnerError Unit := do
  rejectIf (¬ (names.map casefold).Nodup) (.value "Snapshot paths collide.")
  let _ ← names.mapM snapshotMember

inductive SnapshotKind where
  | regular
  | final
  deriving DecidableEq, Repr

/-- The write barrier of a saved service. -/
structure Barrier where
  freezeId : Option String
  preparedFreezeId : Option String
  deriving DecidableEq

/-- A `SnapshotPayload` with all that its own checks read; `services` are the exported states. -/
structure PublishedPayload where
  experimentId : String
  snapshotId : String
  kind : SnapshotKind
  state : RunnerState
  barriers : Dict Barrier
  services : Dict String
  files : List FileEntry
  journal : ResultTable
  deriving DecidableEq

/-- `_snapshot_state`; every caller has saved the state before. -/
def snapshotState (a : ActiveRunner) (snapshotId : String) (kind : SnapshotKind) : RunnerState :=
  { a.state with
    pendingAdvance := a.pendingAdvance
    phase := if kind = .final then a.state.phase else .waiting
    mode := .paused
    pauseRequested := false
    stableSnapshotId := some snapshotId }

/-- A snapshot is taken over a barrier and does not keep it. -/
def snapshotBarriers (s : RunnerState) : Dict Barrier := ⟨s.services.entries.map (fun e => (e.1, ⟨none, none⟩))⟩

/-- The definitions of a template by their ID. -/
def serviceDefinition? (t : ExperimentTemplate) (serviceId : String) : Option ServiceDefinition :=
  t.services.reverse.find? (fun d => d.serviceId == serviceId)

def stateRequired (d : ServiceDefinition) : Bool :=
  match d.body.get? "state_required" with
  | some (.bool required) => required
  | _ => false

/-- The folder that a service exports its state to. -/
def exportFolder (snapshotId serviceId : String) : List (List Char) :=
  ["shared_data".toList, "service_state".toList, serviceId.toList, snapshotId.toList]

/-- `_save_service_state`, for the resolved path that the service reports. -/
def saveServiceState (tree : FileTree) (snapshotId : String) (exports : Dict String) (serviceId : String)
    (i : ServiceInstance) : Except RunnerError Unit := do
  rejectIf (i.ready = false) (.runtime "Snapshot requires all services to be ready.")
  match exports.get? serviceId with
  | none => rejectIf (stateRequired i.definition = true) (.value "Required service export is missing state_path.")
  | some path =>
    rejectIf (¬ ((exportFolder snapshotId serviceId).isPrefixOf (pathParts path) = true ∧ tree.exists path))
      (.value "Service state_path must exist inside its allocated export directory.")

/-- `save_states`: what the services report as their exports. -/
def saveStates (tree : FileTree) (snapshotId : String) (exports : Dict String) (s : RunnerState) :
    Except RunnerError (Dict String) := do
  rejectIf (s.manuallyStopped = true)
    (.runtime "Start manually stopped services before exporting snapshot state.")
  rejectIf (∃ i ∈ s.services.values, i.pendingRequests ≠ [] ∨ i.activeRequest ≠ none)
    (.runtime "Service work cannot be drained for this snapshot.")
  let _ ← s.services.entries.mapM (fun e => saveServiceState tree snapshotId exports e.1 e.2)
  pure (exports.keep (fun k => s.services.contains k))

namespace PublishedPayload

/-- `validate_state_references` -/
def validateStateReferences (p : PublishedPayload) : Except RunnerError Unit := do
  rejectIf (p.state.experimentId ≠ p.experimentId ∨ p.state.activeAttempt ≠ none)
    (.value "Snapshot runner state is inconsistent.")
  rejectIf (p.state.cycleNumber > p.state.template.cycles ∨ p.state.stagePosition > p.state.template.stages.length)
    (.value "Snapshot cursor is outside its DAG.")
  rejectIf (∃ k ∈ p.state.stageResultIds.keys, k ∉ p.state.template.stageIds)
    (.value "Snapshot result belongs to an unknown DAG node.")
  rejectIf (∃ id ∈ p.state.lastResultId, id ∉ p.state.stageResultIds.values ∧
      p.state.pendingInput.map PendingInput.requestId ≠ some id)
    (.value "Snapshot retained result has no matching journal reference.")
  rejectIf (p.state.lastResultId = none ∧ p.state.lastResult ≠ .null)
    (.value "Snapshot retained data has no journal reference.")

def checkExport (p : PublishedPayload) (serviceId : String) (i : ServiceInstance) : Except RunnerError Unit := do
  rejectIf (serviceDefinition? p.state.template serviceId ≠ some i.definition)
    (.value "Snapshot service settings differ from the applied template.")
  rejectIf (i.activeRequest ≠ none ∨ i.pendingRequests ≠ [] ∨
      (∃ b ∈ p.barriers.get? serviceId, b.freezeId ≠ none ∨ b.preparedFreezeId ≠ none))
    (.value "Snapshot contains unresolved service work.")
  rejectIf (p.services.get? serviceId = none ∧ stateRequired i.definition = true)
    (.value "Required service export is missing.")

/-- `validate_service_exports` -/
def validateServiceExports (p : PublishedPayload) : Except RunnerError Unit := do
  let declared := p.state.template.services.map ServiceDefinition.serviceId
  rejectIf (¬ ((∀ k ∈ p.state.services.keys, k ∈ declared) ∧ ∀ k ∈ declared, k ∈ p.state.services.keys))
    (.value "Snapshot does not describe every service.")
  rejectIf (∃ k ∈ p.services.keys, k ∉ p.state.services.keys) (.value "Snapshot exports an unknown service.")
  let _ ← p.state.services.entries.mapM (fun e => p.checkExport e.1 e.2)

/-- The check of `_load_snapshot` on the artifacts that conditional results name. -/
def checkRetainedArtifacts (p : PublishedPayload) : Except RunnerError Unit :=
  rejectIf (∃ relative ∈ p.state.retainedArtifacts, relative ∉ p.files.map FileEntry.path)
    (.value "Snapshot is missing a retained conditional artifact.")

/-- `_validate_snapshot_exports` for one service. -/
def checkExportPath (p : PublishedPayload) (serviceId : String) : Except RunnerError Unit :=
  match p.services.get? serviceId with
  | none => .ok ()
  | some path =>
    rejectIf (['.', '.'] ∈ pathParts path ∨ (exportFolder p.snapshotId serviceId).isPrefixOf (pathParts path) = false ∨
        path ∉ p.files.map FileEntry.path)
      (.value "Service export escapes its allocated snapshot directory.")

end PublishedPayload

/-- The accepted success of one stage in the exported journal. -/
def acceptedSuccess (journal : ResultTable) (requestId experimentId stageId message : String) :
    Except RunnerError StageResult := do
  match (← readResult journal requestId experimentId stageId).filter (fun r => r.succeeded && r.response.success) with
  | none => .error (.value message)
  | some record => pure record.response

def checkTransition (journal : ResultTable) (s : RunnerState) (requestId experimentId stageId : String)
    (expected : Option DagCommand) : Except RunnerError Unit := do
  let response ← acceptedSuccess journal requestId experimentId stageId "Snapshot transition has no accepted result."
  rejectIf (response.dagDecision ≠ some expected) (.value "Snapshot transition differs from its journal decision.")
  rejectIf (some requestId = s.lastResultId ∧ response.data ≠ s.lastResult)
    (.value "Snapshot transferred data differs from its journal result.")

def checkResult (journal : ResultTable) (s : RunnerState) (stageId requestId : String) : Except RunnerError Unit := do
  let response ← acceptedSuccess journal requestId (s.origin stageId) stageId
    "Snapshot result is missing or unsuccessful in its journal."
  rejectIf (some requestId = s.lastResultId ∧ response.data ≠ s.lastResult)
    (.value "Snapshot retained data differs from its journal result.")

def checkNode (journal : ResultTable) (s : RunnerState) (stageId : String) : Except RunnerError Unit :=
  match s.stageResultIds.get? stageId with
  | none => .ok ()
  | some requestId => checkResult journal s stageId requestId

def checkDecision (journal : ResultTable) (s : RunnerState) (d : LastDecision) : Except RunnerError Unit :=
  checkTransition journal s d.requestId d.experimentId d.sourceStageId d.decision

/-- `_validate_journal_results` -/
def validateJournalResults (journal : ResultTable) (s : RunnerState) : Except RunnerError Unit := do
  let _ ← s.pendingInput.toList.mapM (fun i =>
    checkTransition journal s i.requestId i.experimentId i.sourceStageId (some (.move i.stageId)))
  let _ ← s.lastDagDecision.toList.mapM (checkDecision journal s)
  let _ ← s.pendingDagDecision.toList.mapM (checkDecision journal s)
  let _ ← s.stageResultIds.keys.mapM (checkNode journal s)

/-- What a snapshot meets outside of the run and its files: the steps of other components, by how they end, and what
reading the copy back finds. `template` and each of `modules` say whether the copy agrees with the applied template. -/
structure Surroundings where
  casefold : String → String
  executors : Executors
  appliedModules : Except RunnerError Unit
  free : Bool
  shutdown : Except RunnerError Unit
  recordFinalized : Except RunnerError Unit
  destination : Except RunnerError Unit
  exportJournal : Except RunnerError Unit
  manifestDepth : Nat
  template : Except RunnerError Bool
  modules : List (Except RunnerError Bool)
  copiedJournal : Except RunnerError Unit

def checkModule (reading : Except RunnerError Bool) : Except RunnerError Unit := do
  let agrees ← reading
  rejectIf (agrees = false) (.value "Snapshot module identity or contents differ from its template.")

/-- The checks of `SnapshotPayload`, and of `_load_snapshot` on what was just copied. -/
def checkSnapshot (w : Surroundings) (p : PublishedPayload) : Except RunnerError Unit := do
  p.validateStateReferences
  p.validateServiceExports
  rejectIf (maxDepth < w.manifestDepth)
    (.value "JSON data must not be cyclic or nested more than 32 levels.")
  let same ← w.template
  rejectIf (same = false) (.value "Snapshot template differs from its applied revision.")
  let _ ← w.modules.mapM checkModule
  p.checkRetainedArtifacts
  let _ ← p.state.services.keys.mapM p.checkExportPath
  w.copiedJournal
  validateJournalResults p.journal p.state

def snapshotPayload (tree : FileTree) (journal : ResultTable) (a : ActiveRunner) (exports : Dict String)
    (snapshotId : String) (kind : SnapshotKind) : PublishedPayload where
  experimentId := a.state.experimentId
  snapshotId := snapshotId
  kind := kind
  state := snapshotState a snapshotId kind
  barriers := snapshotBarriers a.state
  services := exports
  files := copiedFiles snapshotId tree
  journal := journal

/-- `_publish` up to the accepted payload. -/
def publishSnapshot (w : Surroundings) (tree : FileTree) (journal : ResultTable) (a : ActiveRunner)
    (exports : Dict String) (snapshotId : String) (kind : SnapshotKind) : Except RunnerError PublishedPayload := do
  let payload := snapshotPayload tree journal a exports snapshotId kind
  validateReferences payload.state
  w.destination
  w.exportJournal
  let files ← copySnapshotPayload snapshotId tree
  rejectIf (w.free = false) (.os "Insufficient free space while copying a snapshot.")
  validateInventory w.casefold (inventoryNames files)
  checkSnapshot w payload
  pure payload

/-- `create` of a snapshot without a label, up to the accepted payload. -/
def createSnapshot (w : Surroundings) (tree : FileTree) (journal : ResultTable) (a : ActiveRunner)
    (exports : Dict String) (snapshotId : String) : Except RunnerError PublishedPayload := do
  rejectIf (a.state.activeAttempt ≠ none) (.runtime "A snapshot requires a stage-free boundary.")
  w.appliedModules
  rejectIf (w.free = false) (.os "Insufficient free space for an experiment snapshot.")
  w.executors.close journal a.state
  let exports ← saveStates tree snapshotId exports a.state
  publishSnapshot w tree journal a exports snapshotId .regular

/-- `finalize`, up to the accepted payload. -/
def finalizeSnapshot (w : Surroundings) (tree : FileTree) (journal : ResultTable) (a : ActiveRunner)
    (exports : Dict String) (snapshotId : String) (phase : Phase) : Except RunnerError PublishedPayload := do
  rejectIf (a.state.activeAttempt ≠ none) (.runtime "Interrupt and clear the active stage before finalization.")
  let exports ← saveStates tree snapshotId exports a.state
  w.shutdown
  w.executors.close journal a.state
  w.recordFinalized
  publishSnapshot w tree journal (a.setPhase phase) exports snapshotId .final

end ModularPipelines.Snapshots
