import ModularPipelines.Runner.Control

namespace ModularPipelines.Runner
open Library Services

/-- A definition without its snapshot policy. -/
def StageDefinition.fingerprint (d : StageDefinition) : StageDefinition := { d with snapshotAfter := false }

/-- A service that one of two templates adds, removes or changes. -/
def serviceChanged (previous candidate : ExperimentTemplate) (serviceId : String) : Bool :=
  previous.services.find? (·.serviceId == serviceId) != candidate.services.find? (·.serviceId == serviceId)

/-- How many leading nodes two DAGs share; a call of a changed service is not shared. -/
def sharedPrefix (changed : String → Bool) : List StageDefinition → List StageDefinition → Nat
  | before :: old, after :: new =>
    if before.fingerprint ≠ after.fingerprint ∨ before.serviceId.any changed = true then 0
    else sharedPrefix changed old new + 1
  | _, _ => 0

structure ReloadLayout where
  previous : ExperimentTemplate
  candidate : ExperimentTemplate
  sharedLength : Nat
  nextPosition : Nat
  deriving DecidableEq

/-- The zero-based position where a candidate has the first of some nodes. -/
def firstKept (candidate : ExperimentTemplate) (stages : List StageDefinition) : Nat :=
  (stages.findSome? (fun d => (candidate.positionOf d.stageId).map (· - 1))).getD candidate.stages.length

/-- `_reload_layout` -/
def reloadLayout (previous candidate : ExperimentTemplate) (position : Nat) (pendingAdvance : Bool) :
    Except RunnerError ReloadLayout := do
  let sharedLength := sharedPrefix (serviceChanged previous candidate) previous.stages candidate.stages
  let oldNext := position + pendingAdvance.toNat - 1
  rejectIf (position + pendingAdvance.toNat < 1 ∨ previous.stages.length < oldNext)
    (.value "Saved cursor is outside the applied DAG.")
  let next := if oldNext = sharedLength then sharedLength else firstKept candidate (previous.stages.drop oldNext)
  pure ⟨previous, candidate, sharedLength, next⟩

structure ReloadCursor where
  nextPosition : Nat
  stagePosition : Nat
  pendingAdvance : Bool
  rewind : Bool
  preserved : List String
  deriving DecidableEq

/-- `_reload_cursor`: completed work after the shared nodes rewinds the cursor. -/
def reloadCursor (layout : ReloadLayout) (completed : List String) : ReloadCursor :=
  let invalidated := (layout.previous.stages.drop layout.sharedLength).map StageDefinition.stageId
  let rewind := invalidated.any (completed.contains ·) && decide (layout.sharedLength < layout.nextPosition)
  let size := layout.candidate.stages.length
  let next := min (if rewind then layout.sharedLength else layout.nextPosition) size
  let atEnd := next == size
  ⟨next, if atEnd then size else next + 1, atEnd, rewind,
    (layout.candidate.stages.take layout.sharedLength).map StageDefinition.stageId⟩

/-- `_prepare_reload_candidate`: only stages and services may change, and no ID its role. -/
def checkReloadCandidate (s : RunnerState) (candidate : ExperimentTemplate) : Except RunnerError Unit := do
  rejectIf (candidate.cycles ≠ s.template.cycles) (.value "reload_template cannot change cycles.")
  rejectIf (candidate.snapshots ≠ s.template.snapshots) (.value "reload_template cannot change snapshots.")
  let services := s.template.services.map ServiceDefinition.serviceId
  rejectIf (∃ id ∈ candidate.stageIds, id ∈ services) (.value "A stable definition ID cannot change its role.")
  rejectIf (∃ id ∈ candidate.services.map ServiceDefinition.serviceId, id ∈ s.template.stageIds ∧ id ∉ services)
    (.value "A stable definition ID cannot change its role.")

def reloadAllowed (r : ExperimentRunner) : Except RunnerError ActiveRunner := do
  let a ← requireActive r
  rejectIf (a.closed = true ∨ a.stopRequested = true ∨ a.maintenance = true ∨ a.serviceRetrying = true ∨
      a.state.pendingRebuild ≠ none ∨ a.state.mode ≠ .paused ∨ a.state.phase ≠ .waiting ∨ a.idle = false ∨
      a.state.activeAttempt ≠ none ∨ a.stepFuture = true ∨
      (a.state.services.values.any fun i =>
        i.manuallyStopped || i.blockedAction.isSome || !i.ready || i.stopped || i.stopping) = true)
    (.runtime "reload_template requires an idle pause with ready services.")
  pure a

/-- The part of a plan that the published state depends on. -/
structure ReloadPlan where
  candidate : ExperimentTemplate
  cursor : ReloadCursor
  candidateRevision : String
  candidateRun : String
  operationId : String
  deriving DecidableEq

/-- `_plan_reload_application` -/
def planReload (a : ActiveRunner) (candidate : ExperimentTemplate) (completed : List String)
    (revision run operationId : String) : Except RunnerError ReloadPlan := do
  checkReloadCandidate a.state candidate
  let layout ← reloadLayout a.state.template candidate a.state.stagePosition a.pendingAdvance
  pure ⟨candidate, reloadCursor layout completed, revision, run, operationId⟩

/-- The intent that survives a crash, with its protective snapshot. -/
def beginRebuild (a : ActiveRunner) (plan : ReloadPlan) (snapshotId : String) : ActiveRunner :=
  { a with state := { a.state with
      stableSnapshotId := some snapshotId
      pendingRebuild := some ⟨plan.operationId, snapshotId, plan.candidateRevision, plan.candidateRun⟩
      phase := .rebuilding } }

/-- The conditional input that the new DAG can still use. -/
def keptInput (s : RunnerState) (plan : ReloadPlan) : Option PendingInput :=
  s.pendingInput.filter (fun i =>
    plan.cursor.preserved.contains i.sourceStageId && plan.cursor.preserved.contains i.stageId &&
      (plan.candidate.stageAt plan.cursor.stagePosition).map StageDefinition.stageId == some i.stageId)

def keptDecision (s : RunnerState) (plan : ReloadPlan) : Option LastDecision :=
  s.lastDagDecision.filter (fun d =>
    plan.cursor.preserved.contains d.sourceStageId &&
      !((d.decision.bind DagCommand.target?).isSome && (keptInput s plan).isNone))

/-- The accepted result before the new cursor, read back from the journal. -/
def predecessorResult (journal : ResultTable) (s : RunnerState) (plan : ReloadPlan) :
    Except RunnerError (Option (String × Json)) :=
  match (plan.candidate.stageAt plan.cursor.nextPosition).bind (fun d => s.stageResultIds.get? d.stageId) with
  | none => .ok none
  | some requestId =>
    match (journal.get? requestId).filter JournalResult.accepted with
    | none => .error (.value "Retained predecessor has no accepted journal result.")
    | some record => .ok (some (requestId, record.response.data))

/-- The new template, cursor and results; the predecessor of the cursor gives the last result. -/
def ActiveRunner.publish (a : ActiveRunner) (plan : ReloadPlan) (last : Option (String × Json)) : ActiveRunner :=
  let kept := a.state.keepResults (fun k => plan.cursor.preserved.contains k)
  { a with
    pendingAdvance := plan.cursor.pendingAdvance
    state := { kept with
      template := plan.candidate
      runId := plan.candidateRun
      templateRevisionId := plan.candidateRevision
      stageRetryCounts := kept.stageRetryCounts.keep (fun k => plan.cursor.preserved.contains k)
      stagePosition := plan.cursor.stagePosition
      pendingAdvance := plan.cursor.pendingAdvance
      pendingInput := keptInput a.state plan
      lastDagDecision := keptDecision a.state plan
      lastResult := (last.map Prod.snd).getD .null
      lastResultId := last.map Prod.fst } }

/-- `_publish_reload_dag` -/
def publishReload (journal : ResultTable) (a : ActiveRunner) (plan : ReloadPlan) :
    Except RunnerError ActiveRunner := do
  let kept := a.state.keepResults (fun k => plan.cursor.preserved.contains k)
  let last ← predecessorResult journal kept plan
  pure (a.publish plan last)

/-- `_commit_reload` -/
def commitReload (a : ActiveRunner) : ActiveRunner :=
  { a with state := { a.state with
      phase := .waiting
      mode := .paused
      pauseRequested := false
      pendingRebuild := none } }

/-- `_restored_saved_state` of the protective snapshot, once its services are ready again. -/
def restoreProtective (a : ActiveRunner) (saved : RunnerState) (services : Dict ServiceInstance) : ActiveRunner :=
  let origins := saved.stageResultIds.keys.foldl
    (fun o key => if o.contains key then o else o.set key saved.experimentId) saved.stageResultOrigins
  { a with
    pendingAdvance := saved.pendingAdvance
    state := { saved with
      mode := .paused
      phase := .waiting
      pauseRequested := false
      checkpointId := none
      stageResultOrigins := origins
      usedRequestIds := (saved.usedRequestIds ++ a.state.usedRequestIds).dedup.mergeSort
        (fun x y => decide (x ≤ y))
      services := services } }

/-- A scheduler that `_advance_dag` starts again on the selected state. -/
def restartScheduler (a : ActiveRunner) : Except RunnerError ActiveRunner := do
  let a ← applyPendingDagDecision { a with desiredMode := .paused, pendingAdvance := a.state.pendingAdvance }
  let s := { a.state with mode := a.desiredMode }
  pure { a with
    maintenance := false
    task := .running
    ready := true
    idle := true
    state := { s with
      lastDagDecision := if s.mode = .running ∧ s.conditionalPause = true then none else s.lastDagDecision
      phase := if s.mode = .paused then .waiting else .starting } }

end ModularPipelines.Runner
