import ModularPipelines.Snapshots.Documents

namespace ModularPipelines.Snapshots
open Library Services Runner

/-- `_restored_service` -/
def restoredService (i : ServiceInstance) : ServiceInstance :=
  { i with
    processIdentity := none
    ready := false
    everReady := false
    stopping := false
    stopped := true
    blockedAction := none
    failure := none
    activeRequest := none
    pendingRequests := [] }

/-- A stop that completed in the snapshot is not issued again. -/
def restoredDecision (s : RunnerState) : Option LastDecision :=
  if s.phase = .stopped ∧ lastIsStop s = true then none else s.lastDagDecision

/-- `_restored_saved_state` -/
def restoredSavedState (p : PublishedPayload) (stopped : RunnerState) (experimentId runId : String) : RunnerState :=
  { p.state with
    experimentId := experimentId
    runId := runId
    mode := .paused
    phase := .restoring
    pauseRequested := false
    checkpointId := none
    lastDagDecision := restoredDecision p.state
    usedRequestIds := (p.state.usedRequestIds ++ stopped.usedRequestIds).dedup.mergeSort (fun x y => decide (x ≤ y))
    stageResultOrigins := p.state.stageResultIds.keys.foldl
      (fun o key => if o.contains key then o else o.set key p.experimentId) p.state.stageResultOrigins
    services := p.state.services.mapValues restoredService }

/-- The requests of the services that are up again, and the services. -/
def serveRestored (s : RunnerState) (services : Dict ServiceInstance) (requestIds : List String) : RunnerState :=
  { requestIds.foldl RunnerState.useRequest s with services := services }

/-- The end of `_prepare_dag_state`. -/
def startScheduler (a : ActiveRunner) : ActiveRunner :=
  let s := { a.state with mode := a.desiredMode }
  { a with
    maintenance := false
    task := .running
    ready := true
    idle := true
    state := { s with
      lastDagDecision := if s.mode = .running ∧ s.conditionalPause = true then none else s.lastDagDecision
      phase := if s.mode = .paused then .waiting else .starting } }

/-- `_prepare_dag_state` of a selected state without an attempt. -/
def prepareDagState (a : ActiveRunner) (desired : Mode) (journal : ResultTable) : Except RunnerError Machine := do
  let b ← applyPendingDagDecision { a with desiredMode := desired, pendingAdvance := a.state.pendingAdvance }
  if a.state.pendingDagDecision.isSome && lastIsStop b.state then
    pure (Machine.synced ⟨b.stop .stopped, .ended, journal, false⟩)
  else pure (Machine.synced ⟨startScheduler b, .waiting, journal, false⟩)

/-- `_activate_restored_state` and the scheduler that it starts. -/
def activateRestored (a : ActiveRunner) (s : RunnerState) (journal : ResultTable) : Except RunnerError Machine :=
  let a := { a with
    stopRequested := false
    stageTask := false
    maintenance := false
    pendingAdvance := s.pendingAdvance
    desiredMode := .paused
    state := s }
  if lastIsStop s then .ok ⟨a.stop .stopped, .ended, journal, false⟩ else prepareDagState a .paused journal

/-- A rollback past its participant barrier; `stopIds` are the requests of the shutdown. -/
def rollbackTo (m : Machine) (p : PublishedPayload) (runId : String) (services : Dict ServiceInstance)
    (stopIds startIds : List String) : Except RunnerError Machine := do
  rejectIf (p.experimentId ≠ m.runner.state.experimentId)
    (.value "Cached restoration snapshot has a different identity.")
  let stopped := stopIds.foldl RunnerState.useRequest m.runner.state
  let restored := restoredSavedState p stopped m.runner.state.experimentId runId
  activateRestored m.runner (serveRestored restored services startIds) p.journal

/-- A snapshot that no cycle is left of. -/
def exhausted (s : RunnerState) : Bool :=
  s.phase == .completed ||
    (s.pendingAdvance && s.cycleNumber == s.template.cycles && s.stagePosition == s.template.stages.length &&
      !(s.pendingDagDecision.any (fun d => d.decision.isSome)) && !s.conditionalPause)

/-- `_prepare_continuation` and the scheduler that goes on with it. -/
def continueFrom (p : PublishedPayload) (experimentId runId : String) (desired : Mode) (services : Dict ServiceInstance)
    (startIds : List String) : Except RunnerError Machine := do
  rejectIf (exhausted p.state = true) (.runtime "The snapshot has no remaining cycles; use experiment rerun.")
  let target := Machine.fresh experimentId runId p.state.templateRevisionId p.state.template .empty desired
  let restored := restoredSavedState p target.runner.state experimentId runId
  prepareDagState { target.runner with state := serveRestored restored services startIds } desired p.journal

/-- `_stop` from outside, once every participant is down; an interrupted attempt starts over. -/
def interruptRun (m : Machine) : Machine :=
  let phase :=
    if m.runner.state.phase = .restoring ∨ m.runner.state.pendingRebuild ≠ none then .failed
    else if m.runner.state.phase = .completed ∨ m.runner.state.phase = .failed then m.runner.state.phase
    else .stopped
  let advance := m.runner.pendingAdvance && m.runner.state.activeAttempt.isNone
  (m.ends { m.runner.stop phase with pendingAdvance := advance }).synced

end ModularPipelines.Snapshots
