import ModularPipelines.Runner.Execute
import ModularPipelines.Runner.Reload
import ModularPipelines.Runner.Saved

namespace ModularPipelines.Runner
open Library Services

/-- How far a template reload is; the protective state is the one in its snapshot. -/
inductive ReloadProgress where
  | begun
  | planned (plan : ReloadPlan)
  | protecting (plan : ReloadPlan) (saved : RunnerState)
  | published (plan : ReloadPlan) (saved : RunnerState)
  deriving DecidableEq

/-- Where the scheduler task is suspended. -/
inductive Point where
  | waiting
  | started (manual : Bool)
  | visiting
  | accepted (response : StageResult)
  | retrying (used : Nat) (response : StageResult)
  | finished (o : StageOutcome)
  | deciding (o : StageOutcome) (requested : Bool)
  | settling (o : StageOutcome) (final : Bool)
  | reloading (progress : ReloadProgress)
  | ended
  deriving DecidableEq

/-- A run: the runner, its scheduler task and the accepted results in the journal. -/
structure Machine where
  runner : ActiveRunner
  point : Point
  journal : ResultTable
  snapshotting : Bool
  deriving DecidableEq

inductive Action where
  | command (c : Command)
  | requestPause
  | settlePause
  | observeJournal (status : Option JournalStatus)
  | serviceWork (services : Dict ServiceInstance) (requestIds : List String)
  | endServiceControl
  | endSnapshot (created : Option String)
  | supervise
  | refuseReadiness
  | launch
  | beginAttempt (ids : AttemptIds)
  | acceptReport (report : AttemptReport) (unconfirmed : Bool)
  | conclude (artifacts : List String)
  | retry (ids : AttemptIds)
  | giveUp (action : OutcomeAction)
  | consume
  | decide (snapshotId : String)
  | boundary (snapshotId : String)
  | settle
  | complete (snapshotId : String)
  | beginReload
  | planReload (candidate : ExperimentTemplate) (completed : List String) (revision run operationId : String)
  | protectReload (snapshotId : String)
  | publishReload
  | commitReload
  | abandonReload
  | rollbackReload (services : Dict ServiceInstance)
  | save (checkpointId : String)
  | fail
  | failed

namespace ActiveRunner

def setState (a : ActiveRunner) (s : RunnerState) : ActiveRunner := { a with state := s }

def setPhase (a : ActiveRunner) (phase : Phase) : ActiveRunner := a.setState { a.state with phase := phase }

/-- The requested mode changes too. -/
def requestPause (a : ActiveRunner) : ActiveRunner :=
  a.pauseMode.setState { a.pauseMode.state with pauseRequested := true }

/-- The end of `pause`, once the current attempt is over. -/
def settlePause (a : ActiveRunner) : ActiveRunner :=
  let phase := if a.state.phase = .starting then .waiting else a.state.phase
  a.setState { a.state with mode := .paused, phase := phase }

/-- A pause that policy asks for; a waiting step fails. -/
def pausePolicy (a : ActiveRunner) : ActiveRunner := { a.requestPause with stepFuture := false }

/-- The end of `snapshot`; a cancelled call only ends the maintenance. -/
def endSnapshot (a : ActiveRunner) (created : Option String) : ActiveRunner :=
  let a := { a with maintenance := false }
  match created with
  | none => a
  | some snapshotId => a.setState { a.state with stableSnapshotId := some snapshotId, phase := .waiting }

/-- What `_advance_dag` and its callers leave when the scheduler task ends. -/
def release (a : ActiveRunner) : ActiveRunner :=
  { a with
    task := .done
    stageTask := false
    ready := true
    idle := true
    stopRequested := true
    maintenance := false }

def stop (a : ActiveRunner) (phase : Phase) : ActiveRunner :=
  { a.release with stepFuture := false, state := { a.state with activeAttempt := none, phase := phase } }

end ActiveRunner

/-- A snapshot that the node asks for delays its decision. -/
def requestedSnapshot (s : RunnerState) (o : StageOutcome) : Bool :=
  s.template.snapshots == .afterEpoch &&
    (s.template.stages.find? (·.stageId == o.attempt.stageId)).any StageDefinition.snapshotAfter &&
    o.attempt.outcome == some .succeeded && o.accepted.isSome

def lastIsStop (s : RunnerState) : Bool := s.lastDagDecision.any (fun d => d.decision == some .stop)

/-- `_finish_stage_step` -/
def finishStep (a : ActiveRunner) (final : Bool) : ActiveRunner :=
  { a with idle := true, stepFuture := a.stepFuture && final }

namespace Machine

def ends (m : Machine) (a : ActiveRunner) : Machine := { m with runner := a, point := .ended, snapshotting := false }

/-- A new attempt of the node under the cursor. -/
def startAttempt (m : Machine) (s : RunnerState) (definition : StageDefinition) (inputData : Json)
    (ids : AttemptIds) : Except RunnerError Machine := do
  let s ← bindAttemptIntent s definition (newStageAttempt s definition inputData ids)
  pure { m with runner := m.runner.setState s, point := .visiting }

/-- `execute` up to its first attempt. -/
def beginVisit (m : Machine) (manual : Bool) (ids : AttemptIds) : Except RunnerError Machine := do
  let inputData ← selectInput m.journal m.runner.state
  match m.runner.state.current with
  | none => .error (.lookup "list index out of range")
  | some definition =>
    m.startAttempt (enterVisit m.runner.state definition manual) definition inputData ids

def acceptReport (m : Machine) (definition : StageDefinition) (attempt : StageAttempt) (report : AttemptReport)
    (unconfirmed : Bool) : Machine :=
  let (journal, s, attempt, response) := acceptResult m.journal m.runner.state definition attempt report
  let outcome := if unconfirmed then some .unknown else attempt.outcome
  { m with
    journal := journal
    runner := m.runner.setState { s with activeAttempt := some { attempt with outcome := outcome } }
    point := .accepted response }

def concludeVisit (m : Machine) (definition : StageDefinition) (attempt : StageAttempt) (response : StageResult)
    (artifacts : List String) : Machine :=
  match concludeAttempt m.runner.state definition attempt response with
  | .finished action => { m with point := .finished ⟨attempt, some response, action, artifacts⟩ }
  | .retry used => { m with point := .retrying used response }

def retryVisit (m : Machine) (definition : StageDefinition) (attempt : StageAttempt) (used : Nat)
    (ids : AttemptIds) : Except RunnerError Machine :=
  m.startAttempt (chargeRetry m.runner.state definition.stageId used) definition attempt.inputData
    { ids with executionId := attempt.stageExecutionId }

/-- `_complete_stage_task` up to the requested snapshot. -/
def consume (m : Machine) (o : StageOutcome) : Except RunnerError Machine :=
  let a := { m.runner with stageTask := false }
  if o.attempt.outcome = some .unknown then
    .ok (m.ends { a.requestPause.release with pendingAdvance := false })
  else if o.action = .stop then .ok (m.ends (forgetResult a o).release)
  else do
    let requested := requestedSnapshot a.state o
    let a ← applyStageOutcome a o requested
    pure { m with runner := a.setPhase .waiting, point := .deciding o requested }

/-- The decision that a requested snapshot delayed. -/
def resolveDecision (a : ActiveRunner) (requested : Bool) (snapshotId : String) :
    Except RunnerError ActiveRunner :=
  if requested then applyPendingDagDecision (a.setState { a.state with stableSnapshotId := some snapshotId })
  else .ok a

/-- Where an applied decision leads. -/
def followOutcome (m : Machine) (o : StageOutcome) (a : ActiveRunner) : Machine :=
  if lastIsStop a.state then m.ends (a.stop .stopped)
  else { m with runner := a, point := .settling o (atDagEnd a) }

def decide (m : Machine) (o : StageOutcome) (requested : Bool) (snapshotId : String) :
    Except RunnerError Machine := do
  let a ← resolveDecision m.runner requested snapshotId
  pure (m.followOutcome o a)

def completeRun (m : Machine) (snapshotId : String) : Machine :=
  let s := { m.runner.state with pendingAdvance := m.runner.pendingAdvance, stableSnapshotId := some snapshotId }
  m.ends ((m.runner.setState s).stop .completed)

def canSchedule (m : Machine) : Bool := !m.runner.maintenance && !m.runner.serviceRetrying

/-- One step of a run, or nothing where the step is not possible. -/
def advance (m : Machine) (action : Action) : Option Machine :=
  match action, m.point with
  | .command c, _ => (issue m.runner.toRunner c).2.select.map (fun a =>
      { m with runner := a, snapshotting := m.snapshotting || (!m.runner.maintenance && a.maintenance) })
  | .requestPause, _ =>
    if m.runner.task = .running then some { m with runner := m.runner.requestPause } else none
  | .settlePause, _ =>
    if m.runner.ready && m.runner.idle then
      (requireActive m.runner.toRunner).toOption.map (fun a => { m with runner := a.settlePause })
    else none
  | .observeJournal status, _ => some { m with runner := updateJournalPause { m.runner with journal := status } }
  | .serviceWork services requestIds, _ =>
    let s := requestIds.foldl RunnerState.useRequest m.runner.state
    some { m with runner := m.runner.setState { s with services := services } }
  | .endServiceControl, _ => some { m with runner := { m.runner with serviceRetrying := false } }
  | .endSnapshot created, _ =>
    if m.snapshotting then some { m with runner := m.runner.endSnapshot created, snapshotting := false } else none
  | .supervise, .waiting => some { m with runner := m.runner.pausePolicy.setPhase .waiting }
  | .supervise, .started _ | .supervise, .visiting | .supervise, .accepted _ | .supervise, .retrying _ _ =>
    some { m with runner := m.runner.pausePolicy }
  | .refuseReadiness, .waiting => some { m with runner := m.runner.pausePolicy.setPhase .waiting }
  | .launch, .waiting =>
    if m.canSchedule && !atDagEnd m.runner && (m.runner.state.mode == .running || m.runner.stepFuture) then
      let (a, manual) := launchNextStage m.runner
      some { m with runner := a, point := .started manual }
    else none
  | .beginAttempt ids, .started manual => (m.beginVisit manual ids).toOption
  | .acceptReport report unconfirmed, .visiting =>
    match m.runner.state.current, m.runner.state.activeAttempt with
    | some definition, some attempt => some (m.acceptReport definition attempt report unconfirmed)
    | _, _ => none
  | .conclude artifacts, .accepted response =>
    match m.runner.state.current, m.runner.state.activeAttempt with
    | some definition, some attempt => some (m.concludeVisit definition attempt response artifacts)
    | _, _ => none
  | .retry ids, .retrying used _ =>
    match m.runner.state.current, m.runner.state.activeAttempt with
    | some definition, some attempt =>
      if m.runner.state.pauseRequested then none else (m.retryVisit definition attempt used ids).toOption
    | _, _ => none
  | .giveUp action, .retrying _ response =>
    match m.runner.state.activeAttempt with
    | some attempt =>
      if action = .advance then none
      else some { m with point := .finished ⟨attempt, some response, action, []⟩ }
    | none => none
  | .consume, .finished o => (m.consume o).toOption
  | .decide snapshotId, .deciding o requested => (m.decide o requested snapshotId).toOption
  | .boundary snapshotId, .settling _ _ =>
    some { m with runner := m.runner.setState { m.runner.state with stableSnapshotId := some snapshotId } }
  | .settle, .settling _ final => some { m with runner := finishStep m.runner final, point := .waiting }
  | .complete snapshotId, .waiting =>
    if m.canSchedule && atDagEnd m.runner then some (m.completeRun snapshotId) else none
  | .beginReload, .waiting => (reloadAllowed m.runner.toRunner).toOption.map (fun a =>
      { m with runner := { a with maintenance := true }, point := .reloading .begun })
  | .planReload candidate completed revision run operationId, .reloading .begun =>
    (Runner.planReload m.runner candidate completed revision run operationId).toOption.map (fun plan =>
      { m with point := .reloading (.planned plan) })
  | .protectReload snapshotId, .reloading (.planned plan) =>
    some { m with
      runner := beginRebuild m.runner plan snapshotId
      point := .reloading (.protecting plan { m.runner.state with stableSnapshotId := some snapshotId }) }
  | .publishReload, .reloading (.protecting plan saved) =>
    (Runner.publishReload m.journal m.runner plan).toOption.map (fun a =>
      { m with runner := a, point := .reloading (.published plan saved) })
  | .commitReload, .reloading (.published _ _) =>
    (restartScheduler (Runner.commitReload m.runner)).toOption.map (fun a =>
      { m with runner := a, point := .waiting })
  | .abandonReload, .reloading .begun =>
    some { m with runner := { m.runner with maintenance := false }, point := .waiting }
  | .abandonReload, .reloading (.planned _) =>
    (restartScheduler m.runner).toOption.map (fun a => { m with runner := a, point := .waiting })
  | .rollbackReload services, .reloading (.protecting _ saved)
  | .rollbackReload services, .reloading (.published _ saved) =>
    (restartScheduler (restoreProtective m.runner saved services)).toOption.map (fun a =>
      { m with runner := a, point := .waiting })
  | .save checkpointId, _ =>
    (prepareStateSave m.runner checkpointId).toOption.map (fun s => { m with runner := m.runner.setState s })
  | .fail, _ => some (m.ends m.runner.release)
  | .failed, .ended => some { m with runner :=
      { m.runner with stepFuture := false, state := { m.runner.state with phase := .failed } } }
  | _, _ => none

/-- A prepared run before its first visit. -/
def fresh (experimentId runId revision : String) (template : ExperimentTemplate)
    (services : Dict ServiceInstance) (desired : Mode) : Machine where
  point := .waiting
  journal := .empty
  snapshotting := false
  runner :=
    { task := .running
      stageTask := false
      ready := true
      idle := true
      maintenance := false
      serviceRetrying := false
      stopRequested := false
      closed := false
      stepFuture := false
      pendingAdvance := false
      manual := false
      desiredMode := desired
      journalPauseReason := none
      journal := none
      manager := ⟨false, none, [], []⟩
      state :=
        { experimentId := experimentId
          runId := runId
          templateRevisionId := revision
          template := template
          mode := desired
          phase := if desired = .paused then .waiting else .starting
          pauseRequested := false
          cycleNumber := 1
          stagePosition := 1
          activeAttempt := none
          stageRetryCounts := .empty
          stageAttemptNumbers := .empty
          services := services
          lastResult := .null
          lastResultId := none
          stageResultIds := .empty
          stageResultOrigins := .empty
          usedRequestIds := []
          stableSnapshotId := none
          pendingRebuild := none
          pendingAdvance := false
          checkpointId := none
          pendingInput := none
          lastDagDecision := none
          pendingDagDecision := none
          retainedArtifacts := [] } }

def run (m : Machine) (actions : List Action) : Option Machine := actions.foldlM advance m

/-- The states that some sequence of steps leads to. -/
inductive Reachable : Machine → Prop where
  | fresh (experimentId runId revision : String) (template : ExperimentTemplate)
      (services : Dict ServiceInstance) (desired : Mode) :
      Reachable (fresh experimentId runId revision template services desired)
  | step {m m' : Machine} (action : Action) (h : Reachable m) (hstep : m.advance action = some m') : Reachable m'

theorem Reachable.run {m m' : Machine} {actions : List Action} (h : Reachable m) (hrun : m.run actions = some m') :
    Reachable m' := by
  induction actions generalizing m with
  | nil =>
    obtain rfl := Option.some.inj hrun
    exact h
  | cons action rest ih =>
    obtain ⟨next, hnext, hrest⟩ := Option.bind_eq_some_iff.mp hrun
    exact ih (h.step action hnext) hrest

end Machine

end ModularPipelines.Runner
