import ModularPipelines.Journal.Events
import ModularPipelines.Runner.Input

namespace ModularPipelines.Runner
open Library Services

/-- What a caller can pass where the source checks the type of an argument. -/
inductive Argument where
  | int (n : Int)
  | text (s : String)
  | other
  deriving DecidableEq, Repr

/-- `type(position) is int and 1 <= position <= size`, then the position. -/
def Argument.within (position : Argument) (size : Nat) : Option Nat :=
  match position with
  | .int n => if 1 ≤ n ∧ n ≤ size then some n.toNat else none
  | .text _ | .other => none

def Argument.isInt : Argument → Bool
  | .int _ => true
  | .text _ | .other => false

/-- `waiting` is a call suspended until the preparation of the run is over. -/
inductive Reply where
  | accepted
  | waiting
  | rejected (error : RunnerError)
  deriving DecidableEq, Repr

/-- Checks first, then the writes; a step saves a cleared pause decision in between. -/
def admitIf {α : Type} (allowed : Except RunnerError α) (r : ExperimentRunner) (effect : α → ActiveRunner) :
    Reply × ExperimentRunner :=
  match allowed with
  | .error e => (.rejected e, r)
  | .ok a => (.accepted, (effect a).toRunner)

/-- `_require_active` -/
def requireActive (r : ExperimentRunner) : Except RunnerError ActiveRunner :=
  match r.select with
  | none => .error (.runtime "The experiment is not active.")
  | some a => do
    rejectIf (a.state.pendingRebuild ≠ none)
      (.runtime "Recover the unfinished template reload before controlling the DAG.")
    rejectIf (a.state.phase.terminal = true) (.runtime "The experiment is not active.")
    pure a

namespace RunnerState

def manuallyStopped (s : RunnerState) : Bool := s.services.values.any ServiceInstance.manuallyStopped

/-- Every declared service has an instance. -/
def servicesDeclared (s : RunnerState) : Bool :=
  s.template.services.all (fun d => s.services.contains d.serviceId)

def blocked (s : RunnerState) : Bool :=
  s.services.values.any (fun i => i.blockedAction.isSome || i.manuallyStopped)

def clearPauseDecision (s : RunnerState) : RunnerState :=
  { s with lastDagDecision := if s.conditionalPause then none else s.lastDagDecision }

end RunnerState

def stepEntry (r : ExperimentRunner) : Except RunnerError Unit := do
  rejectIf (r.maintenance = true) (.runtime "Wait for snapshot or restoration before stepping.")
  rejectIf (r.task = .absent) (.runtime "There is no experiment to step.")

def stepAllowed (r : ExperimentRunner) : Except RunnerError ActiveRunner := do
  let a ← requireActive r
  rejectIf (a.state.mode ≠ .paused ∨ a.idle = false ∨ a.stepFuture = true ∨ a.serviceRetrying = true)
    (.runtime "step requires a paused experiment without an active attempt.")
  rejectIf (a.state.manuallyStopped = true) (.runtime "Start manually stopped services before stepping.")
  rejectIf (a.state.servicesDeclared = false) (.runtime "Start all declared services before stepping.")
  pure a

def beginStep (a : ActiveRunner) : ActiveRunner :=
  { a with stepFuture := true, state := a.state.clearPauseDecision }

/-- The rest of a step once the run is prepared. -/
def stepReady (r : ExperimentRunner) : Reply × ExperimentRunner := admitIf (stepAllowed r) r beginStep

def step (r : ExperimentRunner) : Reply × ExperimentRunner :=
  match stepEntry r with
  | .error e => (.rejected e, r)
  | .ok () => if r.ready then stepReady r else (.waiting, r)

def rerunAllowed (r : ExperimentRunner) (position : Argument) : Except RunnerError Unit := do
  rejectIf (r.maintenance = true) (.runtime "Wait for snapshot or restoration before rerunning.")
  let a ← requireActive r
  rejectIf (position.isInt = false) (.value "rerun position must be an integer.")
  rejectIf (position ≠ .int a.state.stagePosition ∨ a.state.mode ≠ .paused ∨ a.idle = false)
    (.runtime "rerun requires the paused pointer's stage.")

/-- `rerun("stage", position)` clears the pending advance before it steps. -/
def rerun (r : ExperimentRunner) (position : Argument) : Reply × ExperimentRunner :=
  match rerunAllowed r position with
  | .error e => (.rejected e, r)
  | .ok () => step { r with pendingAdvance := false, manual := true }

def pauseForJournal (a : ActiveRunner) (reason : String) : ActiveRunner :=
  { a with
    journalPauseReason := some reason
    state := { a.state with
      mode := .paused
      phase :=
        if a.ready = true ∧ a.state.activeAttempt = none ∧ a.state.phase = .starting then .waiting
        else a.state.phase } }

def endJournalPause (a : ActiveRunner) : ActiveRunner :=
  { a with journalPauseReason := none, state := { a.state with mode := a.desiredMode } }

/-- `_update_journal_pause`: the requested mode is not changed. -/
def updateJournalPause (a : ActiveRunner) : ActiveRunner :=
  match a.journal with
  | none => a
  | some status =>
    match status.pauseReason with
    | some reason => pauseForJournal a reason
    | none => if a.journalPauseReason ≠ none ∧ status.state = .ready then endJournalPause a else a

def resumeEntry (r : ExperimentRunner) : Except RunnerError Unit :=
  rejectIf (r.task = .absent) (.runtime "There is no experiment to resume.")

def refuseJournalPause (a : ActiveRunner) : Except RunnerError Unit :=
  match a.journalPauseReason with
  | some reason => .error (.runtime ("Experiment is paused: " ++ reason ++ "."))
  | none => .ok ()

def resumeAllowed (a : ActiveRunner) : Except RunnerError ActiveRunner := do
  refuseJournalPause a
  rejectIf (a.state.servicesDeclared = false)
    (.runtime "Start all declared services before resuming the experiment.")
  rejectIf (a.maintenance = true ∨ a.state.activeAttempt ≠ none ∧ a.stageTask = false)
    (.runtime "Resolve the current snapshot, restoration, or unknown stage first.")
  rejectIf (a.state.blocked = true ∨ a.serviceRetrying = true)
    (.runtime "Resolve the blocked service before resuming the experiment.")
  pure a

def beginResume (a : ActiveRunner) : ActiveRunner :=
  let s := a.state.clearPauseDecision
  { a with desiredMode := .running, state := { s with mode := .running, pauseRequested := false } }

/-- The rest of a resume once the run is prepared; it observes the journal first. -/
def resumeReady (r : ExperimentRunner) : Reply × ExperimentRunner :=
  match requireActive r with
  | .error e => (.rejected e, r)
  | .ok a =>
    let a := updateJournalPause a
    admitIf (resumeAllowed a) a.toRunner beginResume

def resume (r : ExperimentRunner) : Reply × ExperimentRunner :=
  match resumeEntry r with
  | .error e => (.rejected e, r)
  | .ok () => if r.ready then resumeReady r else (.waiting, r)

def moveAllowed (r : ExperimentRunner) (position : Argument) : Except RunnerError (ActiveRunner × Nat) := do
  rejectIf (r.maintenance = true) (.runtime "Wait for snapshot or restoration before moving the cursor.")
  let a ← requireActive r
  rejectIf (a.state.mode ≠ .paused ∨ a.idle = false) (.runtime "move requires a paused experiment.")
  match position.within a.state.template.stages.length with
  | none => .error (.value "Position is outside the DAG.")
  | some n => pure (a, n)

def dropStaleResult (s : RunnerState) : RunnerState :=
  if s.lastResultId.any (s.stageResultIds.values.contains ·) then s else s.clearLastResult

/-- The cursor at another node, without a transfer and without decisions. -/
def RunnerState.relocate (s : RunnerState) (position : Nat) : RunnerState :=
  { s with stagePosition := position, pendingInput := none, lastDagDecision := none, pendingDagDecision := none }

/-- `_move_cursor` -/
def moveCursor (a : ActiveRunner) (position : Nat) : ActiveRunner :=
  { a with pendingAdvance := false, state := dropStaleResult (a.state.relocate position) }

def move (r : ExperimentRunner) (position : Argument) : Reply × ExperimentRunner :=
  admitIf (moveAllowed r position) r (fun (a, n) => moveCursor a n)

def resetServiceRetries (a : ActiveRunner) (position : Argument) : Except RunnerError ActiveRunner := do
  rejectIf (a.serviceRetrying = true) (.runtime "Wait for the service retry before resetting counters.")
  match (position.within a.state.template.services.length).bind (fun n => a.state.template.services[n - 1]?) with
  | none => .error (.value "Service position is outside the template.")
  | some definition =>
    match a.state.services.get? definition.serviceId with
    | none => .error (.value "A started socket service is required.")
    | some i =>
      let services := a.state.services.set definition.serviceId { i with restartCount := 0 }
      pure { a with state := { a.state with services := services } }

def resetStageRetries (a : ActiveRunner) (position : Argument) : Except RunnerError ActiveRunner :=
  match (position.within a.state.template.stages.length).bind a.state.template.stageAt with
  | none => .error (.value "Position is outside the DAG.")
  | some definition =>
    .ok { a with state := { a.state with
      stageRetryCounts := a.state.stageRetryCounts.set definition.stageId 0 } }

/-- `_reset_retry_count` -/
def resetRetryCount (r : ExperimentRunner) (kind : String) (position : Argument) :
    Except RunnerError ActiveRunner := do
  rejectIf (r.maintenance = true) (.runtime "Wait for snapshot or restoration before resetting retries.")
  let a ← requireActive r
  rejectIf (kind ≠ "stage" ∧ kind ≠ "service") (.value "kind must be stage or service.")
  rejectIf (a.state.mode ≠ .paused) (.runtime "reset_retries requires a paused experiment.")
  if kind = "service" then resetServiceRetries a position else resetStageRetries a position

def resetRetries (r : ExperimentRunner) (kind : String) (position : Argument) : Reply × ExperimentRunner :=
  admitIf (resetRetryCount r kind position) r id

/-- `_require_idle_service_control` -/
def requireIdleServiceControl (a : ActiveRunner) (message : String) : Except RunnerError Unit :=
  rejectIf (a.maintenance = true ∨ a.serviceRetrying = true ∨ a.stopRequested = true ∨
      a.task ≠ .running ∨ a.state.mode ≠ .paused ∨ a.state.phase ≠ .waiting ∨ a.idle = false ∨
      a.state.activeAttempt ≠ none ∨ a.stepFuture = true) (.runtime message)

/-- `_service_definition` -/
def serviceDefinition (s : RunnerState) (position : Argument) : Except RunnerError ServiceDefinition :=
  match (position.within s.template.services.length).bind (fun n => s.template.services[n - 1]?) with
  | none => .error (.value "Service position is outside the template.")
  | some definition => .ok definition

def serviceControl (r : ExperimentRunner) (position : Argument) (message : String) :
    Except RunnerError (ActiveRunner × ServiceDefinition) := do
  let a ← requireActive r
  requireIdleServiceControl a message
  let definition ← serviceDefinition a.state position
  pure (a, definition)

/-- The checks of `ServiceManager.start`; a ready instance is reused. -/
def managerStart (a : ActiveRunner) (serviceId : String) : Except RunnerError (Option ServiceInstance) := do
  rejectIf (a.manager.closed = true ∨ a.manager.snapshotId ≠ none)
    (.runtime "Service start requires an open manager without a snapshot barrier.")
  rejectIf (serviceId ∉ a.state.template.services.map ServiceDefinition.serviceId)
    (.value "Unknown service definition.")
  rejectIf (serviceId ∈ a.manager.starting ∨ serviceId ∈ a.manager.restarts)
    (.runtime "Wait for the current service startup or restart.")
  match a.state.services.get? serviceId with
  | none => pure none
  | some i =>
    if i.stopped = false then
      if i.ready = true ∧ i.stopping = false ∧ i.manuallyStopped = false ∧ i.blockedAction = none then
        pure (some i)
      else .error (.runtime "Confirm service shutdown before starting another instance.")
    else do
      rejectIf (i.activeRequest ≠ none ∨ i.pendingRequests ≠ [])
        (.runtime "Resolve pending service work before starting it.")
      pure none

/-- The `try` block of `start_service`; its `finally` clause runs when the manager refuses. -/
def beginServiceStart (a : ActiveRunner) (serviceId : String) : Reply × ExperimentRunner :=
  match managerStart { a with serviceRetrying := true } serviceId with
  | .error e => (.rejected e, { a with serviceRetrying := false }.toRunner)
  | .ok _ => (.accepted, { a with serviceRetrying := true }.toRunner)

def startService (r : ExperimentRunner) (position : Argument) : Reply × ExperimentRunner :=
  match serviceControl r position
      "service start requires an idle pause without another service or maintenance operation." with
  | .error e => (.rejected e, r)
  | .ok (a, definition) => beginServiceStart a definition.serviceId

/-- The manual-stop intent that `stop_service` saves before it touches the process. -/
def beginServiceStop (a : ActiveRunner) (definition : ServiceDefinition) (instanceId : String) : ActiveRunner :=
  let i := (a.state.services.get? definition.serviceId).getD
    { ServiceInstance.create instanceId definition with stopped := true }
  let services := a.state.services.set definition.serviceId { i with manuallyStopped := true }
  { a with serviceRetrying := true, state := { a.state with services := services } }

def stopService (r : ExperimentRunner) (position : Argument) (instanceId : String) : Reply × ExperimentRunner :=
  admitIf (serviceControl r position
      "service stop requires an idle pause without another service or maintenance operation.") r
    (fun (a, definition) => beginServiceStop a definition instanceId)

/-- `require_text(label, "snapshot label")` for a given label. -/
def requireLabel (label : Option Argument) : Except RunnerError Unit :=
  match label with
  | none => .ok ()
  | some (.text s) =>
    rejectIf (Journal.isText s = false)
      (.value "snapshot label must be nonempty and contain no null characters.")
  | some _ => .error (.type "snapshot label must be a string.")

def snapshotAllowed (r : ExperimentRunner) (label : Option Argument) : Except RunnerError ActiveRunner := do
  requireLabel label
  let a ← requireActive r
  rejectIf (a.state.manuallyStopped = true)
    (.runtime "Start manually stopped services before creating a snapshot.")
  rejectIf (a.maintenance = true ∨ a.serviceRetrying = true ∨ a.state.mode ≠ .paused ∨ a.idle = false ∨
      a.state.activeAttempt ≠ none ∨ a.stepFuture = true)
    (.runtime "snapshot requires a stage-free pause without another maintenance operation.")
  pure a

def beginSnapshot (a : ActiveRunner) : ActiveRunner :=
  { a with maintenance := true, state := { a.state with phase := .snapshotting } }

def snapshot (r : ExperimentRunner) (label : Option Argument) : Reply × ExperimentRunner :=
  admitIf (snapshotAllowed r label) r beginSnapshot

/-- A control command; the last two are calls that waited for the preparation of the run. -/
inductive Command where
  | rerun (position : Argument)
  | step
  | resume
  | move (position : Argument)
  | resetRetries (kind : String) (position : Argument)
  | startService (position : Argument)
  | stopService (position : Argument) (instanceId : String)
  | snapshot (label : Option Argument)
  | stepAfterReady
  | resumeAfterReady
  deriving DecidableEq, Repr

def issue (r : ExperimentRunner) : Command → Reply × ExperimentRunner
  | .rerun position => rerun r position
  | .step => step r
  | .resume => resume r
  | .move position => move r position
  | .resetRetries kind position => resetRetries r kind position
  | .startService position => startService r position
  | .stopService position instanceId => stopService r position instanceId
  | .snapshot label => snapshot r label
  | .stepAfterReady => stepReady r
  | .resumeAfterReady => resumeReady r

end ModularPipelines.Runner
