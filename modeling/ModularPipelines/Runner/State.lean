import ModularPipelines.Library.Dict
import ModularPipelines.Library.JsonText
import ModularPipelines.Library.Outcome
import ModularPipelines.Services.State

namespace ModularPipelines.Runner
open Library Services

inductive Mode where
  | running
  | paused
  deriving DecidableEq, Repr

inductive Phase where
  | idle
  | starting
  | stageRunning
  | waiting
  | snapshotting
  | rebuilding
  | restoring
  | stopped
  | completed
  | failed
  deriving DecidableEq, Repr

def Phase.terminal : Phase → Bool
  | .stopped | .completed | .failed => true
  | _ => false

/-- A DAG command; only a move names a target. -/
inductive DagCommand where
  | pause
  | stop
  | move (stageId : String)
  deriving DecidableEq, Repr

def DagCommand.target? : DagCommand → Option String
  | .move stageId => some stageId
  | .pause | .stop => none

inductive AttemptOutcome where
  | succeeded
  | failed
  | timedOut
  | cancelled
  | invalidated
  | unknown
  deriving DecidableEq, Repr

structure StageAttempt where
  attemptId : String
  stageId : String
  stageExecutionId : String
  cycleNumber : Nat
  attemptNumber : Nat
  inputData : Json
  requestId : String
  resultRequestId : Option String
  outcome : Option AttemptOutcome
  deriving DecidableEq

structure PendingInput where
  requestId : String
  sourceStageId : String
  experimentId : String
  stageId : String
  deriving DecidableEq, Repr

/-- An accepted decision with the result that it belongs to. -/
structure LastDecision where
  requestId : String
  sourceStageId : String
  experimentId : String
  decision : Option DagCommand
  deriving DecidableEq, Repr

structure PendingRebuild where
  operationId : String
  snapshotId : String
  templateRevisionId : String
  runId : String
  deriving DecidableEq, Repr

structure RunnerState where
  experimentId : String
  runId : String
  templateRevisionId : String
  template : ExperimentTemplate
  mode : Mode
  phase : Phase
  pauseRequested : Bool
  cycleNumber : Nat
  stagePosition : Nat
  activeAttempt : Option StageAttempt
  stageRetryCounts : Dict Nat
  stageAttemptNumbers : Dict Nat
  services : Dict ServiceInstance
  lastResult : Json
  lastResultId : Option String
  stageResultIds : Dict String
  stageResultOrigins : Dict String
  usedRequestIds : List String
  stableSnapshotId : Option String
  pendingRebuild : Option PendingRebuild
  pendingAdvance : Bool
  checkpointId : Option String
  pendingInput : Option PendingInput
  lastDagDecision : Option LastDecision
  pendingDagDecision : Option LastDecision
  retainedArtifacts : List String
  deriving DecidableEq

/-- The node under the cursor. -/
def RunnerState.current (s : RunnerState) : Option StageDefinition := s.template.stageAt s.stagePosition

def LastDecision.isPause (d : LastDecision) : Bool := d.decision == some .pause

def RunnerState.conditionalPause (s : RunnerState) : Bool := s.lastDagDecision.any LastDecision.isPause

/-- What the journal supervisor reports. -/
inductive JournalState where
  | starting
  | restarting
  | storageUnavailable
  | ready
  | other
  deriving DecidableEq, Repr

structure JournalStatus where
  state : JournalState
  historyAvailable : Bool
  deriving DecidableEq, Repr

/-- Why this status pauses scheduling. -/
def JournalStatus.pauseReason (status : JournalStatus) : Option String :=
  if status.historyAvailable = false then some "journal_history_unavailable"
  else
    match status.state with
    | .starting => some "journal_starting"
    | .restarting => some "journal_restarting"
    | .storageUnavailable => some "journal_storage_unavailable"
    | .ready | .other => none

inductive TaskStatus where
  | absent
  | running
  | done
  deriving DecidableEq, Repr

/-- The fields of the service manager that its own admission reads. -/
structure ManagerStatus where
  closed : Bool
  snapshotId : Option String
  starting : List String
  restarts : List String
  deriving DecidableEq, Repr

/-- The private fields of the runner that its commands and its scheduler read. -/
structure RunnerFields where
  task : TaskStatus
  stageTask : Bool
  ready : Bool
  idle : Bool
  maintenance : Bool
  serviceRetrying : Bool
  stopRequested : Bool
  closed : Bool
  stepFuture : Bool
  pendingAdvance : Bool
  manual : Bool
  desiredMode : Mode
  journalPauseReason : Option String
  journal : Option JournalStatus
  manager : ManagerStatus
  deriving DecidableEq

structure ExperimentRunner extends RunnerFields where
  state : Option RunnerState
  deriving DecidableEq

/-- A runner whose experiment is selected. -/
structure ActiveRunner extends RunnerFields where
  state : RunnerState
  deriving DecidableEq

def ActiveRunner.toRunner (a : ActiveRunner) : ExperimentRunner := ⟨a.toRunnerFields, some a.state⟩

def ExperimentRunner.select (r : ExperimentRunner) : Option ActiveRunner :=
  r.state.map (fun s => ⟨r.toRunnerFields, s⟩)

@[simp] theorem ExperimentRunner.select_toRunner (a : ActiveRunner) : a.toRunner.select = some a := rfl

theorem ExperimentRunner.toRunner_of_select {r : ExperimentRunner} {a : ActiveRunner}
    (h : r.select = some a) : a.toRunner = r := by
  obtain ⟨fields, state⟩ := r
  obtain ⟨s, hs, rfl⟩ := Option.map_eq_some_iff.mp h
  exact congrArg (ExperimentRunner.mk fields) hs.symm

inductive RunnerError where
  | runtime (message : String)
  | value (message : String)
  | type (message : String)
  | lookup (message : String)
  | os (message : String)
  | timeout (pid : Nat)
  deriving DecidableEq, Repr

end ModularPipelines.Runner
