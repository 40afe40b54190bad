import Mathlib.Data.List.Dedup
import ModularPipelines.Runner.Conditional

namespace ModularPipelines.Runner
open Library Services

/-- What the DAG does once an attempt is over. -/
inductive OutcomeAction where
  | advance
  | pause
  | stop
  deriving DecidableEq, Repr

/-- `artifacts` are the existing shared artifacts that the response data names. -/
structure StageOutcome where
  attempt : StageAttempt
  result : Option StageResult
  action : OutcomeAction
  artifacts : List String
  deriving DecidableEq

/-- The decision of a successful response. -/
def StageOutcome.accepted (o : StageOutcome) : Option StageResult := o.result.filter StageResult.success

/-- Forget the current result of every node that a condition rejects. -/
def RunnerState.keepResults (s : RunnerState) (p : String → Bool) : RunnerState :=
  { s with stageResultIds := s.stageResultIds.keep p, stageResultOrigins := s.stageResultOrigins.keep p }

def RunnerState.popResult (s : RunnerState) (stageId : String) : RunnerState :=
  s.keepResults (fun k => k != stageId)

def RunnerState.clearLastResult (s : RunnerState) : RunnerState :=
  { s with lastResult := .null, lastResultId := none }

def ActiveRunner.pauseMode (a : ActiveRunner) : ActiveRunner :=
  { a with desiredMode := .paused, state := { a.state with mode := .paused } }

/-- `_at_dag_end` -/
def atDagEnd (a : ActiveRunner) : Bool :=
  a.pendingAdvance && a.state.stagePosition == a.state.template.stages.length &&
    a.state.cycleNumber == a.state.template.cycles && !a.state.conditionalPause

/-- `_apply_conditional_move`: assign the input and forget the target and all later nodes. -/
def applyConditionalMove (a : ActiveRunner) (source : LastDecision) (target : String) :
    Except RunnerError ActiveRunner :=
  match a.state.template.positionOf target with
  | none => .error (.runtime "coroutine raised StopIteration")
  | some position =>
    let suffix := a.state.template.stageIds.drop (position - 1)
    let kept := a.state.keepResults (fun k => k ∉ suffix)
    .ok { a with
      pendingAdvance := false
      state := { kept with
        pendingInput := some ⟨source.requestId, source.sourceStageId, source.experimentId, target⟩
        stageRetryCounts := kept.stageRetryCounts.keep (fun k => k ∉ suffix)
        stagePosition := position } }

def ActiveRunner.decided (a : ActiveRunner) (source : LastDecision) : ActiveRunner :=
  { a with state := { a.state with lastDagDecision := some source } }

/-- `_apply_dag_decision` -/
def applyDagDecision (a : ActiveRunner) (source : LastDecision) : Except RunnerError ActiveRunner :=
  let a := a.decided source
  match source.decision with
  | some .pause =>
    let a := a.pauseMode
    .ok { a with state := { a.state with pauseRequested := true } }
  | some (.move target) => applyConditionalMove a source target
  | some .stop => .ok a
  | none => .ok a

def ActiveRunner.deferred (a : ActiveRunner) (source : Option LastDecision) : ActiveRunner :=
  { a with state := { a.state with pendingDagDecision := source } }

/-- `_apply_pending_dag_decision` -/
def applyPendingDagDecision (a : ActiveRunner) : Except RunnerError ActiveRunner :=
  match a.state.pendingDagDecision with
  | none => .ok a
  | some source => applyDagDecision (a.deferred none) source

/-- The part of `_apply_stage_outcome` that every outcome goes through. -/
def releaseAttempt (a : ActiveRunner) (o : StageOutcome) : ActiveRunner :=
  let a := { a with
    pendingAdvance := o.action == .advance
    state := { a.state with activeAttempt := none, lastDagDecision := none, pendingDagDecision := none } }
  if o.action = .pause then a.pauseMode else a

def retainResult (a : ActiveRunner) (o : StageOutcome) (response : StageResult) (requestId : String) :
    ActiveRunner :=
  let stageId := o.attempt.stageId
  { a with state := { a.state with
      lastResult := response.data
      lastResultId := some requestId
      stageResultIds := a.state.stageResultIds.set stageId requestId
      stageResultOrigins := a.state.stageResultOrigins.set stageId a.state.experimentId } }

/-- `_retain_input_artifacts` -/
def retainInputArtifacts (a : ActiveRunner) (found : List String) : ActiveRunner :=
  { a with state := { a.state with
      retainedArtifacts := (a.state.retainedArtifacts ++ found).dedup.mergeSort (fun x y => decide (x ≤ y)) } }

def forgetResult (a : ActiveRunner) (o : StageOutcome) : ActiveRunner :=
  { a with state := a.state.clearLastResult.popResult o.attempt.stageId }

/-- The decision of a conditional node that succeeded. -/
def acceptedDecision (s : RunnerState) (o : StageOutcome) (response : StageResult) (requestId : String) :
    Except RunnerError (Option LastDecision) :=
  match s.current with
  | none => .error (.lookup "list index out of range")
  | some definition =>
    match definition.returnsData, response.dagDecision with
    | none, _ => .ok none
    | some _, none => .error (.lookup "dag_decision")
    | some _, some decision => .ok (some ⟨requestId, o.attempt.stageId, s.experimentId, decision⟩)

/-- What follows a retained result: its decision is applied now, or after the requested snapshot. -/
def followDecision (a : ActiveRunner) (artifacts : List String) (decision : Option LastDecision) (deferDag : Bool) :
    Except RunnerError ActiveRunner :=
  match decision with
  | none => .ok a
  | some source =>
    let a := retainInputArtifacts a artifacts
    if deferDag then .ok (a.deferred (some source)) else applyDagDecision a source

/-- `_apply_stage_outcome` -/
def applyStageOutcome (a : ActiveRunner) (o : StageOutcome) (deferDag : Bool) :
    Except RunnerError ActiveRunner :=
  let a := releaseAttempt a o
  match o.accepted, o.attempt.resultRequestId with
  | none, _ => .ok (forgetResult a o)
  | some _, none => .error (.value "request_id")
  | some response, some requestId => do
    let a := retainResult a o response requestId
    let decision ← acceptedDecision a.state o response requestId
    followDecision a o.artifacts decision deferDag

/-- A new cycle starts without results and with fresh restart budgets. -/
def startCycle (s : RunnerState) : RunnerState :=
  { s.clearLastResult with
    cycleNumber := s.cycleNumber + 1
    stagePosition := 1
    stageResultIds := .empty
    stageResultOrigins := .empty
    stageAttemptNumbers := .empty
    services := s.services.mapValues (fun i => { i with restartCount := 0 }) }

def advanceCursor (s : RunnerState) : RunnerState :=
  let s := { s with pendingInput := none, stagePosition := s.stagePosition + 1 }
  if s.stagePosition > s.template.stages.length then startCycle s else s

/-- `_launch_next_stage`; the flag is the `manual` argument of the new execution. -/
def launchNextStage (a : ActiveRunner) : ActiveRunner × Bool :=
  let s := if a.pendingAdvance then advanceCursor a.state else a.state
  ({ a with
      idle := false
      pendingAdvance := false
      manual := false
      stageTask := true
      state := { s with lastDagDecision := none, pauseRequested := false, phase := .stageRunning } }, a.manual)

end ModularPipelines.Runner
