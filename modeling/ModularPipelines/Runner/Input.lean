import ModularPipelines.Runner.Dag

namespace ModularPipelines.Runner
open Library

/-- A journalled command result; `accepted` says that its author is the runner. -/
structure JournalResult where
  experimentId : String
  stageId : String
  accepted : Bool
  succeeded : Bool
  response : StageResult
  deriving DecidableEq

abbrev ResultTable := Dict JournalResult

/-- `read_result(..., accepted=True)` for a stage of an experiment. -/
def readResult (journal : ResultTable) (requestId experimentId stageId : String) :
    Except RunnerError (Option JournalResult) :=
  match journal.get? requestId with
  | none => .ok none
  | some record => do
    rejectIf (record.experimentId ≠ experimentId) (.value "Journal result identity mismatch: experiment_id.")
    rejectIf (record.stageId ≠ stageId) (.value "Journal result identity mismatch: stage_id.")
    rejectIf (record.accepted = false) (.value "The journal result has not been accepted by runner.")
    pure (some record)

/-- `_read_move_input` -/
def readMoveInput (journal : ResultTable) (s : RunnerState) (transfer : PendingInput) :
    Except RunnerError Json := do
  rejectIf (s.current.map StageDefinition.stageId ≠ some transfer.stageId)
    (.value "Pending input belongs to another stage.")
  let record ← readResult journal transfer.requestId transfer.experimentId transfer.sourceStageId
  match record.filter (fun r => r.succeeded && r.response.success &&
      r.response.dagDecision == some (some (.move transfer.stageId))) with
  | none => .error (.value "Move input has no accepted successful journal result.")
  | some r => .ok r.response.data

/-- The input that a node hands to its successor. -/
def predecessorInput (journal : ResultTable) (s : RunnerState) (previous : String) :
    Except RunnerError Json :=
  match s.stageResultIds.get? previous with
  | none => .ok .null
  | some requestId => do
    let origin := (s.stageResultOrigins.get? previous).getD s.experimentId
    match ← readResult journal requestId origin previous with
    | none => .error (.value "Predecessor result is missing from the journal.")
    | some r => .ok (if r.succeeded && r.response.success then r.response.data else .null)

/-- `select_input` -/
def selectInput (journal : ResultTable) (s : RunnerState) : Except RunnerError Json :=
  match s.pendingInput with
  | some transfer => readMoveInput journal s transfer
  | none =>
    if s.stagePosition = 1 then .ok .null
    else
      match s.template.stageAt (s.stagePosition - 1) with
      | none => .error (.lookup "list index out of range")
      | some previous => predecessorInput journal s previous.stageId

end ModularPipelines.Runner
