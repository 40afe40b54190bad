import ModularPipelines.Runner.State

namespace ModularPipelines.Runner
open Library

/-- The output of a conditional stage; `data` is absent when the stage leaves it out. -/
structure ConditionalDecision where
  command : Option DagCommand
  data : Option Json
  deriving DecidableEq

/-- What a participant reports; `decision` is its data read as a conditional decision. -/
structure ParticipantResult where
  success : Bool
  data : Json
  decision : Except String ConditionalDecision
  errorCode : Option String

/-- An accepted response; a conditional stage has its decision in `execution`. -/
structure StageResult where
  success : Bool
  data : Json
  dagDecision : Option (Option DagCommand)
  errorCode : Option String
  deriving DecidableEq

/-- Why a conditional output is refused. -/
inductive ConditionalError where
  | missingData
  | invalid (message : String)
  deriving DecidableEq, Repr

def ConditionalError.code : ConditionalError → String
  | .missingData => "conditional_missing_data"
  | .invalid _ => "invalid_conditional_result"

def ConditionalError.message : ConditionalError → String
  | .missingData => "Conditional stage with returns_data=true must return a data field."
  | .invalid message => message

/-- `_conditional_output`: the command, and the data that the node hands on. -/
def conditionalOutput (decision : ConditionalDecision) (inputData : Json) (returnsData : Bool)
    (template : ExperimentTemplate) : Except ConditionalError (Option DagCommand × Json) := do
  rejectIf (∃ target ∈ decision.command.bind DagCommand.target?, target ∉ template.stageIds)
    (.invalid "Conditional move target is not a node in this DAG.")
  rejectIf (returnsData = true ∧ decision.data = none) .missingData
  -- A stage without a command forwards its input.
  let output := if decision.command ≠ none ∧ returnsData = true then decision.data.getD .null else inputData
  pure (decision.command, output)

/-- The failure that stands for a refused conditional output. -/
def refusedOutput (error : ConditionalError) : StageResult where
  success := false
  data := .obj [("reason", .str error.code), ("message", .str error.message)]
  dagDecision := none
  errorCode := some error.code

def ParticipantResult.plain (r : ParticipantResult) : StageResult := ⟨r.success, r.data, none, r.errorCode⟩

/-- `_normalize_accepted_response` -/
def normalizeAccepted (definition : StageDefinition) (template : ExperimentTemplate) (inputData : Json)
    (response : ParticipantResult) : StageResult :=
  match definition.returnsData, response.success with
  | some returnsData, true =>
    match response.decision with
    | .error message => refusedOutput (.invalid message)
    | .ok decision =>
      match conditionalOutput decision inputData returnsData template with
      | .error e => refusedOutput e
      | .ok (command, output) => ⟨true, output, some command, response.errorCode⟩
  | _, _ => response.plain

end ModularPipelines.Runner
