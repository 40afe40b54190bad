import ModularPipelines.Runner.Input

namespace ModularPipelines.Runner
open Library

namespace RunnerState

/-- `used_request_ids.add(request_id)` -/
def useRequest (s : RunnerState) (requestId : String) : RunnerState :=
  { s with usedRequestIds := if requestId ∈ s.usedRequestIds then s.usedRequestIds else s.usedRequestIds ++ [requestId] }

def retriesUsed (s : RunnerState) (stageId : String) : Nat := (s.stageRetryCounts.get? stageId).getD 0

end RunnerState

/-- The fresh identities of a new attempt. -/
structure AttemptIds where
  attemptId : String
  executionId : String
  requestId : String
  deriving DecidableEq, Repr

/-- The state changes of `execute` before its first attempt: a manual visit forgets its result. -/
def enterVisit (s : RunnerState) (definition : StageDefinition) (manual : Bool) : RunnerState :=
  if manual then (s.popResult definition.stageId).clearLastResult else s

/-- `_new_stage_attempt` -/
def newStageAttempt (s : RunnerState) (definition : StageDefinition) (inputData : Json) (ids : AttemptIds) :
    StageAttempt where
  attemptId := ids.attemptId
  stageId := definition.stageId
  stageExecutionId := ids.executionId
  cycleNumber := s.cycleNumber
  attemptNumber := (s.stageAttemptNumbers.get? definition.stageId).getD 0 + 1
  inputData := inputData
  requestId := ids.requestId
  resultRequestId := none
  outcome := none

/-- `_bind_attempt_intent`; a service call takes its request ID when it is queued. -/
def bindAttemptIntent (s : RunnerState) (definition : StageDefinition) (attempt : StageAttempt) :
    Except RunnerError RunnerState := do
  let bound := { s with
    activeAttempt := some attempt
    stageAttemptNumbers := s.stageAttemptNumbers.set attempt.stageId attempt.attemptNumber }
  rejectIf (attempt.requestId ∈ s.usedRequestIds) (.runtime "Attempt request ID collision.")
  pure (if definition.serviceId = none then bound.useRequest attempt.requestId else bound)

/-- A report with the journal outcome that it stands for before it is normalized. -/
structure AttemptReport where
  response : ParticipantResult
  outcome : AttemptOutcome
  agrees : response.success = true ↔ outcome = .succeeded

def AttemptReport.normalized (report : AttemptReport) (definition : StageDefinition) (template : ExperimentTemplate)
    (inputData : Json) : StageResult × AttemptOutcome :=
  let response := normalizeAccepted definition template inputData report.response
  (response, if report.response.success = true ∧ response.success = false then .failed else report.outcome)

/-- `_accept`: the result is in the journal before the attempt names it. -/
def acceptResult (journal : ResultTable) (s : RunnerState) (definition : StageDefinition)
    (attempt : StageAttempt) (report : AttemptReport) : ResultTable × RunnerState × StageAttempt × StageResult :=
  let (response, outcome) := report.normalized definition s.template attempt.inputData
  let attempt := { attempt with resultRequestId := some attempt.requestId, outcome := some outcome }
  let s := s.useRequest attempt.requestId
  (journal.set attempt.requestId ⟨s.experimentId, attempt.stageId, true, outcome == .succeeded, response⟩,
    { s with activeAttempt := some attempt }, attempt, response)

/-- `_exhausted_action` -/
def exhaustedAction (definition : StageDefinition) (response : StageResult) : OutcomeAction :=
  if definition.serviceId = none ∧ definition.returnsData = some true ∧
      response.errorCode = some "conditional_missing_data" then .stop
  else
    match definition.errors.onExhausted with
    | .skip => .advance
    | .pause => .pause
    | .stop => .stop

/-- What follows an accepted attempt inside `execute`. -/
inductive AttemptStep where
  | finished (action : OutcomeAction)
  | retry (used : Nat)
  deriving DecidableEq, Repr

def concludeAttempt (s : RunnerState) (definition : StageDefinition) (attempt : StageAttempt)
    (response : StageResult) : AttemptStep :=
  if attempt.outcome = some .unknown then .finished .stop
  else if response.success then .finished .advance
  else if s.pauseRequested then .finished .pause
  else if s.retriesUsed definition.stageId ≥ definition.errors.retries then
    .finished (exhaustedAction definition response)
  else .retry (s.retriesUsed definition.stageId)

def chargeRetry (s : RunnerState) (stageId : String) (used : Nat) : RunnerState :=
  { s with stageRetryCounts := s.stageRetryCounts.set stageId (used + 1) }

end ModularPipelines.Runner
