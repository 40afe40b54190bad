import ModularPipelines.Runner.Dag

namespace ModularPipelines.Runner
open Library Services

/-- The saved work of a service, as its validator visits it. -/
def savedRequests (i : ServiceInstance) : List WorkingServiceRequest := i.pendingRequests ++ i.activeRequest.toList

def checkRequests (used : List String) (seen : List String) :
    List WorkingServiceRequest → Except RunnerError (List String)
  | [] => .ok seen
  | request :: rest => do
    rejectIf (request.requestId ∉ used ∨ request.requestId ∈ seen)
      (.value "Service request ID is missing or duplicated.")
    checkRequests used (request.requestId :: seen) rest

def checkServices (used : List String) (seen : List String) :
    List (String × ServiceInstance) → Except RunnerError Unit
  | [] => .ok ()
  | (identifier, service) :: rest => do
    rejectIf (identifier ≠ service.serviceId) (.value "Invalid saved service identity.")
    let seen ← checkRequests used seen (savedRequests service)
    checkServices used seen rest

/-- `_validate_transitions` -/
def validateTransitions (s : RunnerState) : Except RunnerError Unit := do
  rejectIf (∃ i ∈ s.pendingInput, i.sourceStageId ∉ s.template.stageIds)
    (.value "Saved transition refers to an unknown source stage.")
  rejectIf (∃ d ∈ s.lastDagDecision, d.sourceStageId ∉ s.template.stageIds)
    (.value "Saved transition refers to an unknown source stage.")
  rejectIf (∃ d ∈ s.pendingDagDecision, d.sourceStageId ∉ s.template.stageIds)
    (.value "Saved transition refers to an unknown source stage.")
  rejectIf (∃ i ∈ s.pendingInput, i.stageId ∉ s.template.stageIds)
    (.value "Pending input targets an unknown stage.")
  rejectIf (∃ i ∈ s.pendingInput, s.current.map StageDefinition.stageId ≠ some i.stageId)
    (.value "Pending input must belong to the current cursor.")
  rejectIf (∃ d ∈ s.lastDagDecision, ∃ target ∈ d.decision.bind DagCommand.target?, target ∉ s.template.stageIds)
    (.value "Saved move targets an unknown stage.")
  rejectIf (∃ d ∈ s.pendingDagDecision,
      s.activeAttempt ≠ none ∨ s.lastDagDecision ≠ none ∨ s.lastResultId ≠ some d.requestId ∨
        s.stageResultIds.get? d.sourceStageId ≠ some d.requestId ∨
        s.current.map StageDefinition.stageId ≠ some d.sourceStageId)
    (.value "Pending DAG command requires its accepted source result.")
  rejectIf (∃ d ∈ s.pendingDagDecision, ∃ target ∈ d.decision.bind DagCommand.target?,
      target ∉ s.template.stageIds)
    (.value "Pending DAG move targets an unknown stage.")

/-- `validate_references`, the decode check of a saved checkpoint. -/
def validateReferences (s : RunnerState) : Except RunnerError Unit := do
  rejectIf (∃ r ∈ s.pendingRebuild, s.stableSnapshotId ≠ some r.snapshotId)
    (.value "Pending rebuild must retain its protective snapshot.")
  rejectIf (¬ s.usedRequestIds.Nodup) (.value "Duplicate saved request ID.")
  rejectIf (∃ key ∈ s.stageResultOrigins.keys, s.stageResultIds.contains key = false)
    (.value "A result origin requires a saved stage result.")
  rejectIf (¬ s.retainedArtifacts.Nodup) (.value "retained_artifacts must be a unique array of paths.")
  checkServices s.usedRequestIds [] s.services.entries
  validateTransitions s

def ActiveRunner.checkpoint (a : ActiveRunner) (checkpointId : String) : RunnerState :=
  { a.state with pendingAdvance := a.pendingAdvance, checkpointId := some checkpointId }

/-- `_prepare_state_save`: the frozen checkpoint, or the error of its own decode check. -/
def prepareStateSave (a : ActiveRunner) (checkpointId : String) : Except RunnerError RunnerState := do
  validateReferences (a.checkpoint checkpointId)
  pure (a.checkpoint checkpointId)

end ModularPipelines.Runner
