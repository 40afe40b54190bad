import ModularPipelines.Journal.Events
import ModularPipelines.Library.JsonPath

namespace ModularPipelines.Results
open Library Library.Json Journal

/-- A result that has passed the checks of its fields; the optional ones may be absent. -/
structure ParticipantResult where
  success : Bool
  data : Json
  error : Option Json
  execution : Option Json

def optionalMember (key : String) (v : Option Json) : List (String × Json) :=
  match v with
  | some v => [(key, v)]
  | none => []

def ParticipantResult.document (r : ParticipantResult) : Json :=
  .obj ([("result", .str (if r.success then "success" else "fail")), ("data", r.data)] ++
    optionalMember "error" r.error ++ optionalMember "execution" r.execution)

/-- `copy_json_object` at the boundary of a participant. -/
def ParticipantResult.accepted (r : ParticipantResult) : Bool := decide (r.document.depth ≤ maxDepth)

/-- What the stdout of a stage may hold. -/
def ParticipantResult.ofStage (r : ParticipantResult) : Bool := r.error.isNone && r.execution.isNone

/-- `_finish_executor_status` of the retained execution metadata. -/
def finishExecutorStatus (execution : Json) : Json :=
  ((execution.set "finished" (.bool true)).set "current" .null).set "pending" (.arr [])

/-- What of a result a later document holds. -/
inductive Part where
  | result
  | data
  | error
  | execution
  | finishedStatus

def Part.value (r : ParticipantResult) : Part → Option Json
  | .result => some r.document
  | .data => some r.data
  | .error => r.error
  | .execution => r.execution
  | .finishedStatus => r.execution.map finishExecutorStatus

/-- The inputs of an execution, as a request carries them in `args`. -/
def executionCall : List Step := [.member "input_data"]

def requestArgs : List Step := .member "args" :: executionCall

/-- The retained fields of a heartbeat's reply. -/
inductive ReplyField where
  | data
  | error
  | execution

def ReplyField.part : ReplyField → Part
  | .data => .data
  | .error => .error
  | .execution => .execution

def ReplyField.key : ReplyField → String
  | .data => "data"
  | .error => "error"
  | .execution => "execution"

/-- The places of `state_to_document` that hold a part of a result. -/
inductive StatePlace where
  | lastResult
  | attemptInput
  | executorStatus
  | executorCall
  | pendingRequest
  | activeRequest
  | lastStatus (field : ReplyField)

def StatePlace.part : StatePlace → Part
  | .executorStatus => .finishedStatus
  | .lastStatus field => field.part
  | _ => .data

def savedService (path : List Step) : List Step := .member "services" :: .anyMember :: path

def StatePlace.path : StatePlace → List Step
  | .lastResult => [.member "last_result"]
  | .attemptInput => [.member "active_attempt", .member "input_data"]
  | .executorStatus => [.member "active_attempt", .member "executor_status"]
  | .executorCall => .member "active_attempt" :: .member "executor_status" :: .member "current" :: requestArgs
  | .pendingRequest => savedService (.member "pending_requests" :: .item :: requestArgs)
  | .activeRequest => savedService (.member "active_request" :: requestArgs)
  | .lastStatus field => savedService [.member "last_status", .member field.key]

/-- The places of `get_state` that hold a part of a result. -/
inductive PublicPlace where
  | result
  | executor
  | executorCall
  | lastStatus (field : ReplyField)

def PublicPlace.part : PublicPlace → Part
  | .executor => .finishedStatus
  | .lastStatus field => field.part
  | _ => .data

def PublicPlace.path : PublicPlace → List Step
  | .result => [.member "result"]
  | .executor => [.member "executor"]
  | .executorCall => .member "executor" :: .member "current" :: requestArgs
  | .lastStatus field => [.member "services", .item, .member "last_status", .member field.key]

/-- The event payloads that hold a part of a result. -/
inductive Payload where
  | commandResult
  | stageFinished
  | requestQueued
  | checkpoint (place : StatePlace)
  | experimentState (place : PublicPlace)

def Payload.part : Payload → Part
  | .commandResult => .result
  | .stageFinished => .result
  | .requestQueued => .data
  | .checkpoint place => place.part
  | .experimentState place => place.part

def Payload.path : Payload → List Step
  | .commandResult => [.member "response"]
  | .stageFinished => [.member "result"]
  | .requestQueued => requestArgs
  | .checkpoint place => place.path
  | .experimentState place => place.path

def journalEvent (payload : List Step) : List Step := .member "data" :: payload

/-- `JournalEventPage.document`. -/
def eventPage (event : List Step) : List Step := .member "events" :: .item :: .member "event" :: event

def controllerOutcome (data : List Step) : List Step := .member "data" :: data

/-- Documents on the way of a result that are checked with a depth of their own. The receipts in which the owner of
the server wraps an outcome are left out. -/
inductive Boundary where
  | attemptParameters
  | moduleInput
  | executionCall
  | runtimeContext
  | stageLaunch
  | request
  | queueArgs
  | payload (content : Payload)
  | event (content : Payload)
  | readEvents (content : Payload)
  | savedState (place : StatePlace)
  | snapshot (place : StatePlace)
  | stateOutcome (place : PublicPlace)
  | stepOutcome

def Boundary.part : Boundary → Part
  | .payload content => content.part
  | .event content => content.part
  | .readEvents content => content.part
  | .savedState place => place.part
  | .snapshot place => place.part
  | .stateOutcome place => place.part
  | .stepOutcome => .result
  | _ => .data

def Boundary.path : Boundary → List Step
  | .attemptParameters => [.member "input_data"]
  | .moduleInput => [.member "input_data"]
  | .executionCall => Results.executionCall
  | .runtimeContext => .member "runtime_context" :: Results.executionCall
  | .stageLaunch => .member "call" :: Results.executionCall
  | .request => requestArgs
  | .queueArgs => Results.executionCall
  | .payload content => content.path
  | .event content => journalEvent content.path
  | .readEvents content => controllerOutcome (eventPage (journalEvent content.path))
  | .savedState place => place.path
  | .snapshot place => .member "state" :: place.path
  | .stateOutcome place => controllerOutcome place.path
  | .stepOutcome => controllerOutcome [.member "result"]

/-- Every document that passes its check with an empty value passes it with the result's part. -/
def Composes (r : ParticipantResult) : Prop :=
  ∀ (b : Boundary) (frames : List Frame), Fits b.path frames → ∀ v ∈ b.part.value r,
    (plug frames .null).depth ≤ maxDepth → (plug frames v).depth ≤ maxDepth

end ModularPipelines.Results
