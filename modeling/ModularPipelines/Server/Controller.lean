import ModularPipelines.Server.Runtime

namespace ModularPipelines.Server
open Library

structure ControllerCommand where
  commandId : String
  command : String
  args : List (String × Json)
  target : Json
  chainId : Option String

def controllerCommand (chainId : Option String) (c : ServerCommand) : ControllerCommand :=
  ⟨c.commandId, c.command, c.args, (c.target.map CommandTarget.document).getD (.obj []), chainId⟩

def readCommand (commandId name : String) (args : List (String × Json)) : ControllerCommand :=
  ⟨commandId, name, args, .obj [], none⟩

def Request.document : Request → Json
  | .submission s => s.document
  | .read commandId name args =>
    .obj [("api_version", .int 1), ("command_id", .str commandId), ("command", .str name), ("args", .obj args)]
  | .shutdown commandId =>
    .obj [("api_version", .int 1), ("command_id", .str commandId), ("command", .str "server.shutdown"), ("args", .obj [])]

/-- A command that a request has brought; `request` and `place` tell its occurrences apart. -/
structure Job where
  command : ControllerCommand
  request : Nat
  place : Nat

/-- What an operation raises. -/
inductive OperationError where
  | logging
  | notImplemented
  | fileExists
  | storageConflict
  | storageCapacity
  | storedObjectNotFound
  | storage
  | fileNotFound
  | invalid
  | runtime
  | other (type : String)

namespace OperationError

def code (name : String) : OperationError → String
  | .logging => "journal_unavailable"
  | .notImplemented => "unsupported_feature"
  | .fileExists => if startsWith name "archive." then "archive_conflict" else "experiment_id_conflict"
  | .storageConflict => "storage_conflict"
  | .storageCapacity => "storage_capacity"
  | .storedObjectNotFound => "not_found"
  | .storage => "storage_error"
  | .fileNotFound => "not_found"
  | .invalid => "invalid_request"
  | .runtime => "invalid_state"
  | .other _ => "operation_failed"

def text (message : String) : OperationError → String
  | .other type => type ++ ": " ++ message
  | _ => message

end OperationError

def failureResponse (experiment : Option String) (commandId : String) (chainId : Option String) (code message : String)
    (notes : List String) : Response :=
  ⟨commandId, if code = "command_cancelled" then .cancelled else .failed, chainId,
    [("experiment_id", chainDocument experiment), ("data", .null),
      ("error", errorDocument code message (if notes.isEmpty then [] else [("notes", .arr (notes.map .str))]))]⟩

theorem chainDocument_depth (chainId : Option String) : (chainDocument chainId).depth = 0 := by
  cases chainId <;> rfl

theorem texts_depth (texts : List String) : Json.depthElems (texts.map Json.str) ≤ 1 := by
  induction texts with
  | nil => exact Nat.zero_le _
  | cons t rest ih => exact Nat.max_le.mpr ⟨Nat.le_refl _, ih⟩

theorem failureResponse_depth (experiment : Option String) (commandId : String) (chainId : Option String)
    (code message : String) (notes : List String) :
    (failureResponse experiment commandId chainId code message notes).document.depth ≤ maxDepth := by
  have hnotes := texts_depth notes
  have hdetails : Json.depthMembers (if notes.isEmpty then [] else [("notes", .arr (notes.map .str))]) ≤ 2 := by
    split
    · exact Nat.zero_le _
    · exact Nat.max_le.mpr ⟨Nat.succ_le_succ hnotes, Nat.zero_le _⟩
  have hresult : ∀ state : CommandState, state.result.depth = 0 := fun state => by cases state <;> rfl
  simp only [Response.document, failureResponse, errorDocument, List.cons_append, List.nil_append, Json.depth,
    Json.depthMembers, chainDocument_depth, hresult, maxDepth]
  omega

/-- The outcome of a command that has failed or been cancelled. -/
def failure (experiment : Option String) (commandId : String) (chainId : Option String) (code message : String)
    (notes : List String) : ControllerOutcome where
  response := failureResponse experiment commandId chainId code message notes
  terminal := by
    unfold failureResponse
    dsimp only
    split <;> rfl
  shallow := failureResponse_depth experiment commandId chainId code message notes

/-- What goes to the owner; a rejected chain has no command ID. -/
inductive ControllerReply where
  | outcome (outcome : ControllerOutcome)
  | rejection (message : String)

/-- Where the task of the current command stands; a cancelled one ends without a response. -/
inductive TaskPhase where
  | created (cancelled : Bool)
  | working (cancelled : Bool)
  | ended (response : Option ControllerOutcome)

def TaskPhase.cancel : TaskPhase → TaskPhase
  | .created _ => .created true
  | .working _ => .working true
  | .ended response => .ended response

/-- `received`, `controls`, `asked`, `started` and `answered` are not in the source; they keep the number of
the requests, the commands that came with them, those whose operation has begun, and all outcomes. -/
structure Controller where
  experiment : Option String
  incoming : List Request
  receiving : Bool
  queue : List (Job × List Job)
  tail : List Job
  current : Option (Job × TaskPhase)
  reads : List Job
  outbox : List ControllerReply
  responses : List ControllerReply
  closing : Bool
  received : Nat
  controls : List Job
  asked : List Job
  started : List Job
  answered : List (Job × ControllerOutcome)

namespace Controller

def new : Controller where
  experiment := none
  incoming := []
  receiving := true
  queue := []
  tail := []
  current := none
  reads := []
  outbox := []
  responses := []
  closing := false
  received := 0
  controls := []
  asked := []
  started := []
  answered := []

def publish (m : Controller) (job : Job) (o : ControllerOutcome) : Controller :=
  { m with outbox := m.outbox ++ [.outcome o], answered := m.answered ++ [(job, o)] }

def jobFailure (m : Controller) (job : Job) (code message : String) : ControllerOutcome :=
  failure m.experiment job.command.commandId job.command.chainId code message []

def cancelAll (message : String) (m : Controller) (jobs : List Job) : Controller :=
  jobs.foldl (fun m job => m.publish job (m.jobFailure job "command_cancelled" message)) m

def waiting (m : Controller) : List Job := m.tail ++ m.queue.flatMap (fun b => b.1 :: b.2)

/-- A standalone stop cancels what waits and interrupts the current command. -/
def cancelQueuedCommands (m : Controller) : Controller :=
  cancelAll "Cancelled by standalone stop."
    { m with tail := [], queue := [], current := m.current.map (fun c => (c.1, c.2.cancel)) } m.waiting

def enqueue (m : Controller) : List Job → Controller
  | [] => m
  | first :: rest => { m with queue := m.queue ++ [(first, rest)], controls := m.controls ++ first :: rest }

def isRead (name : String) : Bool := startsWith name "stats." || startsWith name "logs."

/-- Reads run beside the commands, and a shutdown ends the intake. -/
def admitCommand (m : Controller) (job : Job) : Controller :=
  if job.command.command = "server.shutdown" then { m with receiving := false }
  else if isRead job.command.command then { m with reads := m.reads ++ [job], asked := m.asked ++ [job] }
  else if job.command.command = "stop" then m.cancelQueuedCommands.enqueue [job]
  else m.enqueue [job]

def chainJobs (request : Nat) (chainId : String) (commands : List ServerCommand) : List Job :=
  commands.mapIdx (fun place c => ⟨controllerCommand (some chainId) c, request, place⟩)

def depthMessage : String := "JSON data must not be cyclic or nested more than 32 levels."

def reject (m : Controller) (job : Job) : Controller :=
  ({ m with asked := m.asked ++ [job] }).publish job (m.jobFailure job "invalid_request" depthMessage)

/-- A request that is nested too deeply is answered with the ID that it has at its top. -/
def admitRequest (m : Controller) (request : Request) : Controller :=
  let single (c : ControllerCommand) :=
    if maxDepth < request.document.depth then m.reject ⟨c, m.received, 0⟩ else m.admitCommand ⟨c, m.received, 0⟩
  match request with
  | .submission (.single c) => single (controllerCommand none c)
  | .submission (.chain b) =>
    if maxDepth < request.document.depth then { m with outbox := m.outbox ++ [.rejection depthMessage] }
    else m.enqueue (chainJobs m.received b.chainId b.commands)
  | .read commandId name args => single (readCommand commandId name args)
  | .shutdown commandId => single (readCommand commandId "server.shutdown" [])

def receive (m : Controller) : Option Controller :=
  match m.incoming with
  | [] => none
  | request :: rest =>
    if m.receiving then
      let admitted := ({ m with incoming := rest }).admitRequest request
      some { admitted with received := admitted.received + 1 }
    else none

/-- The next command of the chain gets its task, or else the first one of the next chain. -/
def next (m : Controller) : Controller :=
  match m.tail, m.queue with
  | job :: rest, _ => { m with tail := rest, current := some (job, .created false) }
  | [], (job, rest) :: batches => { m with tail := rest, queue := batches, current := some (job, .created false) }
  | [], [] => { m with current := none }

/-- The idle loop wakes up. -/
def wake (m : Controller) : Option Controller :=
  match m.current, m.queue with
  | none, _ :: _ => some m.next
  | _, _ => none

/-- A task that has been cancelled before its first turn never begins. -/
def begin (m : Controller) : Option Controller :=
  match m.current with
  | some (job, .created true) => some { m with current := some (job, .ended none) }
  | some (job, .created false) =>
    some { m with current := some (job, .working false), started := m.started ++ [job] }
  | _ => none

/-- What the operation of a command comes to. -/
inductive Performed where
  | succeeded (data : Json)
  | raised (error : OperationError) (message : String) (notes : List String)
  | cancelled

def successResponse (m : Controller) (c : ControllerCommand) (data : Json) : Response :=
  ⟨c.commandId, .succeeded, c.chainId,
    [("experiment_id", chainDocument m.experiment), ("data", data), ("error", .null)]⟩

/-- A result that is nested too deeply does not make an outcome. -/
def performed (m : Controller) (c : ControllerCommand) : Performed → Option ControllerOutcome
  | .succeeded data =>
    if h : (m.successResponse c data).document.depth ≤ maxDepth then some ⟨m.successResponse c data, rfl, h⟩
    else some (failure m.experiment c.commandId c.chainId (OperationError.code c.command .invalid) depthMessage [])
  | .raised error message notes =>
    some (failure m.experiment c.commandId c.chainId (error.code c.command) (error.text message) notes)
  | .cancelled => none

def finish (m : Controller) (p : Performed) : Option Controller :=
  match m.current with
  | some (job, .working _) => some { m with current := some (job, .ended (m.performed job.command p)) }
  | _ => none

/-- The loop goes on after a task: a failure cancels the rest of the chain. -/
def resume (m : Controller) : Option Controller :=
  match m.current with
  | some (job, .ended result) =>
    let o := result.getD (m.jobFailure job "command_cancelled" "Interrupted by standalone stop.")
    let m := m.publish job o
    if o.response.state = .succeeded then some m.next
    else some (cancelAll "Previous command failed." { m with tail := [] } m.tail).next
  | _ => none

/-- A read ends with an answer. -/
def answerRead (m : Controller) (place : Nat) (p : Performed) : Option Controller :=
  match m.reads[place]? with
  | none => none
  | some job =>
    (m.performed job.command p).map (fun o => ({ m with reads := m.reads.eraseIdx place }).publish job o)

def writeResponse (m : Controller) : Option Controller :=
  match m.outbox with
  | [] => none
  | reply :: rest => some { m with outbox := rest, responses := m.responses ++ [reply] }

inductive Action where
  | select (experiment : Option String)
  | receive
  | wake
  | begin
  | finish (result : Performed)
  | resume
  | answerRead (place : Nat) (result : Performed)
  | writeResponse
  | close

def step (m : Controller) (action : Action) : Option Controller :=
  if m.closing then none
  else
    match action with
    | .select experiment => some { m with experiment := experiment }
    | .receive => m.receive
    | .wake => m.wake
    | .begin => m.begin
    | .finish result => m.finish result
    | .resume => m.resume
    | .answerRead place result => m.answerRead place result
    | .writeResponse => m.writeResponse
    | .close => some { m with closing := true, tail := [] }

/-- A request arrives from the queue of the owner. -/
def deliver (m : Controller) (request : Request) : Controller := { m with incoming := m.incoming ++ [request] }

/-- The reply that the owner takes next. -/
def collect (m : Controller) : Option (ControllerReply × Controller) :=
  match m.responses with
  | [] => none
  | reply :: rest => some (reply, { m with responses := rest })

/-- The runs of a controller, between them the arrival of requests and the taking of replies. -/
inductive Reachable : Controller → Prop where
  | start : Reachable new
  | step {m m' : Controller} {action : Action} (before : Reachable m) (next : m.step action = some m') : Reachable m'
  | deliver {m : Controller} (request : Request) (before : Reachable m) : Reachable (m.deliver request)
  | collect {m m' : Controller} {reply : ControllerReply} (before : Reachable m) (taken : m.collect = some (reply, m')) :
    Reachable m'

end Controller

end ModularPipelines.Server
