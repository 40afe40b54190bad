import ModularPipelines.Server.Runtime
import Mathlib.Algebra.Ring.Int.Defs

namespace ModularPipelines.Server
open Library

/-- What the controller's process reports; `invalid` is a message that does not validate. -/
inductive ControllerMessage where
  | outcome (outcome : ControllerOutcome)
  | ready
  | stopped (message : String)
  | error (message : String)
  | invalid (message : String)

namespace ServerRuntime

variable (settings : ServerSettings) (fingerprint : Json → String)

def oversized (r : Response) : Response :=
  ⟨r.commandId, .unavailable, r.chainId,
    [("data", .null),
      ("error", errorDocument "response_too_large" "Controller response exceeded its configured limit."
        [("command_state", .str r.state.text), ("command_result", r.state.result)])]⟩

/-- A response that is too large is kept without its data. -/
def boundedResponse (r : Response) : Response × Nat :=
  if r.document.bytes Char.utf8Size ≤ settings.maxResponseBytes then (r, r.document.bytes Char.utf8Size)
  else (oversized r, (oversized r).document.bytes Json.asciiWidth)

/-- The response goes to the read that waits for it, if there is one. -/
def acceptReadResponse (m : ServerRuntime) (r : Response) : Option ServerRuntime :=
  match m.reads.get? r.commandId with
  | some .waiting => some { m with reads := m.reads.set r.commandId (.answered r) }
  | _ => none

def finishRecord (m : ServerRuntime) (identifier : String) (r : CommandRecord) (f : Finished) : ServerRuntime :=
  { m with
    cacheBytes := m.cacheBytes - r.size + f.size
    records := m.records.set identifier { r with finished := some f } }

/-- A known outcome is never replaced. `finishedAt` and `now` are two readings of the clock. -/
def acceptCommandResponse (m : ServerRuntime) (response : Response) (finishedAt now : Nat) : ServerRuntime :=
  let (kept, size) := boundedResponse settings response
  match m.acceptReadResponse kept with
  | some m => m
  | none =>
    match m.records.get? response.commandId with
    | none => m
    | some r =>
      if r.open? then (m.finishRecord response.commandId r ⟨kept, finishedAt, size⟩).prune settings now 0
      else m

def unknownResponse (identifier message : String) (r : CommandRecord) : Response :=
  ⟨identifier, .unknown, r.chainId, [("data", .null), ("error", errorDocument "command_outcome_unknown" message [])]⟩

/-- The command whose task is replacing the runtime keeps its record. -/
def restartId (m : ServerRuntime) : Option String := m.restart.map (fun r => r.1.commandId)

def loses (m : ServerRuntime) (identifier : String) (r : CommandRecord) : Bool :=
  m.restartId != some identifier && r.pending

def lostOutcome (message : String) (stamps : String → Nat) (identifier : String) (r : CommandRecord) : Finished :=
  ⟨unknownResponse identifier message r, stamps identifier,
    (unknownResponse identifier message r).document.bytes Json.asciiWidth⟩

def loseRecord (m : ServerRuntime) (message : String) (stamps : String → Nat) (identifier : String) (r : CommandRecord) :
    CommandRecord :=
  if m.loses identifier r then { r with finished := some (lostOutcome message stamps identifier r) } else r

def lostBytes (m : ServerRuntime) (message : String) (stamps : String → Nat) (identifier : String) (r : CommandRecord) : Int :=
  if m.loses identifier r then (lostOutcome message stamps identifier r).size else 0

def loseRecords (m : ServerRuntime) (message : String) (stamps : String → Nat) : ServerRuntime :=
  { m with
    records := ⟨m.records.entries.map (fun e => (e.1, m.loseRecord message stamps e.1 e.2))⟩
    cacheBytes := m.cacheBytes + (m.records.entries.map (fun e => m.lostBytes message stamps e.1 e.2)).sum }

def failWaiter (message : String) : Waiter → Waiter
  | .waiting => .raised message
  | waiter => waiter

def stale (m : ServerRuntime) (runtimeId : Option String) : Bool :=
  m.state == .closed || runtimeId.any (fun r => r != m.runtimeId)

/-- Live reads fail, and the outcome of every unfinished command becomes unknown. -/
def unavailable (m : ServerRuntime) (message : String) (runtimeId : Option String) (stamps : String → Nat) (now : Nat) :
    ServerRuntime :=
  if m.stale runtimeId then m
  else
    (({ m with
        state := .unavailable
        error := some message
        reads := m.reads.mapValues (failWaiter message) } : ServerRuntime).loseRecords message stamps).prune settings now 0

def acceptReady (m : ServerRuntime) : ServerRuntime :=
  if m.closing ∨ m.alive = false then m
  else
    { m with
      state := .ready
      restart := m.restart.map (fun r => (r.1, match r.2 with | .starting _ => .starting true | phase => phase)) }

def acceptResponse (m : ServerRuntime) (message : ControllerMessage) (runtimeId : Option String) (stamps : String → Nat)
    (now : Nat) : ServerRuntime :=
  if m.stale runtimeId then m
  else
    match message with
    | .outcome o => m.acceptCommandResponse settings o.response (stamps o.response.commandId) now
    | .ready => m.acceptReady
    | .stopped text => { m.unavailable settings text none stamps now with state := .stopped }
    | .error text => m.unavailable settings text none stamps now
    | .invalid text => m.unavailable settings ("Invalid controller response: " ++ text) none stamps now

/-- A read is given to the controller under a new ID. -/
def read (m : ServerRuntime) (identifier name : String) (args : List (String × Json)) : ServerRuntime × Except Failure Unit :=
  match m.requireReady with
  | .error e => (m, .error e)
  | .ok () =>
    if ¬ (startsWith name "stats." ∨ startsWith name "logs.") then
      (m, .error (.value "Only controller read commands use this channel."))
    else if settings.maxReads ≤ m.reads.entries.length then
      (m, .error (.server "too_many_reads" "Too many concurrent controller reads." 429))
    else if settings.queueCapacity ≤ m.requests.length then
      (m, .error (.server "queue_full" "Controller request queue is full." 429))
    else
      ({ m with
          reads := m.reads.set identifier .waiting
          requests := m.requests ++ [.read identifier name args] }, .ok ())

/-- The answer or the deadline ends a read, whose message may still be in the queue. -/
def leaveRead (m : ServerRuntime) (identifier : String) : ServerRuntime := { m with reads := m.reads.pop identifier }

def start (m : ServerRuntime) : ServerRuntime :=
  { m with state := .starting, process := some true, requests := [] }

/-- The controller is asked to stop; a full queue is only logged. -/
def beginClose (m : ServerRuntime) (shutdownId : String) : ServerRuntime :=
  { m with
    closing := true
    closePhase := .joining
    requests := if m.alive && decide (m.requests.length < settings.queueCapacity) then m.requests ++ [.shutdown shutdownId]
      else m.requests }

def setRestartPhase (m : ServerRuntime) (phase : RestartPhase) : ServerRuntime :=
  { m with restart := m.restart.map (fun r => (r.1, phase)) }

/-- A change to the mode that the server has already. -/
def unchanged (m : ServerRuntime) (c : ServerCommand) : Bool :=
  c.command == "server.mode" && modeArgument c.args == some m.mode && m.state == .ready && m.alive

def beginRestart (m : ServerRuntime) (shutdownId : String) : ServerRuntime :=
  if m.closing then m.setRestartPhase .closed
  else (m.beginClose settings shutdownId).setRestartPhase (.closing none)

def closedMessage : String := "Server runtime is closed; unfinished command outcomes are unknown."

/-- The process is gone, or raising has left the outcomes as they were. -/
def settleClose (m : ServerRuntime) (failed : Option String) (stamps : String → Nat) (now : Nat) : ServerRuntime :=
  match failed with
  | none => { m.unavailable settings closedMessage none stamps now with closePhase := .settled }
  | some message => { m with restartBlocked := some message, closePhase := .settled }

def closedPhase (blocked : Option String) : RestartPhase → RestartPhase
  | .closing startError =>
    match startError.or blocked with
    | some message => .raised message
    | none => RestartPhase.closed
  | phase => phase

/-- The channels are released; `blocked` is what forbids a replacement. -/
def closeChannels (m : ServerRuntime) (blocked : Option String) : ServerRuntime :=
  let blocked := blocked.or m.restartBlocked
  { m with
    process := none
    state := .closed
    closePhase := .idle
    restartBlocked := blocked
    restart := m.restart.map (fun r => (r.1, closedPhase blocked r.2)) }

def startReplacement (m : ServerRuntime) (c : ServerCommand) (runtimeId : String) : ServerRuntime :=
  { m with
    mode := (modeArgument c.args).getD m.mode
    runtimeId := runtimeId
    error := none
    closing := false
    state := .starting
    process := some true
    requests := []
    restart := some (c, .starting false) }

def lifecycleResponse (c : ServerCommand) (state : CommandState) (data error : Json) : Response :=
  ⟨c.commandId, state, none, [("experiment_id", .null), ("data", data), ("error", error)]⟩

/-- How the task of a lifecycle command ends; `notes` are those of the exception. -/
inductive LifecycleEnd where
  | succeeded (data : List (String × Json))
  | failed (message : String) (notes : List String)
  | cancelled (notes : List String)

def notesDetails (notes : List String) : List (String × Json) := [("notes", .arr (notes.map .str))]

def LifecycleEnd.response (c : ServerCommand) : LifecycleEnd → Response
  | .succeeded data => lifecycleResponse c .succeeded (.obj data) .null
  | .failed message notes =>
    lifecycleResponse c .failed .null
      (errorDocument (if c.command = "server.shutdown" then "server_shutdown_failed" else "runtime_restart_failed") message
        (notesDetails notes))
  | .cancelled notes =>
    lifecycleResponse c .cancelled .null
      (errorDocument "command_cancelled" "HTTP server is stopping." (notesDetails notes))

def LifecycleEnd.errorText : LifecycleEnd → Option String
  | .succeeded _ => none
  | .failed message _ => some message
  | .cancelled _ => some "HTTP server is stopping."

def shutdownData (m : ServerRuntime) : List (String × Json) :=
  [("runtime_id", .str m.runtimeId), ("runtime_stopped", .bool true), ("http_shutdown_requested", .bool true)]

/-- `controller` is what the new process has told about itself. -/
def restartData (m : ServerRuntime) (previousId : String) (changed : Bool) (controller : Json) : List (String × Json) :=
  [("previous_runtime_id", .str previousId), ("runtime_id", .str m.runtimeId), ("server_mode", .str m.mode.text),
    ("changed", .bool changed), ("controller", controller)]

/-- The end of the task that is due, given the runtime's ID before it, the controller's identity and the notes
of what has been raised. -/
def lifecycleEnd (m : ServerRuntime) (c : ServerCommand) (phase : RestartPhase) (previousId : String) (controller : Json)
    (notes : List String) : Option LifecycleEnd :=
  match phase with
  | .admitted => if m.unchanged c then some (.succeeded (m.restartData previousId false controller)) else none
  | .closed =>
    if m.httpClosing then some (.cancelled notes)
    else if c.command = "server.shutdown" then some (.succeeded m.shutdownData) else none
  | .raised message => some (.failed message notes)
  | .starting true => some (.succeeded (m.restartData previousId true controller))
  | .starting false | .closing _ => none

/-- A closed controller does not hide the owner's own receipt. -/
def finishLifecycle (m : ServerRuntime) (c : ServerCommand) (ending : LifecycleEnd) (stamps : String → Nat) (now : Nat) :
    ServerRuntime :=
  let shutdown := c.command == "server.shutdown" && ending.errorText.isNone
  let m := { m with
    httpClosing := m.httpClosing || shutdown
    error := ending.errorText.or m.error
    state := if m.state = RuntimeState.closed then .unavailable else m.state }
  let m := m.acceptCommandResponse settings (ending.response c) (stamps c.commandId) now
  { m with restart := none, state := if shutdown then .closed else m.state }

/-- What may happen next: calls of clients, the controller and its queue, the tasks of the owner. -/
inductive Action where
  | start
  | submit (document : Except String Submission) (clock : Nat → Nat) (stamps : Nat → String)
  | result (identifier : String) (now : Nat)
  | read (identifier name : String) (args : List (String × Json))
  | leaveRead (identifier : String)
  | take
  | reply (message : ControllerMessage) (runtimeId : String) (stamps : String → Nat) (now : Nat)
  | lost (message runtimeId : String) (stamps : String → Nat) (now : Nat)
  | exit
  | beginRestart (shutdownId : String)
  | finishRestart (previousId : String) (controller : Json) (notes : List String) (stamps : String → Nat) (now : Nat)
  | replace (runtimeId : String)
  | startFails (message shutdownId : String)
  | closeHttp
  | beginClose (shutdownId : String)
  | settle (failed : Option String) (stamps : String → Nat) (now : Nat)
  | closeChannels (blocked : Option String)

def step (m : ServerRuntime) : Action → Option ServerRuntime
  | .start => if m.state = .new then some m.start else none
  | .submit document clock stamps => some (m.submit settings fingerprint document clock stamps).1
  | .result identifier now => some (m.result settings identifier now).1
  | .read identifier name args =>
    if m.records.contains identifier || m.reads.contains identifier then none
    else some (m.read settings identifier name args).1
  | .leaveRead identifier => if m.reads.contains identifier then some (m.leaveRead identifier) else none
  | .take =>
    match m.requests with
    | [] => none
    | _ :: rest => if m.alive then some { m with requests := rest } else none
  | .reply message runtimeId stamps now => some (m.acceptResponse settings message (some runtimeId) stamps now)
  | .lost message runtimeId stamps now => some (m.unavailable settings message (some runtimeId) stamps now)
  | .exit => some { m with process := m.process.map (fun _ => false) }
  | .beginRestart shutdownId =>
    match m.restart with
    | some (c, .admitted) => if m.unchanged c then none else some (m.beginRestart settings shutdownId)
    | _ => none
  | .finishRestart previousId controller notes stamps now =>
    match m.restart with
    | some (c, phase) =>
      (m.lifecycleEnd c phase previousId controller notes).map (fun ending => m.finishLifecycle settings c ending stamps now)
    | none => none
  | .replace runtimeId =>
    match m.restart with
    | some (c, .closed) =>
      if m.httpClosing || c.command == "server.shutdown" then none else some (m.startReplacement c runtimeId)
    | _ => none
  | .startFails message shutdownId =>
    match m.restart with
    | some (_, .starting false) => some ((m.beginClose settings shutdownId).setRestartPhase (.closing (some message)))
    | _ => none
  | .closeHttp => some { m with httpClosing := true }
  | .beginClose shutdownId =>
    if m.httpClosing && m.restart.isNone && !m.closing then some (m.beginClose settings shutdownId) else none
  | .settle failed stamps now => if m.closePhase = .joining then some (m.settleClose settings failed stamps now) else none
  | .closeChannels blocked => if m.closePhase = .settled then some (m.closeChannels blocked) else none

/-- The runs of the owner; `Allowed` may restrict what happens. -/
inductive Reachable (Allowed : ServerRuntime → Action → Prop) : ServerRuntime → Prop where
  | start (instanceId runtimeId : String) (mode : ServerMode) (stopHttp : Bool) :
      Reachable Allowed (init instanceId runtimeId mode stopHttp)
  | step {m m' : ServerRuntime} {action : Action} (before : Reachable Allowed m) (allowed : Allowed m action)
      (next : m.step settings fingerprint action = some m') : Reachable Allowed m'

end ServerRuntime

end ModularPipelines.Server
