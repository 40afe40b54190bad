import ModularPipelines.Library.Dict
import ModularPipelines.Server.Documents

namespace ModularPipelines.Server
open Library

structure ServerSettings where
  maxPending : Nat
  maxReads : Nat
  maxRecords : Nat
  maxRequestBytes : Nat
  maxResponseBytes : Nat
  maxCacheBytes : Nat
  resultTtl : Nat
  stopRoom : maxPending < maxRecords
  responseRoom : maxResponseBytes ≤ maxCacheBytes

namespace ServerSettings

def queueCapacity (s : ServerSettings) : Nat := s.maxPending + s.maxReads + 4

end ServerSettings

/-- What a call raises. -/
inductive Failure where
  | server (code message : String) (status : Nat)
  | value (message : String)

structure Finished where
  response : Response
  finishedAt : Nat
  size : Nat

structure CommandRecord where
  request : ServerCommand
  chainId : Option String
  fingerprint : String
  submittedAt : String
  finished : Option Finished

namespace CommandRecord

def isStop (r : CommandRecord) : Bool := r.request.command == "stop" && r.chainId.isNone

def size (r : CommandRecord) : Nat := (r.finished.map Finished.size).getD 0

def pending (r : CommandRecord) : Bool := r.finished.isNone

/-- No reply has come, or only the runtime's own note that none may come. -/
def open? (r : CommandRecord) : Bool := r.finished.all (fun f => f.response.state == .unknown)

end CommandRecord

inductive RuntimeState where
  | new
  | starting
  | ready
  | unavailable
  | stopped
  | closed
  deriving DecidableEq

inductive Waiter where
  | waiting
  | answered (response : Response)
  | raised (message : String)

/-- The messages of the bounded queue to the controller. -/
inductive Request where
  | submission (submission : Submission)
  | read (commandId name : String) (args : List (String × Json))
  | shutdown (commandId : String)

def Request.identifiers : Request → List String
  | .submission s => s.identifiers
  | .read commandId _ _ => [commandId]
  | .shutdown commandId => [commandId]

/-- Where the task of a lifecycle command stands. -/
inductive RestartPhase where
  | admitted
  | closing (startError : Option String)
  | closed
  | raised (message : String)
  | starting (ready : Bool)

inductive ClosePhase where
  | idle
  | joining
  | settled
  deriving DecidableEq

/-- A command ID has been given to a runtime, or its record has been evicted. -/
inductive ReceiptEvent where
  | enqueued (runtimeId commandId : String)
  | evicted (commandId : String)
  deriving DecidableEq

/-- `history` is not in the source; it keeps what has been enqueued and evicted. -/
structure ServerRuntime where
  instanceId : String
  stopHttp : Bool
  mode : ServerMode
  runtimeId : String
  state : RuntimeState
  error : Option String
  closing : Bool
  httpClosing : Bool
  closePhase : ClosePhase
  process : Option Bool
  requests : List Request
  records : Dict CommandRecord
  chains : Dict (List String)
  reads : Dict Waiter
  cacheBytes : Int
  restart : Option (ServerCommand × RestartPhase)
  restartBlocked : Option String
  history : List ReceiptEvent

namespace ServerRuntime

variable (settings : ServerSettings) (fingerprint : Json → String)

def init (instanceId runtimeId : String) (mode : ServerMode) (stopHttp : Bool) : ServerRuntime where
  instanceId := instanceId
  stopHttp := stopHttp
  mode := mode
  runtimeId := runtimeId
  state := .new
  error := none
  closing := false
  httpClosing := false
  closePhase := .idle
  process := none
  requests := []
  records := Dict.empty
  chains := Dict.empty
  reads := Dict.empty
  cacheBytes := 0
  restart := none
  restartBlocked := none
  history := []

def alive (m : ServerRuntime) : Bool := m.process == some true

def finishedRecords (m : ServerRuntime) : List (String × Finished) :=
  (m.records.entries.filterMap (fun e => e.2.finished.map (fun f => (e.1, f)))).mergeSort
    (fun a b => a.2.finishedAt ≤ b.2.finishedAt)

def evicts (m : ServerRuntime) (now required : Nat) (f : Finished) : Bool :=
  decide (f.finishedAt + settings.resultTtl ≤ now) || decide (settings.maxRecords < m.records.entries.length + required) ||
    decide ((settings.maxCacheBytes : Int) < m.cacheBytes)

def evict (now required : Nat) (m : ServerRuntime) (entry : String × Finished) : ServerRuntime :=
  if m.evicts settings now required entry.2 then
    { m with
      cacheBytes := m.cacheBytes - entry.2.size
      records := m.records.pop entry.1
      history := m.history ++ [.evicted entry.1] }
  else m

def dropChains (m : ServerRuntime) : ServerRuntime :=
  { m with chains := m.chains.keep (fun chainId => ((m.chains.get? chainId).getD []).any m.records.contains) }

/-- Finished receipts leave by age and when there are too many of them or too large ones. -/
def prune (m : ServerRuntime) (now required : Nat) : ServerRuntime :=
  (m.finishedRecords.foldl (evict settings now required) m).dropChains

def pendingResponse (identifier : String) (r : CommandRecord) : Response :=
  ⟨identifier, .pending, r.chainId, [("experiment_id", .null), ("data", .null), ("error", .null)]⟩

/-- The response of a record, or the note that it has none yet. -/
def currentResponse (identifier : String) (r : CommandRecord) : Response :=
  (r.finished.map Finished.response).getD (pendingResponse identifier r)

def commandReceipt (m : ServerRuntime) (identifier : String) (r : CommandRecord) : Json :=
  ((currentResponse identifier r).document.set "server_instance_id" (.str m.instanceId)).set "submitted_at" (.str r.submittedAt)

def unknownCommand : Failure :=
  .server "unknown_command"
    "Command is unknown or expired in this server instance; do not infer that it never executed." 404

/-- `_result`, with the response beside its receipt. -/
def result (m : ServerRuntime) (identifier : String) (now : Nat) : ServerRuntime × Except Failure (Response × Json) :=
  let m := m.prune settings now 0
  match m.records.get? identifier with
  | none => (m, .error unknownCommand)
  | some r => (m, .ok (currentResponse identifier r, m.commandReceipt identifier r))

def results (m : ServerRuntime) (clock : Nat → Nat) : List String → ServerRuntime × Except Failure (List (Response × Json))
  | [] => (m, .ok [])
  | identifier :: rest =>
    match m.result settings identifier (clock 0) with
    | (m, .error e) => (m, .error e)
    | (m, .ok first) =>
      match m.results (fun i => clock (i + 1)) rest with
      | (m, .error e) => (m, .error e)
      | (m, .ok others) => (m, .ok (first :: others))

def chainReceipt (m : ServerRuntime) (chainId : String) (receipts : List Json) : Json :=
  .obj [("server_instance_id", .str m.instanceId), ("chain_id", .str chainId), ("commands", .arr receipts)]

def depthError : Failure := .value "JSON data must not be cyclic or nested more than 32 levels."

def receipt (m : ServerRuntime) (identifiers : List String) (chainId : Option String) (clock : Nat → Nat) :
    ServerRuntime × Except Failure Json :=
  match chainId with
  | none =>
    match identifiers with
    | [] => (m, .error (.value "Empty submission."))
    | identifier :: _ =>
      match m.result settings identifier (clock 0) with
      | (m, .error e) => (m, .error e)
      | (m, .ok found) => (m, .ok found.2)
  | some chainId =>
    match m.results settings clock identifiers with
    | (m, .error e) => (m, .error e)
    | (m, .ok found) =>
      if found.any (fun f => f.1.chainId.any (fun c => c != chainId)) then
        (m, .error (.value "Chain receipts must belong to one chain and server instance."))
      else if maxDepth < (m.chainReceipt chainId (found.map Prod.snd)).depth then (m, .error depthError)
      else (m, .ok (m.chainReceipt chainId (found.map Prod.snd)))

def checkSubmissionIdentifiers (m : ServerRuntime) (identifiers : List String) (chainId : Option String) : Except Failure Unit :=
  if ¬ identifiers.Nodup then .error (.value "Command IDs in a chain must be distinct.")
  else if identifiers.any m.reads.contains then
    .error (.server "command_id_conflict" "A command ID is already used by an active read request." 409)
  else if chainId.any (fun c => (m.chains.get? c).any (fun members => members != identifiers)) then
    .error (.server "chain_id_conflict" "The retained chain ID has a different command order or membership." 409)
  else .ok ()

def newRecord (stamps : Nat → String) (chainId : Option String) (i : Nat) (c : ServerCommand) : CommandRecord :=
  ⟨c, chainId, fingerprint (commandDocument c chainId), stamps i, none⟩

def newRecords (s : Submission) (stamps : Nat → String) : List CommandRecord :=
  s.commands.mapIdx (newRecord fingerprint stamps s.chainId)

def sameRequest (m : ServerRuntime) (r : CommandRecord) : Bool :=
  (m.records.get? r.request.commandId).any (fun kept => kept.fingerprint == r.fingerprint)

def isRetainedSubmission (m : ServerRuntime) (records : List CommandRecord) : Except Failure Bool :=
  if records.any (fun r => m.records.contains r.request.commandId) then
    if records.all m.sameRequest then .ok true
    else .error (.server "command_id_conflict" "A retained command ID has a different request." 409)
  else .ok false

def runOnly (name : String) : Bool := ["service.start", "service.stop", "reload_template"].contains name

def checkSubmissionMode (m : ServerRuntime) : List ServerCommand → Except Failure Unit
  | [] => .ok ()
  | c :: rest =>
    if runOnly c.command ∧ m.mode ≠ .run then
      .error (.server "invalid_mode" "Service control and template reload require --mode run." 409)
    else if startsWith c.command "module." ∧ m.mode ≠ .maintenance then
      .error (.server "invalid_mode" "Module commands require --mode maintenance." 409)
    else m.checkSubmissionMode rest

def admitLifecycleCommand (m : ServerRuntime) (c : ServerCommand) : Except Failure Unit :=
  match m.restart with
  | some (pending, _) =>
    .error (.server (if pending.command = "server.shutdown" then "shutdown_pending" else "restart_pending")
      "A server lifecycle operation is already pending." 409)
  | none =>
    if c.command = "server.shutdown" ∧ m.stopHttp = false then
      .error (.server "unsupported_feature" "This HTTP owner does not support remote shutdown." 501)
    else if m.httpClosing ∨ m.state = .new ∨ m.state = .starting then
      .error (.server "controller_unavailable" "Server is starting or shutting down." 503)
    else
      match m.restartBlocked with
      | some message => .error (.server "restart_blocked" message 409)
      | none => .ok ()

def requireReady (m : ServerRuntime) : Except Failure Unit :=
  if m.closing ∨ m.restart.isSome ∨ m.state ≠ .ready ∨ m.alive = false then
    .error (.server "controller_unavailable" (m.error.getD "Controller is not available.") 503)
  else .ok ()

def pendingRecords (m : ServerRuntime) : List CommandRecord := m.records.values.filter CommandRecord.pending

/-- The part of the capacity check before the receipts are pruned for the new records. -/
def checkPending (m : ServerRuntime) (s : Submission) : Except Failure Unit :=
  if s.chainId.any m.chains.contains then
    .error (.server "chain_id_conflict" "The retained chain ID already identifies another chain." 409)
  else if s.priorityStop ∧ m.pendingRecords.any CommandRecord.isStop then
    .error (.server "stop_pending" "A standalone stop is already pending." 409)
  else if settings.maxPending + (if s.priorityStop ∨ s.lifecycle.isSome then 1 else 0) <
      m.pendingRecords.length + s.commands.length then
    .error (.server "queue_full" "Too many pending commands; a standalone stop remains available." 429)
  else .ok ()

def checkRecords (m : ServerRuntime) (count : Nat) : Except Failure Unit :=
  if settings.maxRecords < m.records.entries.length + count then
    .error (.server "queue_full" "The command record limit has been reached." 429)
  else .ok ()

/-- A lifecycle command is not sent to the controller. -/
def checkQueue (m : ServerRuntime) (s : Submission) : Except Failure Unit :=
  if s.lifecycle.isNone ∧ settings.queueCapacity ≤ m.requests.length then
    .error (.server "queue_full" "Controller request queue is full." 429)
  else .ok ()

def insertRecords (d : Dict CommandRecord) (records : List CommandRecord) : Dict CommandRecord :=
  records.foldl (fun d r => d.set r.request.commandId r) d

/-- The records and the chain are kept, and the message is in the queue or the task is created. -/
def insertSubmission (m : ServerRuntime) (s : Submission) (records : List CommandRecord) : ServerRuntime :=
  let m := { m with
    records := insertRecords m.records records
    chains := match s.chainId with
      | none => m.chains
      | some chainId => m.chains.set chainId s.identifiers }
  match s.lifecycle with
  | some c => { m with restart := some (c, .admitted) }
  | none => { m with
      requests := m.requests ++ [.submission s]
      history := m.history ++ s.identifiers.map (.enqueued m.runtimeId) }

/-- The checks of a submission up to the capacity of the records; `none` is a retained one. -/
def checkSubmission (m : ServerRuntime) (s : Submission) (records : List CommandRecord) : Except Failure Bool := do
  m.checkSubmissionIdentifiers s.identifiers s.chainId
  let retained ← m.isRetainedSubmission records
  if retained then return true
  m.checkSubmissionMode s.commands
  match s.lifecycle with
  | some c => m.admitLifecycleCommand c
  | none => m.requireReady
  m.checkPending settings s
  return false

def tooLarge : Failure := .server "request_too_large" "Command envelope exceeds its configured limit." 413

/-- `document` is what validation has made of the input. The readings of the clock are those of
the first pruning, of the one for capacity, and of one for each receipt. -/
def submit (m : ServerRuntime) (document : Except String Submission) (clock : Nat → Nat) (stamps : Nat → String) :
    ServerRuntime × Except Failure Json :=
  let m := m.prune settings (clock 0) 0
  match document with
  | .error message => (m, .error (.value message))
  | .ok s =>
    if settings.maxRequestBytes < s.document.bytes Char.utf8Size then (m, .error tooLarge)
    else
      let records := newRecords fingerprint s stamps
      match m.checkSubmission settings s records with
      | .error e => (m, .error e)
      | .ok true => m.receipt settings s.identifiers s.chainId (fun i => clock (i + 2))
      | .ok false =>
        let m := m.prune settings (clock 1) s.commands.length
        match m.checkRecords settings s.commands.length, m.checkQueue settings s with
        | .error e, _ => (m, .error e)
        | .ok (), .error e => (m, .error e)
        | .ok (), .ok () =>
          (m.insertSubmission s records).receipt settings s.identifiers s.chainId (fun i => clock (i + 2))

end ServerRuntime

end ModularPipelines.Server
