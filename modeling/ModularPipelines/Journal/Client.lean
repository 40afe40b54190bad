import ModularPipelines.Journal.Events
import ModularPipelines.Library.Link

namespace ModularPipelines.Journal
open Library

structure JournalIdentity where
  journalId : String
  generation : String
  deriving DecidableEq

inductive JournalCall where
  | append (event : JournalEvent)
  | appendCommandResult (event : JournalEvent)
  | other (command : String) (arguments : Json)
  deriving DecidableEq

/-- A frame of the client. `_diagnostic_id` is drawn once for each `_call`. -/
structure JournalRequest where
  token : String
  diagnosticId : Nat
  expectedJournal : Option JournalIdentity
  readOnly : Bool
  minFreeBytes : Nat
  call : JournalCall
  deriving DecidableEq

structure ErrorDocument where
  type : String
  message : String
  journalFailed : Bool
  deriving DecidableEq

structure JournalReply where
  ok : Bool
  value : Json
  error : ErrorDocument
  retryable : Bool
  deriving DecidableEq

/-- Exceptions of the client; `connection` is `ConnectionError`, `OSError` or `EOFError`. -/
inductive ClientError where
  | connection
  | storage (message : String) (retryable journalFailed : Bool)
  | state (message : String) (journalFailed : Bool)
  | configuration (message : String) (journalFailed : Bool)
  | generationChanged
  | value (message : String) (journalFailed : Bool)
  | type (message : String) (journalFailed : Bool)
  deriving DecidableEq

/-- `_raise_error`. -/
def raiseError (document : ErrorDocument) : ClientError :=
  match document.type with
  | "JournalGenerationChanged" => .generationChanged
  | "ValueError" => .value document.message document.journalFailed
  | "ValidationError" => .value document.message document.journalFailed
  | "TypeError" => .type document.message document.journalFailed
  | "LoggingStateError" => .state document.message document.journalFailed
  | "LoggingConfigurationError" => .configuration document.message document.journalFailed
  | _ => .storage document.message false document.journalFailed

inductive ReadFailure where
  | os
  | invalid (message : String)
  deriving DecidableEq

def ReadFailure.raised : ReadFailure → ClientError
  | .os => .connection
  | .invalid message => .value message false

abbrev Reading (α : Type) := Except ReadFailure α

structure WriterEndpoint where
  writerInstanceId : String
  host : String
  port : Nat
  tokenFile : String
  managed : Bool
  deriving DecidableEq

inductive OwnerState where
  | starting
  | ready
  | restarting
  | quiescing
  | storageUnavailable
  | stopped
  deriving DecidableEq

structure OwnerStatus where
  state : OwnerState
  historyAvailable : Option Bool
  deriving DecidableEq

/-- What `endpoint.json` and `status.json` hold when they are read. -/
structure Publication where
  endpoint : Reading WriterEndpoint
  status : Option (Reading OwnerStatus)

def checkOwner : Option (Reading OwnerStatus) → Except ClientError Unit
  | none => .ok ()
  | some (.error failure) => .error failure.raised
  | some (.ok status) =>
    if status.state = .stopped then
      .error (.state "The journal owner stopped; reopen the client explicitly." false)
    else if status.historyAvailable.getD true = false then
      .error (.storage "Journal history is unavailable; the experiment is paused." true false)
    else if status.state = .storageUnavailable then
      .error (.storage "Journal storage is unavailable; the experiment is paused." true false)
    else if status.state = .starting ∨ status.state = .restarting ∨ status.state = .quiescing then
      .error .connection
    else .ok ()

abbrev Answer := JournalRequest × JournalReply

abbrev Wire := Link JournalRequest JournalReply

/-- The locals of one `_call`. -/
structure PendingCall where
  diagnosticId : Nat
  call : JournalCall
  deadline : Option Nat
  recoveryStarted : Option Nat
  deriving DecidableEq

/-- Where the thread that holds the client's lock stands. -/
inductive ClientPhase where
  | idle
  | trying (pending : PendingCall)
  | receiving (pending : PendingCall) (nextProbe : Nat)
  deriving DecidableEq

/-- Durations are milliseconds. A dropped socket is never read again, so the wire
lives in the client. -/
structure JournalClient where
  readOnly : Bool
  requestTimeout : Option Nat
  recoveryTimeout : Nat
  stallTimeout : Nat
  minFreeBytes : Nat
  endpointPath : Option String
  managed : Bool
  cancelled : Bool
  expected : Option JournalIdentity
  diagnosticIds : Nat
  socket : Option Wire
  socketInstanceId : Option String
  phase : ClientPhase
  deriving DecidableEq

/-- What one pass of `_exchange` meets before it waits. -/
structure Attempt where
  now : Nat
  publication : Publication
  connected : Bool
  token : Reading String
  accepted : Bool
  sent : Bool

/-- What `_check_standalone_progress` meets: the status reply (busy, progress_at),
the start lock, the endpoint file and `stop_standalone`. -/
structure StandaloneProbe where
  status : Except ClientError (Bool × Nat)
  locked : Bool
  endpoint : Reading WriterEndpoint
  stopped : Except ClientError Unit

/-- One iteration of the loop in `_receive_reply`; `lost` is a socket error or the
end of the stream. -/
structure Poll where
  now : Nat
  readable : Bool
  lost : Bool
  publication : Publication
  standalone : StandaloneProbe

inductive Received where
  | reply (answer : Answer)
  | again (nextProbe : Nat)
  | raised (error : ClientError)

/-- How a `_call` ends. `offline` is the answer of `_read_offline`, which asks no writer. -/
inductive CallEnd where
  | returned (answer : Answer)
  | rejected (answer : Answer) (error : ClientError)
  | offline (result : Except ClientError Json)
  | failed (error : ClientError)

/-- What the handlers of `_call` meet: the offline reader, the owner's lease and
`ensure_standalone` with the pointer it leaves. -/
structure Recovery where
  now : Nat
  offline : JournalCall → Except ClientError Json
  ownerActive : Bool
  standalone : Except ClientError (String × Bool)

inductive Progress where
  | retry (pending : PendingCall)
  | ended (result : CallEnd)

def probeInterval : Nat := 500

def expired (deadline : Option Nat) (now : Nat) : Bool := deadline.any (· ≤ now)

def budgetExpired : ClientError :=
  .storage "Optional journal delivery was not confirmed within its time budget." false false

def notReplayed : ClientError :=
  .storage "Optional journal delivery was not confirmed; it will not be replayed." false false

namespace JournalClient

def disconnect (c : JournalClient) : JournalClient :=
  { c with socket := none, socketInstanceId := none }

/-- `_endpoint`: a managed endpoint is refused while its owner is not ready. -/
def endpoint (c : JournalClient) (p : Publication) : JournalClient × Except ClientError WriterEndpoint :=
  match c.endpointPath, p.endpoint with
  | none, _ => (c, .error (.storage "Journal endpoint is unavailable." false false))
  | some _, .error failure => (c, .error failure.raised)
  | some _, .ok endpoint =>
    ({ c with managed := endpoint.managed },
      if endpoint.managed then (checkOwner p.status).map (fun _ => endpoint) else .ok endpoint)

def request (c : JournalClient) (p : PendingCall) (token : String) : JournalRequest :=
  ⟨token, p.diagnosticId, c.expected, c.readOnly, c.minFreeBytes, p.call⟩

/-- The connection to the instance that the endpoint names: kept, or opened anew. -/
def connect (c : JournalClient) (endpoint : WriterEndpoint) (a : Attempt) :
    JournalClient × Except ClientError Unit :=
  let c := if c.socketInstanceId = some endpoint.writerInstanceId then c else c.disconnect
  if c.socket.isSome then (c, .ok ())
  else if a.connected then
    ({ c with socket := some Link.fresh, socketInstanceId := some endpoint.writerInstanceId }, .ok ())
  else (c, .error .connection)

def transmit (c : JournalClient) (p : PendingCall) (a : Attempt) : JournalClient × Except ClientError Unit :=
  match a.token with
  | .error failure => (c, .error failure.raised)
  | .ok token =>
    if a.accepted = false then (c, .error (.value "Invalid journal request." false))
    else if a.sent = false then (c, .error .connection)
    else ({ c with socket := c.socket.map (·.send (c.request p token)) }, .ok ())

/-- `_exchange` up to `_receive_reply`. -/
def exchange (c : JournalClient) (p : PendingCall) (a : Attempt) : JournalClient × Except ClientError Unit :=
  match c.endpoint a.publication with
  | (c, .error error) => (c, .error error)
  | (c, .ok endpoint) =>
    match c.connect endpoint a with
    | (c, .error error) => (c, .error error)
    | (c, .ok ()) => c.transmit p a

def seizeStandalone (c : JournalClient) (o : StandaloneProbe) : JournalClient × Except ClientError Unit :=
  if o.locked = false then (c, .error .connection)
  else match o.endpoint with
    | .error failure => (c, .error failure.raised)
    | .ok endpoint =>
      if endpoint.managed then ({ c with managed := true }, .error .connection)
      else match o.stopped with
        | .error error => (c, .error error)
        | .ok () => (c, .error .connection)

/-- `_check_standalone_progress`: a stalled or silent standalone writer is stopped. -/
def checkStandaloneProgress (c : JournalClient) (now : Nat) (o : StandaloneProbe) :
    JournalClient × Except ClientError Unit :=
  match o.status with
  | .ok (busy, progressAt) =>
    if busy = true ∧ c.stallTimeout < now - progressAt then c.seizeStandalone o else (c, .ok ())
  | .error .connection => c.seizeStandalone o
  | .error (.value _ _) => c.seizeStandalone o
  | .error error => (c, .error error)

/-- The whole frame at the head of the socket, when `select` reports one. -/
def arrived (c : JournalClient) (o : Poll) : Option (Answer × Wire) :=
  if o.readable then c.socket.bind Link.receive else none

def probe (c : JournalClient) (nextProbe : Nat) (o : Poll) : JournalClient × Received :=
  if c.managed then
    match c.endpoint o.publication with
    | (c, .ok _) => (c, .again nextProbe)
    | (c, .error error) => (c, .raised error)
  else if nextProbe ≤ o.now then
    match c.checkStandaloneProgress o.now o.standalone with
    | (c, .ok ()) => (c, .again (o.now + probeInterval))
    | (c, .error error) => (c, .raised error)
  else (c, .again nextProbe)

def receiveReply (c : JournalClient) (p : PendingCall) (nextProbe : Nat) (o : Poll) : JournalClient × Received :=
  if c.cancelled then (c, .raised (.state "Journal request cancelled by client closure." false))
  else if expired p.deadline o.now then (c, .raised budgetExpired)
  else if o.lost then (c, .raised .connection)
  else match c.arrived o with
    | some (answer, wire) => ({ c with socket := some wire }, .reply answer)
    | none => c.probe nextProbe o

/-- A storage error that the writer answers has no `retryable` mark and is raised again. -/
def settleReply (c : JournalClient) (p : PendingCall) (answer : Answer) : JournalClient × Progress :=
  if answer.2.ok then (c, .ended (.returned answer))
  else if answer.2.retryable = true ∧ p.deadline.isSome then (c, .ended (.failed notReplayed))
  else if answer.2.retryable = false then (c, .ended (.rejected answer (raiseError answer.2.error)))
  else (c.disconnect, .retry p)

def awaitRecovery (c : JournalClient) (p : PendingCall) (r : Recovery) : JournalClient × Progress :=
  let started := p.recoveryStarted.getD r.now
  if c.managed = false ∧ c.recoveryTimeout ≤ r.now - started then
    (c, .ended (.failed (.storage "Journal recovery exceeded 60 seconds." false false)))
  else (c, .retry { p with recoveryStarted := some started })

/-- The handler of a lost connection; the socket is dropped first. -/
def recoverConnection (c : JournalClient) (p : PendingCall) (r : Recovery) : JournalClient × Progress :=
  let c := c.disconnect
  if c.readOnly = true ∧ c.managed = false then (c, .ended (.offline (r.offline p.call)))
  else if c.readOnly then
    (c, .ended (.failed (.storage "Journal writer is temporarily unavailable." true false)))
  else if p.deadline.isSome then (c, .ended (.failed notReplayed))
  else if c.managed = false ∨ r.ownerActive = false then
    match r.standalone with
    | .error error => (c, .ended (.failed error))
    | .ok (path, managed) => awaitRecovery { c with endpointPath := some path, managed := managed } p r
  else awaitRecovery c p r

/-- The exception handlers of `_call`. -/
def settleError (c : JournalClient) (p : PendingCall) (r : Recovery) : ClientError → JournalClient × Progress
  | .connection => c.recoverConnection p r
  | .storage message retryable journalFailed =>
    if c.readOnly = true ∨ c.managed = false ∨ retryable = false then
      (c, .ended (.failed (.storage message retryable journalFailed)))
    else (c.disconnect, .retry p)
  | error => (c, .ended (.failed error))

end JournalClient

end ModularPipelines.Journal
