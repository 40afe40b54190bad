import ModularPipelines.Journal.Matching
import ModularPipelines.Journal.Writer

namespace ModularPipelines.Journal
open Library

/-- What the caller of the logger supplies; the event ID is drawn by `uuid4`. -/
structure Draft where
  eventId : String
  occurredAt : String
  eventType : String
  context : Context
  operationId : Option String
  data : Json
  report : Bool

inductive AppendEnd where
  | confirmed (eventId : String)
  | raised (error : ClientError)
  deriving DecidableEq

/-- The open session of an `OperationLogger`: its sequence, its `_failed` mark, the append
that waits and the appends that are over. -/
structure LoggerSession where
  producerInstanceId : String
  sequenceNumber : Nat
  failed : Bool
  pending : Option JournalCall
  finished : List (JournalCall × AppendEnd)
  deriving DecidableEq

def ClientError.refusesInput : ClientError → Bool
  | .value _ _ | .type _ _ => true
  | _ => false

def ClientError.retryable : ClientError → Bool
  | .storage _ retryable _ => retryable
  | _ => false

/-- The store confirms an ordinary event with None, a report with the event it refers to. -/
def confirmedId (event : JournalEvent) : JournalCall → Json → String
  | .appendCommandResult _, .str eventId => eventId
  | _, _ => event.eventId

namespace LoggerSession

def envelope (s : LoggerSession) (d : Draft) : JournalEvent :=
  ⟨d.eventId, s.producerInstanceId, s.sequenceNumber + 1, d.occurredAt, d.eventType, d.context, d.operationId, d.data⟩

def confirm (s : LoggerSession) (call : JournalCall) (event : JournalEvent) (value : Json) : LoggerSession :=
  let confirmed := confirmedId event call value
  { s with
    sequenceNumber := if confirmed = event.eventId then event.sequenceNumber else s.sequenceNumber
    pending := none
    finished := s.finished ++ [(call, .confirmed confirmed)] }

/-- The handlers of `_append`: a refused input leaves the session usable. -/
def raise (s : LoggerSession) (call : JournalCall) (error : ClientError) : LoggerSession :=
  { s with
    failed := if error.refusesInput then s.failed else !error.retryable
    pending := none
    finished := s.finished ++ [(call, .raised error)] }

def finish (s : LoggerSession) (call : JournalCall) (event : JournalEvent) : CallEnd → LoggerSession
  | .returned answer => s.confirm call event answer.2.value
  | .rejected _ error => s.raise call error
  | .offline (.ok value) => s.confirm call event value
  | .offline (.error error) => s.raise call error
  | .failed error => s.raise call error

/-- The events of the session, oldest first. -/
def calls (s : LoggerSession) : List JournalCall := s.finished.map Prod.fst ++ s.pending.toList

end LoggerSession

/-- A logger session, its client, the frames it ever sent, and the writer that has the
journal open. -/
structure Delivery where
  session : LoggerSession
  exchange : Exchange
  sent : List JournalRequest
  writer : JournalWriter

inductive DeliveryAction where
  | append (draft : Draft) (now : Nat)
  | attempt (a : Attempt) (r : Recovery)
  | poll (o : Poll) (r : Recovery)
  | serve (o : Conditions)
  | late (request : JournalRequest) (o : Conditions)
  | foreign (request : JournalRequest) (o : Conditions)
  | restart (managed : Bool)
  | hangUp
  | requestClose

namespace Delivery

/-- Nobody uses an event ID twice. -/
def unused (s : Delivery) (eventId : String) : Bool :=
  s.session.calls.all (fun c => c.event.all (·.eventId != eventId)) &&
    s.writer.store.events.all (·.event.eventId != eventId)

def foreignTo (s : Delivery) (request : JournalRequest) : Bool :=
  request.call.event.all (fun e => e.producerInstanceId != s.session.producerInstanceId &&
    s.session.calls.all (fun c => c.event.all (·.eventId != e.eventId)))

/-- `append` and `append_command_result` of the client check the encoded event first. -/
def append (settings : Settings) (s : Delivery) (d : Draft) (now : Nat) : Delivery :=
  let event := s.session.envelope d
  let call := if d.report then JournalCall.appendCommandResult event else .append event
  match encodeEvent settings event with
  | .error error => { s with session := s.session.raise call (.value (errorMessage error) false) }
  | .ok _ =>
    { s with
      session := { s.session with pending := some call }
      exchange := { s.exchange with client := s.exchange.client.begin call now } }

/-- The end of a `_call` is handed to the `_append` that waits for it. -/
def settle (s : Delivery) (x : Exchange) : Delivery :=
  match x.client.phase, s.session.pending, x.ended.getLast? with
  | .idle, some call, some (_, result) =>
    match call.event with
    | some event => { s with exchange := x, session := s.session.finish call event result }
    | none => { s with exchange := x }
  | _, _, _ => { s with exchange := x }

def transmitted (c : JournalClient) (p : PendingCall) (a : Attempt) : List JournalRequest :=
  match a.token with
  | .ok token => [c.request p token]
  | .error _ => []

/-- The writer takes the oldest frame of the connection and answers it. -/
def serve (settings : Settings) (s : Delivery) (o : Conditions) : Option Delivery := do
  let wire ← s.exchange.client.socket
  let request ← wire.requests.head?
  let (writer, reply) := s.writer.apply settings request o
  let x ← s.exchange.answer reply
  return { s with exchange := x, writer := writer }

def step (settings : Settings) (s : Delivery) : DeliveryAction → Option Delivery
  | .append d now =>
    if s.session.pending = none ∧ s.session.failed = false ∧ s.exchange.client.phase = .idle ∧
        s.unused d.eventId = true then some (s.append settings d now)
    else none
  | .attempt a r =>
    match s.exchange.client.phase with
    | .trying p =>
      some (({ s with sent := s.sent ++ transmitted s.exchange.client p a } : Delivery).settle
        (s.exchange.attempt p a r))
    | _ => none
  | .poll o r =>
    match s.exchange.client.phase with
    | .receiving p nextProbe => some (s.settle (s.exchange.poll p nextProbe o r))
    | _ => none
  | .serve o => s.serve settings o
  | .late request o =>
    if request ∈ s.sent then some { s with writer := (s.writer.apply settings request o).1 } else none
  | .foreign request o =>
    if s.foreignTo request = true then some { s with writer := (s.writer.apply settings request o).1 } else none
  | .restart managed =>
    (s.exchange.step .hangUp).map fun x =>
      { s with exchange := x, writer := { s.writer with managed := managed, storageError := false } }
  | .hangUp => (s.exchange.step .hangUp).map fun x => { s with exchange := x }
  | .requestClose => (s.exchange.step .requestClose).map fun x => { s with exchange := x }

def run (settings : Settings) (s : Delivery) : List DeliveryAction → Option Delivery
  | [] => some s
  | action :: rest => (s.step settings action).bind (·.run settings rest)

/-- A session opened on a journal by a writing client without a request deadline. -/
def start (producerInstanceId : String) (client : JournalClient) (writer : JournalWriter) : Delivery :=
  ⟨⟨producerInstanceId, 0, false, none, []⟩,
    ⟨{ client with readOnly := false, requestTimeout := none, cancelled := false, socket := none,
                   socketInstanceId := none, phase := .idle }, [], []⟩, [], writer⟩

end Delivery

/-- The metadata files are missing or well formed. -/
def Publication.WellFormed (p : Publication) : Prop :=
  (∀ message, p.endpoint ≠ .error (.invalid message)) ∧ ∀ message, p.status ≠ some (.error (.invalid message))

/-- Errors that say nothing about the input: the session fails with them. -/
def ClientError.Uncertain (e : ClientError) : Prop := e.refusesInput = false ∧ e.retryable = false

def Recovery.Uncertain (r : Recovery) : Prop := ∀ error, r.standalone = .error error → error.Uncertain

def Attempt.WellFormed (a : Attempt) : Prop :=
  a.publication.WellFormed ∧ (∀ message, a.token ≠ .error (.invalid message)) ∧ a.accepted = true

def Poll.WellFormed (o : Poll) : Prop :=
  o.publication.WellFormed ∧ (∀ message, o.standalone.endpoint ≠ .error (.invalid message)) ∧
    (∀ error, o.standalone.status = .error error → (∃ message failed, error = .value message failed) ∨ error.Uncertain) ∧
    ∀ error, o.standalone.stopped = .error error → error.Uncertain

/-- Nothing that the client reads or launches on its way raises a value or type error. -/
def DeliveryAction.WellFormed : DeliveryAction → Prop
  | .attempt a r => a.WellFormed ∧ r.Uncertain
  | .poll o r => o.WellFormed ∧ r.Uncertain
  | _ => True

end ModularPipelines.Journal
