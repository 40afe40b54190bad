import ModularPipelines.Journal.Client

namespace ModularPipelines.Journal
open Library

/-- A client, what writers answered on its connections and the calls that are over. -/
structure Exchange where
  client : JournalClient
  answered : List Answer
  ended : List (Nat × CallEnd)

inductive ClientAction where
  | call (call : JournalCall) (now : Nat)
  | attempt (a : Attempt) (r : Recovery)
  | poll (o : Poll) (r : Recovery)
  | reopen (endpointPath : Option String) (managed : Bool)
  | adopt (identity : JournalIdentity)
  | requestClose
  | close
  | answer (reply : JournalReply)
  | hangUp

def JournalClient.begin (c : JournalClient) (call : JournalCall) (now : Nat) : JournalClient :=
  { c with diagnosticIds := c.diagnosticIds + 1,
           phase := .trying ⟨c.diagnosticIds, call, c.requestTimeout.map (now + ·), none⟩ }

def JournalClient.requestClose (c : JournalClient) : JournalClient :=
  { c with cancelled := true, socket := c.socket.map Link.hangUp }

def Exchange.follow (s : Exchange) (p : PendingCall) : JournalClient × Progress → Exchange
  | (c, .retry p) => { s with client := { c with phase := .trying p } }
  | (c, .ended result) =>
    { s with client := { c with phase := .idle }, ended := s.ended ++ [(p.diagnosticId, result)] }

/-- One pass of the loop in `_call`, up to the wait for the reply. -/
def Exchange.attempt (s : Exchange) (p : PendingCall) (a : Attempt) (r : Recovery) : Exchange :=
  if s.client.cancelled then
    s.follow p (s.client, .ended (.failed (.state "Journal client is closing." false)))
  else if expired p.deadline a.now then s.follow p (s.client, .ended (.failed budgetExpired))
  else match s.client.exchange p a with
    | (c, .ok ()) => { s with client := { c with phase := .receiving p (a.now + probeInterval) } }
    | (c, .error error) => s.follow p (c.settleError p r error)

def Exchange.poll (s : Exchange) (p : PendingCall) (nextProbe : Nat) (o : Poll) (r : Recovery) : Exchange :=
  match s.client.receiveReply p nextProbe o with
  | (c, .reply answer) => s.follow p (c.settleReply p answer)
  | (c, .again nextProbe) => { s with client := { c with phase := .receiving p nextProbe } }
  | (c, .raised error) => s.follow p (c.settleError p r error)

/-- The writer of the connection answers its oldest frame. -/
def Exchange.answer (s : Exchange) (reply : JournalReply) : Option Exchange := do
  let wire ← s.client.socket
  let (answer, wire) ← wire.answer reply
  return { s with client := { s.client with socket := some wire }, answered := s.answered ++ [answer] }

namespace Exchange

def step (s : Exchange) : ClientAction → Option Exchange
  | .call call now =>
    if s.client.phase = .idle then some { s with client := s.client.begin call now } else none
  | .attempt a r =>
    match s.client.phase with
    | .trying p => some (s.attempt p a r)
    | _ => none
  | .poll o r =>
    match s.client.phase with
    | .receiving p nextProbe => some (s.poll p nextProbe o r)
    | _ => none
  | .reopen endpointPath managed =>
    if s.client.phase = .idle then
      some { s with client := { s.client with endpointPath := endpointPath, managed := managed } }
    else none
  | .adopt identity =>
    if s.client.phase = .idle then some { s with client := { s.client with expected := some identity } }
    else none
  | .requestClose => some { s with client := s.client.requestClose }
  | .close =>
    if s.client.phase = .idle then some { s with client := s.client.requestClose.disconnect } else none
  | .answer reply => s.answer reply
  | .hangUp => some { s with client := { s.client with socket := s.client.socket.map Link.hangUp } }

def run (s : Exchange) : List ClientAction → Option Exchange
  | [] => some s
  | a :: rest => (s.step a).bind (·.run rest)

/-- A client before its first call. -/
def start (readOnly managed : Bool) (requestTimeout : Option Nat) (recoveryTimeout stallTimeout minFreeBytes : Nat)
    (endpointPath : Option String) (expected : Option JournalIdentity) : Exchange :=
  ⟨⟨readOnly, requestTimeout, recoveryTimeout, stallTimeout, minFreeBytes, endpointPath, managed, false, expected,
    0, none, none, .idle⟩, [], []⟩

end Exchange

namespace JournalClient

/-- What a client is configured with and keeps for good. -/
structure SameOptions (c c' : JournalClient) : Prop where
  readOnly : c'.readOnly = c.readOnly
  requestTimeout : c'.requestTimeout = c.requestTimeout

theorem SameOptions.refl (c : JournalClient) : SameOptions c c := ⟨rfl, rfl⟩

theorem SameOptions.trans {c d e : JournalClient} (h : SameOptions c d) (h' : SameOptions d e) :
    SameOptions c e :=
  ⟨h'.readOnly.trans h.readOnly, h'.requestTimeout.trans h.requestTimeout⟩

/-- A step of the client that leaves its wire alone. -/
structure SameWire (c c' : JournalClient) : Prop where
  socket : c'.socket = c.socket
  socketInstanceId : c'.socketInstanceId = c.socketInstanceId
  diagnosticIds : c'.diagnosticIds = c.diagnosticIds
  cancelled : c'.cancelled = c.cancelled
  options : SameOptions c c'

theorem SameWire.refl (c : JournalClient) : SameWire c c := ⟨rfl, rfl, rfl, rfl, rfl, rfl⟩

theorem endpoint_sameWire (c : JournalClient) (p : Publication) : SameWire c (c.endpoint p).1 := by
  unfold endpoint
  split
  all_goals exact ⟨rfl, rfl, rfl, rfl, rfl, rfl⟩

theorem seizeStandalone_sameWire (c : JournalClient) (o : StandaloneProbe) :
    SameWire c (c.seizeStandalone o).1 := by
  unfold seizeStandalone
  split
  · exact .refl c
  · split
    · exact .refl c
    · split
      · exact ⟨rfl, rfl, rfl, rfl, rfl, rfl⟩
      · split
        all_goals exact .refl c

theorem checkStandaloneProgress_sameWire (c : JournalClient) (now : Nat) (o : StandaloneProbe) :
    SameWire c (c.checkStandaloneProgress now o).1 := by
  unfold checkStandaloneProgress
  split
  · split
    · exact c.seizeStandalone_sameWire o
    · exact .refl c
  · exact c.seizeStandalone_sameWire o
  · exact c.seizeStandalone_sameWire o
  · exact .refl c

theorem probe_sameWire (c : JournalClient) (nextProbe : Nat) (o : Poll) :
    SameWire c (c.probe nextProbe o).1 := by
  unfold probe
  split
  · have h := c.endpoint_sameWire o.publication
    split <;> simp_all
  · split
    · have h := c.checkStandaloneProgress_sameWire o.now o.standalone
      split <;> simp_all
    · exact .refl c

theorem probe_no_reply {c : JournalClient} {nextProbe : Nat} {o : Poll} {answer : Answer} :
    (c.probe nextProbe o).2 ≠ .reply answer := by
  unfold probe
  split
  · split <;> simp
  · split
    · split <;> simp
    · simp

/-- A reply is the oldest one on the wire; nothing else is taken from it. -/
theorem receiveReply_cases {c c' : JournalClient} {p : PendingCall} {nextProbe : Nat} {o : Poll}
    {received : Received} (h : c.receiveReply p nextProbe o = (c', received)) :
    (SameWire c c' ∧ ∀ answer, received ≠ .reply answer) ∨
    ∃ wire wire' answer, c.socket = some wire ∧ wire.receive = some (answer, wire') ∧
      c' = { c with socket := some wire' } ∧ received = .reply answer := by
  unfold receiveReply at h
  split at h
  · obtain ⟨rfl, rfl⟩ := Prod.mk.inj h
    exact .inl ⟨.refl c, by simp⟩
  · split at h
    · obtain ⟨rfl, rfl⟩ := Prod.mk.inj h
      exact .inl ⟨.refl c, by simp⟩
    · split at h
      · obtain ⟨rfl, rfl⟩ := Prod.mk.inj h
        exact .inl ⟨.refl c, by simp⟩
      · split at h
        · rename_i answer wire' harr
          obtain ⟨rfl, rfl⟩ := Prod.mk.inj h
          unfold arrived at harr
          split at harr
          · obtain ⟨wire, hw, hr⟩ := Option.bind_eq_some_iff.mp harr
            exact .inr ⟨wire, wire', answer, hw, hr, rfl, rfl⟩
          · cases harr
        · have hs := c.probe_sameWire nextProbe o
          have hn : ∀ answer, (c.probe nextProbe o).2 ≠ .reply answer := fun _ => probe_no_reply
          rw [h] at hs hn
          exact .inl ⟨hs, hn⟩

end JournalClient

end ModularPipelines.Journal
