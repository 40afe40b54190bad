import ModularPipelines.Runner.RecordedRuns

namespace ModularPipelines.Snapshots
open Library Runner Services

/-- The computer as the exit check meets it: a process by its number, and whether it ends within the start timeout. -/
structure Host where
  hostname : String
  process : Nat → Except RunnerError (Option ProcessIdentity)
  ends : Nat → Bool

/-- `str.isdecimal` of a boot time. -/
def isDecimal (text : String) : Bool := !text.toList.isEmpty && text.toList.all Char.isDigit

/-- `_same_process_identity` -/
def sameProcessIdentity (actual expected : ProcessIdentity) : Except RunnerError Bool :=
  if actual.pid ≠ expected.pid ∨ actual.createdAtOs ≠ expected.createdAtOs ∨ actual.hostId ≠ expected.hostId then
    .ok false
  else if actual.bootId = expected.bootId then .ok true
  else if "windows:".toList.isPrefixOf actual.bootId.toList && isDecimal expected.bootId then
    .error (.os ("Cannot verify legacy Windows process identity for PID " ++ toString expected.pid ++
      "; stop its original owner and participants before upgrading EMP."))
  else .ok false

/-- `_wait_process_exit` -/
def waitProcessExit (h : Host) (identity : ProcessIdentity) : Except RunnerError Unit := do
  rejectIf (identity.hostId ≠ h.hostname) (.os "Cannot confirm exit of an executor on another host.")
  match ← h.process identity.pid with
  | none => .ok ()
  | some actual => do
    let same ← sameProcessIdentity actual identity
    rejectIf (same = true ∧ h.ends identity.pid = false) (.timeout identity.pid)

/-- The executors as `StageRunner` knows them: those it started, by request and process number, the identities it has
and has confirmed, and what `process.json` of a request's attempt names, when the request has such a file. -/
structure Executors where
  host : Host
  started : List (String × Nat)
  identities : Dict (Option ProcessIdentity)
  completed : Dict ProcessIdentity
  record : String → Option (Option ProcessIdentity)

def acceptedRequests (s : RunnerState) : List String :=
  (s.stageResultIds.keys.filterMap s.stageResultIds.get? ++ (s.pendingInput.map PendingInput.requestId).toList ++
    (s.lastDagDecision.map LastDecision.requestId).toList).dedup

namespace Executors

def missing (requestId : String) : RunnerError := .value ("Executor identity is missing for request " ++ requestId ++ ".")

def accepted (x : Executors) (s : RunnerState) : Dict ProcessIdentity :=
  ⟨(acceptedRequests s).filterMap fun id => (x.record id).join.map fun identity => (id, identity)⟩

def checkAccepted (x : Executors) (journal : ResultTable) (requestId : String) : Except RunnerError Unit := do
  rejectIf (journal.get? requestId = none) (.value "An accepted result is missing from the journal.")
  rejectIf (x.record requestId = some none) (missing requestId)

/-- `_read_accepted_executor_identities` -/
def readAccepted (x : Executors) (journal : ResultTable) (s : RunnerState) : Except RunnerError (Dict ProcessIdentity) := do
  let _ ← (acceptedRequests s).mapM (x.checkAccepted journal)
  pure (x.accepted s)

def confirmExit (x : Executors) (accepted : Dict ProcessIdentity) (requestId : String) :
    Option ProcessIdentity → Except RunnerError Unit
  | none => .error (missing requestId)
  | some identity =>
    if accepted.get? requestId = some identity ∧ x.completed.get? requestId = some identity then .ok ()
    else waitProcessExit x.host identity

/-- The identities once those of the accepted results have replaced the known ones. -/
def owned (x : Executors) (accepted : Dict ProcessIdentity) : List (String × Option ProcessIdentity) :=
  (x.identities.entries.map fun e => (e.1, (accepted.get? e.1).elim e.2 some)) ++
    (accepted.keep fun id => !x.identities.contains id).entries.map fun e => (e.1, some e.2)

/-- `_wait_accepted_executors` -/
def waitAccepted (x : Executors) (journal : ResultTable) (s : RunnerState) : Except RunnerError Unit := do
  let accepted ← x.readAccepted journal s
  let _ ← (x.owned accepted).mapM fun e => x.confirmExit accepted e.1 e.2

/-- `close` of a state without an attempt. -/
def close (x : Executors) (journal : ResultTable) (s : RunnerState) : Except RunnerError Unit := do
  let _ ← x.started.mapM fun p => rejectIf (x.host.ends p.2 = false) (.timeout p.2)
  x.waitAccepted journal s

end Executors

/-- An exit that the host confirms: it is the host of the process, which is gone or ends in time. -/
structure Host.Confirms (h : Host) (identity : ProcessIdentity) : Prop where
  here : identity.hostId = h.hostname
  gone : ∃ found, h.process identity.pid = .ok found ∧ ∀ actual ∈ found, ∃ same,
    sameProcessIdentity actual identity = .ok same ∧ (same = true → h.ends identity.pid = true)

/-- No executor is left: what was started has ended, and every recorded exit is confirmed. -/
structure Executors.Settled (x : Executors) (s : RunnerState) : Prop where
  ended : ∀ p ∈ x.started, x.host.ends p.2 = true
  accepted : ∀ id ∈ acceptedRequests s, ∀ identity, x.record id = some identity →
    ∃ known, identity = some known ∧ (x.completed.get? id = some known ∨ x.host.Confirms known)
  identities : ∀ e ∈ x.identities.entries, (x.accepted s).get? e.1 = none →
    ∃ known, e.2 = some known ∧ x.host.Confirms known

namespace Executors

variable {x : Executors} {s : RunnerState} {journal : ResultTable} {id : String}

end Executors

end ModularPipelines.Snapshots
