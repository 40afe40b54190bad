import ModularPipelines.Services.State

namespace ModularPipelines.Services
open Runner

inductive ServiceAction where
  | ready
  | pause
  | stop
  deriving DecidableEq, Repr

def ServiceAction.ofBlocked : BlockedAction → ServiceAction
  | .pause => .pause
  | .stop => .stop

/-- `_readiness_action`; `missing` says that a required service has no instance. -/
def readinessAction (instances : List ServiceInstance) (missing : Bool) : Option ServiceAction :=
  match instances.findSome? fun i => if i.manuallyStopped then none else i.blockedAction with
  | some action => some (.ofBlocked action)
  | none =>
    if missing then some .pause
    else if (instances.filter fun i => !i.manuallyStopped).all fun i => i.ready && !i.stopping && !i.stopped then
      some (if instances.any (·.manuallyStopped) then .pause else .ready)
    else none

/-- Who awaits a `_start` that is not part of a restart. -/
inductive Launcher where
  | first
  | start
  deriving DecidableEq, Repr

/-- Where `_start` is: before the new instance is published, before its process is
spawned, and until its readiness is confirmed. -/
inductive LaunchPhase where
  | preparing
  | spawning
  | confirming
  deriving DecidableEq, Repr

/-- `held` says that the instance found at the beginning is still the current one; so
below. -/
structure Launch where
  launcher : Launcher
  phase : LaunchPhase
  held : Bool
  deriving DecidableEq, Repr

/-- Where the automatic `restart` is. -/
inductive Automatic where
  | idle
  | scheduled
  | stopping (exhausted held : Bool)
  | delaying (held : Bool)
  | preparing (held : Bool)
  | spawning
  | confirming
  deriving DecidableEq, Repr

/-- Where the user's command is. -/
inductive Control where
  | idle
  | saving (held : Bool)
  | stopping (held : Bool)
  | starting
  | cleaning
  deriving DecidableEq, Repr

/-- One service with the tasks that act on it: `watch` is the round of `monitor` that is past
its guards, `granted` a result of `wait_ready` that the scheduler has not used. The last four
fields only record what happened: the launches by `restart` since the last cycle, a cycle that
began while a counted restart had not launched, an exhausted budget that no user start has
followed, and a manual stop that found no automatic launch under way. -/
structure Supervision where
  current : Option ServiceInstance
  watch : Option Bool
  automatic : Automatic
  booting : Bool
  launch : Option Launch
  starting : Bool
  control : Control
  granted : Bool
  launches : Nat
  overtaken : Bool
  exhausted : Bool
  userStopped : Bool

def Supervision.start : Supervision :=
  ⟨none, none, .idle, false, none, false, .idle, false, 0, false, false, false⟩

def Automatic.replaced : Automatic → Automatic
  | .stopping exhausted _ => .stopping exhausted false
  | .delaying _ => .delaying false
  | .preparing _ => .preparing false
  | automatic => automatic

def Control.replaced : Control → Control
  | .saving _ => .saving false
  | .stopping _ => .stopping false
  | control => control

/-- A restart that is counted and has not launched. -/
def Automatic.counted : Automatic → Bool
  | .delaying held => held
  | .preparing held => held
  | .spawning => true
  | _ => false

/-- From the last look at the manual flag to the spawned process. -/
def Automatic.underway : Automatic → Bool
  | .preparing _ => true
  | .spawning => true
  | _ => false

/-- `_cancel_service_stop_requests`. -/
def ServiceInstance.retire (preserve : Bool) (i : ServiceInstance) : ServiceInstance :=
  { i with activeRequest := none, pendingRequests := if preserve then i.pendingRequests else [] }

def confirmedStop (preserve : Bool) (i : ServiceInstance) : ServiceInstance :=
  { i.retire preserve with stopped := true, stopping := false }

def unconfirmedStop (preserve : Bool) (message : String) (i : ServiceInstance) : ServiceInstance :=
  { i.retire preserve with stopping := false, failure := some message, blockedAction := some .stop }

def exhaustedAction : ExhaustedAction → Option BlockedAction
  | .pause => some .pause
  | .stop => some .stop
  | .skip => none

/-- `_prepare_service_start` with `_inherit_service_requests`. -/
def prepareServiceStart (instanceId : String) (definition : ServiceDefinition) (old : Option ServiceInstance) :
    ServiceInstance :=
  let instance' := ServiceInstance.create instanceId definition
  match old with
  | none => instance'
  | some old =>
    { instance' with
      restartCount := old.restartCount
      pendingRequests := old.pendingRequests.filter fun r => r.expectedInstance.isNone }

namespace Supervision

/-- `_restarts`; a restart that the startup awaits itself is not among them. -/
def registered (s : Supervision) : Bool := decide (s.automatic ≠ .idle) && !s.booting

/-- A round of `monitor` gets past its guards. -/
def monitored (s : Supervision) (i : ServiceInstance) : Bool :=
  !s.registered && !(i.manuallyStopped || i.stopped || i.stopping || s.starting)

def update (s : Supervision) (change : ServiceInstance → ServiceInstance) : Supervision :=
  { s with current := s.current.map change }

def finishAutomatic (s : Supervision) : Supervision := { s with automatic := .idle, booting := false }

/-- The head of the loop of `restart`, up to the shutdown request. -/
def restartLoop (definition : ServiceDefinition) (s : Supervision) (i : ServiceInstance) : Supervision :=
  let exhausted := decide (definition.errors.retries ≤ i.restartCount) &&
    decide (definition.errors.onExhausted ≠ .skip)
  { s with automatic := .stopping exhausted true, current := some { i with ready := false, stopping := true } }

/-- `restart(automatic=True)`. -/
def beginRestart (definition : ServiceDefinition) (s : Supervision) (i : ServiceInstance) : Supervision :=
  if i.manuallyStopped then s.finishAutomatic else restartLoop definition s i

/-- `_detach_service_tasks` cancels a registered restart; one that is between its intent and its
process either had its process spawned meanwhile or counts as stopped. -/
def detach (spawned : Bool) (s : Supervision) : Supervision :=
  match s.automatic with
  | .spawning =>
    if spawned then { s with automatic := .idle, starting := false, launches := s.launches + 1 }
    else { s.update fun i => { i with stopped := true } with automatic := .idle, starting := false }
  | .confirming => { s with automatic := .idle, starting := false }
  | _ => { s with automatic := .idle }

/-- `_stop_service` up to the shutdown request. -/
def beginStop (spawned : Bool) (s : Supervision) : Supervision :=
  (s.update fun i => { i with ready := false, stopping := true }).detach spawned

/-- The handlers of `start` when `_start` raises. -/
def startRaises (spawned : Bool) (s : Supervision) : Supervision :=
  match s.current with
  | none => { s with control := .idle }
  | some _ =>
    { (s.update fun i => { i with manuallyStopped := true }).beginStop spawned with control := .cleaning }

end Supervision

/-- The two tasks that can be inside `_start`. -/
inductive Starter where
  | restart
  | direct
  deriving DecidableEq, Repr

namespace Supervision

def phase (s : Supervision) : Starter → Option LaunchPhase
  | .restart =>
    match s.automatic with
    | .preparing _ => some .preparing
    | .spawning => some .spawning
    | .confirming => some .confirming
    | _ => none
  | .direct => s.launch.map (·.phase)

/-- `_prepare_service_start` puts the new instance in the place of the old one. -/
def publish (definition : ServiceDefinition) (instanceId : String) (s : Supervision) : Starter → Supervision
  | .restart =>
    { s with
      current := some (prepareServiceStart instanceId definition s.current)
      watch := s.watch.map fun _ => false
      automatic := .spawning
      launch := s.launch.map fun l => { l with held := false }
      starting := true
      control := s.control.replaced }
  | .direct =>
    { s with
      current := some (prepareServiceStart instanceId definition s.current)
      watch := s.watch.map fun _ => false
      automatic := s.automatic.replaced
      launch := s.launch.map fun l => { l with phase := .spawning, held := true }
      starting := true
      control := s.control.replaced
      exhausted := false }

def spawn (s : Supervision) : Starter → Supervision
  | .restart => { s with automatic := .confirming, launches := s.launches + 1 }
  | .direct => { s with launch := s.launch.map fun l => { l with phase := .confirming } }

/-- The `finally` of `_start` with what its handler does to an instance without a process. -/
def leave (s : Supervision) : Starter → Supervision
  | .restart =>
    match s.automatic with
    | .spawning => { s.update fun i => { i with stopped := true } with starting := false }
    | .confirming => { s with starting := false }
    | _ => s
  | .direct =>
    match s.launch with
    | some ⟨_, .spawning, true⟩ =>
      { s.update fun i => { i with stopped := true } with launch := none, starting := false }
    | some ⟨_, .preparing, _⟩ => { s with launch := none }
    | _ => { s with launch := none, starting := false }

/-- The handlers of an `OSError` or `ConnectionError` out of `_start`. -/
def launchFails (definition : ServiceDefinition) (message : String) (spawned : Bool) (s : Supervision) :
    Starter → Supervision
  | .restart =>
    match (s.leave .restart).current with
    | none => (s.leave .restart).finishAutomatic
    | some i => restartLoop definition (s.leave .restart) { i with failure := some message }
  | .direct =>
    match s.launch with
    | some ⟨.first, _, _⟩ =>
      match (s.leave .direct).current with
      | none => (s.leave .direct).finishAutomatic
      | some i => beginRestart definition (s.leave .direct) { i with failure := some message }
    | _ => (s.leave .direct).startRaises spawned

/-- Any other exception out of `_start` ends its caller. -/
def launchRaises (spawned : Bool) (s : Supervision) : Starter → Supervision
  | .restart => (s.leave .restart).finishAutomatic
  | .direct =>
    match s.launch with
    | some ⟨.first, _, _⟩ => (s.leave .direct).finishAutomatic
    | _ => (s.leave .direct).startRaises spawned

def launchCompletes (s : Supervision) : Starter → Supervision
  | .restart => { s with starting := false }.finishAutomatic
  | .direct =>
    match s.launch with
    | some ⟨.first, _, _⟩ => { s with launch := none, starting := false }.finishAutomatic
    | _ => { s with launch := none, starting := false, control := .idle }

/-- `_stop_service` of the automatic restart has ended. -/
def shutDown (definition : ServiceDefinition) (s : Supervision) (i : ServiceInstance) (exhausted : Bool) :
    Supervision :=
  if exhausted then
    { s with
      automatic := .idle
      booting := false
      current := some { confirmedStop true i with blockedAction := exhaustedAction definition.errors.onExhausted }
      exhausted := true }
  else
    { s with
      automatic := .delaying true
      current := some { confirmedStop true i with restartCount := i.restartCount + 1 } }

/-- `stop_service` before its first await; a service that was never launched gets a stopped instance. -/
def userStop (definition : ServiceDefinition) (instanceId : String) (s : Supervision) : Supervision :=
  let found := s.current.getD { ServiceInstance.create instanceId definition with stopped := true }
  { s with
    current := some { found with manuallyStopped := true }
    control := .saving true
    userStopped := !s.automatic.underway }

/-- `stop_service` once `stop_all` has returned without an error. -/
def finishStop (s : Supervision) (i : ServiceInstance) (held : Bool) : Supervision :=
  let i := confirmedStop false i
  { s with
    current := some (if held then { i with ready := false, blockedAction := none } else i)
    control := .idle }

/-- The counter part of `_launch_next_stage` when a cycle begins. -/
def beginCycle (s : Supervision) : Supervision :=
  { s.update fun i => { i with restartCount := 0 } with
    granted := false
    launches := 0
    overtaken := s.automatic.counted }

end Supervision

open Supervision in
/-- One step of one service, up to the next await of the task that takes it. -/
inductive Step (definition : ServiceDefinition) : Supervision → Supervision → Prop
  | boot {s : Supervision} :
    s.current = none → s.control = .idle → s.automatic = .idle → s.launch = none → s.booting = false →
    Step definition s { s with booting := true, launch := some ⟨.first, .preparing, true⟩ }
  -- monitor: past its guards, or at a reply; then what it does with what it read
  | look {s : Supervision} {i : ServiceInstance} :
    s.current = some i → s.watch = none → s.monitored i = true →
    Step definition s { s with watch := some true }
  | collect {s : Supervision} {i : ServiceInstance} :
    s.current = some i → s.watch = none → s.registered = false → s.starting = false →
    i.stopped = false → i.stopping = false →
    Step definition s { s with watch := some true }
  | pass {s : Supervision} : Step definition s { s with watch := none }
  | react {s : Supervision} {i : ServiceInstance} :
    s.watch = some true → s.current = some i → i.failure.isSome = true → i.blockedAction = none →
    Step definition s
      { s with current := some { i with ready := false }, automatic := .scheduled, watch := none }
  | reactLate {s : Supervision} :
    s.watch = some false → Step definition s { s with automatic := .scheduled, watch := none }
  | timeoutRestart {s : Supervision} {i : ServiceInstance} {r : WorkingServiceRequest} :
    s.watch = some true → s.current = some i → i.activeRequest = some r → r.owner ≠ .caller →
    definition.onCommandTimeout = .restart →
    Step definition s
      { s with
        current := some { i with activeRequest := some { r with timedOut := true } }
        automatic := .scheduled
        watch := none }
  | timeoutBlocks {s : Supervision} {i : ServiceInstance} {r : WorkingServiceRequest} {action : BlockedAction} :
    s.watch = some true → s.current = some i → i.activeRequest = some r → r.owner ≠ .caller →
    (definition.onCommandTimeout = .pause ∧ action = .pause ∨
      definition.onCommandTimeout = .stop ∧ action = .stop) →
    Step definition s
      { s with
        current := some
          { i with activeRequest := some { r with timedOut := true }, blockedAction := some action }
        watch := none }
  | lateReply {s : Supervision} {i : ServiceInstance} {r : WorkingServiceRequest} {message : String} :
    s.watch = some true → s.current = some i → i.activeRequest = some r → r.owner ≠ .caller →
    r.timedOut = true → definition.onCommandTimeout = .restart →
    Step definition s
      { s with current := some { i with failure := some message }, automatic := .scheduled, watch := none }
  | lateRelease {s : Supervision} {i : ServiceInstance} {r : WorkingServiceRequest} :
    s.watch = some true → s.current = some i → i.activeRequest = some r → r.timedOut = true →
    (r.owner = .caller ∨ definition.onCommandTimeout ≠ .restart) →
    Step definition s
      { s with
        current := some
          { i with
            activeRequest := none
            blockedAction := if i.blockedAction = some .pause then none else i.blockedAction }
        watch := none }
  | reply {s : Supervision} {i : ServiceInstance} :
    s.watch = some true → s.current = some i →
    Step definition s { s with current := some { i with activeRequest := none }, watch := none }
  | send {s : Supervision} {i : ServiceInstance} {r : WorkingServiceRequest} :
    s.watch = some true → s.current = some i → i.ready = true → i.activeRequest = none →
    Step definition s { s with current := some { i with activeRequest := some r }, watch := none }
  -- heartbeats, deadlines and the queue act on the current instance at any time
  | heartbeat {s : Supervision} {i : ServiceInstance} {ready : Bool} {failure : Option String} :
    s.current = some i → (i.stopping = false ∨ ∃ who, s.phase who = some .confirming) →
    Step definition s
      (s.update fun i => { i with ready := ready, everReady := i.everReady || ready, failure := failure })
  | failure {s : Supervision} {message : Option String} :
    Step definition s (s.update fun i => { i with ready := false, failure := message <|> i.failure })
  | queue {s : Supervision} {pending : List WorkingServiceRequest} :
    Step definition s (s.update fun i => { i with pendingRequests := pending })
  -- restart
  | begin {s : Supervision} {i : ServiceInstance} :
    s.automatic = .scheduled → s.current = some i → Step definition s (beginRestart definition s i)
  | stopped {s : Supervision} {i : ServiceInstance} {exhausted : Bool} :
    s.automatic = .stopping exhausted true → s.current = some i →
    Step definition s (s.shutDown definition i exhausted)
  | unstopped {s : Supervision} {i : ServiceInstance} {exhausted : Bool} {message : String} :
    s.automatic = .stopping exhausted true → s.current = some i → i.stopped = false →
    Step definition s { s with current := some (unconfirmedStop true message i) }.finishAutomatic
  | stoppedRetired {s : Supervision} :
    s.automatic = .stopping false false → Step definition s { s with automatic := .delaying false }
  | endedRetired {s : Supervision} {exhausted : Bool} :
    s.automatic = .stopping exhausted false → Step definition s s.finishAutomatic
  | wakeFlagged {s : Supervision} {i : ServiceInstance} {held : Bool} :
    s.automatic = .delaying held → s.current = some i → i.manuallyStopped = true →
    Step definition s s.finishAutomatic
  | wake {s : Supervision} {i : ServiceInstance} {held : Bool} :
    s.automatic = .delaying held → s.current = some i → i.manuallyStopped = false →
    Step definition s { s with automatic := .preparing held }
  -- _start, of a restart or not
  | publish {s : Supervision} {who : Starter} {instanceId : String} :
    s.phase who = some .preparing → (∀ i ∈ s.current, i.stopped = true) →
    Step definition s (s.publish definition instanceId who)
  | refuse {s : Supervision} {who : Starter} {i : ServiceInstance} {spawned : Bool} :
    s.phase who = some .preparing → s.current = some i → i.stopped = false →
    Step definition s (s.launchRaises spawned who)
  | spawn {s : Supervision} {who : Starter} : s.phase who = some .spawning → Step definition s (s.spawn who)
  | fails {s : Supervision} {who : Starter} {at' : LaunchPhase} {message : String} {spawned : Bool} :
    s.phase who = some at' → Step definition s (s.launchFails definition message spawned who)
  | raises {s : Supervision} {who : Starter} {at' : LaunchPhase} {spawned : Bool} :
    s.phase who = some at' → Step definition s (s.launchRaises spawned who)
  | started {s : Supervision} {who : Starter} :
    s.phase who = some .confirming → Step definition s (s.launchCompletes who)
  -- the user's commands
  | userStop {s : Supervision} {instanceId : String} :
    s.control = .idle → s.booting = false → Step definition s (s.userStop definition instanceId)
  | stopBegins {s : Supervision} {held spawned : Bool} :
    s.control = .saving held → Step definition s { s.beginStop spawned with control := .stopping held }
  | userStopped {s : Supervision} {i : ServiceInstance} {held : Bool} :
    s.control = .stopping held → s.current = some i → Step definition s (s.finishStop i held)
  | userStoppedReported {s : Supervision} {i : ServiceInstance} {held : Bool} :
    s.control = .stopping held → s.current = some i →
    Step definition s { s with current := some (confirmedStop false i), control := .idle }
  | userUnstopped {s : Supervision} {i : ServiceInstance} {held : Bool} {message : String} :
    s.control = .stopping held → s.current = some i → i.stopped = false →
    Step definition s { s with current := some (unconfirmedStop false message i), control := .idle }
  | userStart {s : Supervision} :
    s.control = .idle → s.booting = false → s.automatic = .idle → s.starting = false →
    (∀ i ∈ s.current, i.stopped = true ∧ i.activeRequest = none ∧ i.pendingRequests = []) →
    Step definition s
      { s with launch := some ⟨.start, .preparing, true⟩, control := .starting, userStopped := false }
  | cleaned {s : Supervision} {i : ServiceInstance} :
    s.control = .cleaning → s.current = some i →
    Step definition s { s with current := some (confirmedStop false i), control := .idle }
  | uncleaned {s : Supervision} {i : ServiceInstance} {message : String} :
    s.control = .cleaning → s.current = some i → i.stopped = false →
    Step definition s { s with current := some (unconfirmedStop false message i), control := .idle }
  -- the scheduler
  | grant {s : Supervision} {i : ServiceInstance} {before after : List ServiceInstance} :
    s.current = some i → readinessAction (before ++ i :: after) false = some .ready →
    Step definition s { s with granted := true }
  | advance {s : Supervision} : s.granted = true → s.control = .idle → Step definition s s.beginCycle
  | progress {s : Supervision} : Step definition s { s with granted := false }

/-- What is reachable from a service that was never launched. -/
inductive Supervised (definition : ServiceDefinition) : Supervision → Prop
  | start : Supervised definition .start
  | step {s s' : Supervision} : Supervised definition s → Step definition s s' → Supervised definition s'

end ModularPipelines.Services
