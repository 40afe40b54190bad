import ModularPipelines.Library.Dict
import ModularPipelines.Library.JsonText

namespace ModularPipelines.Dashboard
open Library

inductive RuleKind where
  | resource
  | errors
  deriving DecidableEq, Repr

/-- A rule; `condition` is what only its evaluation reads. -/
structure AlertRule (Clock : Type) where
  id : String
  name : String
  enabled : Bool
  kind : RuleKind
  durationSeconds : Clock
  condition : Json
  deriving DecidableEq

structure NotificationChannels where
  desktop : Bool
  sound : Bool
  onRecovery : Bool
  repeatSeconds : Nat
  deriving DecidableEq, Repr

def NotificationChannels.initial : NotificationChannels := ⟨false, false, true, 600⟩

inductive IncidentStatus where
  | active
  | resolved
  | closed
  deriving DecidableEq, Repr

structure AlertIncident where
  id : String
  source : String
  status : IncidentStatus
  name : String
  startedAt : String
  ruleId : Option String
  fresh : Bool
  endedAt : Option String
  resolution : Option String
  value : Json
  lastNotification : Option String
  delivery : Json
  extra : Json
  deriving DecidableEq

namespace AlertIncident

def isActive (i : AlertIncident) : Bool := i.status == .active

/-- The rule of an active incident. -/
def alerts (ruleId : String) (i : AlertIncident) : Bool := i.isActive && i.ruleId == some ruleId

def leave (status : IncidentStatus) (now resolution : String) (i : AlertIncident) : AlertIncident :=
  { i with status := status, endedAt := some now, resolution := some resolution }

end AlertIncident

/-- An incident of the ICMP monitor. -/
structure IcmpIncident where
  id : String
  host : String
  status : IncidentStatus
  startedAt : String
  endedAt : Option String
  resolution : Option String
  extra : Json
  deriving DecidableEq

/-- What a rule sees, with the two readings of the clock that a breach takes. -/
structure Observation (Clock : Type) where
  value : Option Json
  known : Bool
  breach : Bool
  first : Clock
  second : Clock

structure SavedAlertState (Clock : Type) where
  rules : List (AlertRule Clock)
  channels : NotificationChannels
  incidents : List AlertIncident
  deriving DecidableEq

/-- What happens to rules and incidents, in order. No code reads it. -/
inductive Note (Clock : Type) where
  | breaching (ruleId : String) (time : Clock)
  | unknown (ruleId : String)
  | cleared (ruleId : String)
  | changed (ruleId : String)
  | restarted
  | opened (ruleId id : String) (duration time : Clock)
  | left (id : String)
  deriving DecidableEq

/-- The monitor with its file. `issued` are the IDs that it has given, and `notes` its history. -/
structure AlertMonitor (Clock : Type) where
  rules : List (AlertRule Clock)
  incidents : List AlertIncident
  channels : NotificationChannels
  streaks : Dict Clock
  dirty : Bool
  file : Option (SavedAlertState Clock)
  issued : List String
  notes : List (Note Clock)
  deriving DecidableEq

/-- A write that fails may already have replaced the file. -/
inductive SaveOutcome where
  | saved
  | failed (replaced : Bool)
  deriving DecidableEq, Repr

inductive ConfigureError where
  | value (text : String)
  | os
  | cancelled
  deriving DecidableEq, Repr

structure AlertConfiguration (Clock : Type) where
  rule : Option (AlertRule Clock)
  channels : Option NotificationChannels
  delete : Option String

/-- One round of `_run`: an exception may end it after some rules. -/
structure Evaluation (Clock : Type) where
  now : String
  computed : Bool
  observe : AlertRule Clock → Observation Clock
  newId : AlertRule Clock → String
  failsAfter : Option Nat
  icmp : List IcmpIncident
  save : SaveOutcome

def updateFirst {α : Type} (p : α → Bool) (f : α → α) : List α → List α
  | [] => []
  | a :: rest => if p a then f a :: rest else a :: updateFirst p f rest

namespace AlertMonitor

variable {Clock : Type}

def new : AlertMonitor Clock where
  rules := []
  incidents := []
  channels := .initial
  streaks := .empty
  dirty := false
  file := none
  issued := []
  notes := []

def note (m : AlertMonitor Clock) (notes : List (Note Clock)) : AlertMonitor Clock := { m with notes := m.notes ++ notes }

def saved (m : AlertMonitor Clock) : SavedAlertState Clock := ⟨m.rules, m.channels, m.incidents⟩

/-- `_save`, with whether it raised. -/
def save (m : AlertMonitor Clock) : SaveOutcome → AlertMonitor Clock × Bool
  | .saved => ({ m with file := some m.saved }, false)
  | .failed replaced => (if replaced then { m with file := some m.saved } else m, true)

/-- Every active incident that satisfies a condition is closed by a change of the configuration. -/
def closeWhere (m : AlertMonitor Clock) (p : AlertIncident → Bool) (now : String) : AlertMonitor Clock :=
  let closes := fun i : AlertIncident => i.isActive && p i
  { m with
    incidents := m.incidents.map fun i => if closes i then i.leave .closed now "configuration_changed" else i
    notes := m.notes ++ (m.incidents.filter closes).map fun i => .left i.id }

def enabledIds (m : AlertMonitor Clock) : List String := (m.rules.filter AlertRule.enabled).map AlertRule.id

def closeRemovedRules (m : AlertMonitor Clock) (now : String) : AlertMonitor Clock × Bool :=
  let removed := fun i : AlertIncident => i.source == "system" && !(m.enabledIds.any fun id => i.ruleId == some id)
  (m.closeWhere removed now, m.incidents.any fun i => i.isActive && removed i)

def newIncident (rule : AlertRule Clock) (id now : String) (value : Json) : AlertIncident where
  id := id
  source := "system"
  status := .active
  name := rule.name
  startedAt := now
  ruleId := some rule.id
  fresh := true
  endedAt := none
  resolution := none
  value := value
  lastNotification := none
  delivery := .null
  extra := .obj [("type", .str (match rule.kind with | .resource => "resource" | .errors => "errors"))]

/-- `lasted started now duration` is the negation of `now - started < duration`. -/
def applyRuleObservation (lasted : Clock → Clock → Clock → Bool) (m : AlertMonitor Clock) (rule : AlertRule Clock)
    (o : Observation Clock) (newId now : String) : AlertMonitor Clock × Bool :=
  let mine := AlertIncident.alerts rule.id
  match o.value, o.known, o.breach with
  | some value, true, true =>
    let started := (m.streaks.get? rule.id).getD o.first
    let m := { m with streaks := m.streaks.set rule.id started }.note [.breaching rule.id o.first]
    if lasted started o.second rule.durationSeconds then
      match m.incidents.find? mine with
      | none =>
        ({ m with
            incidents := m.incidents ++ [newIncident rule newId now value]
            issued := m.issued ++ [newId] }.note [.opened rule.id newId rule.durationSeconds o.second], true)
      | some _ =>
        ({ m with incidents := updateFirst mine (fun i => { i with value := value, fresh := true }) m.incidents }, false)
    else (m, false)
  | some _, true, false =>
    let m := { m with streaks := m.streaks.pop rule.id }.note [.cleared rule.id]
    match m.incidents.find? mine with
    | none => (m, false)
    | some incident =>
      let clear := fun i : AlertIncident => { i.leave .resolved now "condition_cleared" with fresh := true }
      ({ m with incidents := updateFirst mine clear m.incidents }.note [.left incident.id], true)
  | _, _, _ =>
    ({ m with
        streaks := m.streaks.pop rule.id
        incidents := updateFirst mine (fun i => { i with fresh := false }) m.incidents }.note [.unknown rule.id], false)

def icmpId (o : IcmpIncident) : String := "icmp:" ++ o.id

def icmpIncident (o : IcmpIncident) : AlertIncident where
  id := icmpId o
  source := "dashboard_icmp"
  status := o.status
  name := "ICMP · " ++ o.host
  startedAt := o.startedAt
  ruleId := none
  fresh := false
  endedAt := o.endedAt
  resolution := o.resolution
  value := .null
  lastNotification := none
  delivery := .null
  extra := o.extra

/-- The fields that the monitor reports replace the ones of the incident. -/
def icmpUpdate (o : IcmpIncident) (i : AlertIncident) : AlertIncident :=
  { i with
    status := o.status
    startedAt := o.startedAt
    endedAt := o.endedAt
    resolution := o.resolution
    extra := o.extra }

def mergeIcmpIncident (m : AlertMonitor Clock) (o : IcmpIncident) : AlertMonitor Clock × Bool :=
  let same := fun i : AlertIncident => i.id == icmpId o
  match m.incidents.find? same with
  | none => ({ m with incidents := m.incidents ++ [icmpIncident o] }, true)
  | some incident =>
    let m' := { m with incidents := updateFirst same (icmpUpdate o) m.incidents }
    if incident.isActive && o.status != .active then
      (m'.note [.left incident.id], o.status == .resolved)
    else (m', false)

def mergeIcmpIncidents (m : AlertMonitor Clock) (observed : List IcmpIncident) : AlertMonitor Clock × Bool :=
  observed.foldl (fun r o =>
    let (m, changed) := r.1.mergeIcmpIncident o
    (m, r.2 || changed)) (m, false)

/-- `closed[-(1000 - len(active)):]`, where an index of zero or more counts from the front. -/
def retainClosed (active : Nat) (closed : List AlertIncident) : List AlertIncident :=
  if active < 1000 then closed.drop (closed.length - (1000 - active)) else closed.drop (active - 1000)

def retain (incidents : List AlertIncident) : List AlertIncident :=
  let active := incidents.filter AlertIncident.isActive
  let closed := incidents.filter fun i => !i.isActive
  (retainClosed active.length closed ++ active).mergeSort fun a b => decide (a.startedAt ≤ b.startedAt)

def skips (e : Evaluation Clock) (rule : AlertRule Clock) : Bool :=
  !rule.enabled || (rule.kind == .resource && !e.computed)

def observeRules (lasted : Clock → Clock → Clock → Bool) (e : Evaluation Clock) (m : AlertMonitor Clock) (changed : Bool)
    (rules : List (AlertRule Clock)) : AlertMonitor Clock × Bool :=
  rules.foldl (fun r rule =>
    if skips e rule then r
    else
      let (m, changed) := r.1.applyRuleObservation lasted rule (e.observe rule) (e.newId rule) e.now
      (m, changed || r.2)) (m, changed)

def retainIncidents (m : AlertMonitor Clock) (changed : Bool) : AlertMonitor Clock :=
  { m with incidents := retain m.incidents, dirty := m.dirty || changed }

/-- A write that raises is made again in the next round. -/
def saveDirty (m : AlertMonitor Clock) (outcome : SaveOutcome) : AlertMonitor Clock :=
  if m.dirty then
    let (m, raised) := m.save outcome
    { m with dirty := raised }
  else m

/-- The round once all rules were observed. -/
def conclude (e : Evaluation Clock) (m : AlertMonitor Clock) (changed : Bool) : AlertMonitor Clock :=
  let (m, merged) := m.mergeIcmpIncidents e.icmp
  (m.retainIncidents (merged || changed)).saveDirty e.save

/-- The part of `_run` under the lock. -/
def evaluate (lasted : Clock → Clock → Clock → Bool) (m : AlertMonitor Clock) (e : Evaluation Clock) : AlertMonitor Clock :=
  let (m, changed) := m.closeRemovedRules e.now
  match e.failsAfter with
  | some n => (observeRules lasted e m changed (m.rules.take n)).1
  | none =>
    let (m, changed) := observeRules lasted e m changed m.rules
    conclude e m changed

def replaceRule (m : AlertMonitor Clock) (value : AlertRule Clock) : AlertMonitor Clock :=
  { m with
      rules := (m.rules.filter fun item : AlertRule Clock => item.id != value.id) ++ [value]
      streaks := m.streaks.pop value.id }.note [.changed value.id]

def removeRule (m : AlertMonitor Clock) (id : String) : AlertMonitor Clock :=
  { m with
      rules := m.rules.filter fun item : AlertRule Clock => item.id != id
      streaks := m.streaks.pop id }.note [.changed id]

def setChannels (m : AlertMonitor Clock) (channels : NotificationChannels) : AlertMonitor Clock :=
  { m with channels := channels }

/-- What a request changes before it is saved. -/
def applyConfiguration (m : AlertMonitor Clock) (r : AlertConfiguration Clock) (now : String) : AlertMonitor Clock :=
  let delete := r.delete.filter fun id => id != ""
  let m := r.rule.elim m m.replaceRule
  let m := delete.elim m m.removeRule
  let m := r.channels.elim m m.setChannels
  match (r.rule.map AlertRule.id).or delete with
  | none => m
  | some changedId => m.closeWhere (fun i => i.ruleId == some changedId) now

/-- `_configure`; a call that is cancelled during its write waits for it. -/
def configure (m : AlertMonitor Clock) (r : AlertConfiguration Clock) (now : String) (outcome : SaveOutcome)
    (cancelled : Bool) : AlertMonitor Clock × Option ConfigureError :=
  if r.rule.any (fun value => decide (100 ≤ m.rules.length) && !(m.rules.any fun item : AlertRule Clock => item.id == value.id)) then
    (m, some (.value "At most 100 Alert rules are supported."))
  else
    match (m.applyConfiguration r now).save outcome with
    | (changed, false) => (changed, if cancelled then some .cancelled else none)
    | (changed, true) => ({ m with file := changed.file }, some .os)

/-- The part of `_deliver` under the lock. -/
def delivered (m : AlertMonitor Clock) (id now : String) (result : Json) (outcome : SaveOutcome) : AlertMonitor Clock :=
  let record := fun i : AlertIncident => { i with lastNotification := some now, delivery := result }
  let m := { m with incidents := updateFirst (fun i => i.id == id) record m.incidents }
  let (m, raised) := m.save outcome
  { m with dirty := m.dirty || raised }

/-- A new process with the state of the file. -/
def restart (m : AlertMonitor Clock) : AlertMonitor Clock :=
  let stale := fun i : AlertIncident => { i with fresh := false }
  let started := match m.file with
    | none => { m with rules := [], channels := .initial, incidents := [] }
    | some document => { m with
        rules := document.rules
        channels := document.channels
        incidents := (document.incidents.drop (document.incidents.length - 1000)).map stale }
  { started with streaks := .empty, dirty := false }.note [.restarted]

end AlertMonitor

end ModularPipelines.Dashboard
