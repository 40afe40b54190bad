import ModularPipelines.Runner.Execute

namespace ModularPipelines.Stages

open Library Runner

/-- `recover` handles OSError, EOFError, ValueError and RuntimeError; every other exception passes through it. -/
inductive Failure where
  | handled
  | other
  deriving DecidableEq, Repr

inductive Outcome where
  | succeeded
  | failed
  | timedOut
  | cancelled
  | invalidated
  | unknown
  | unknownStopped
  deriving DecidableEq, Repr

structure Attempt where
  stageId : String
  stageExecutionId : String
  cycleNumber : Nat
  attemptNumber : Nat
  outcome : Option Outcome
  deriving DecidableEq, Repr

/-- The state of a visit. An attempt object is known by its place among all that were made. -/
structure StageState where
  attempts : List Attempt
  activeAttempt : Option Nat
  cycleNumber : Nat
  retryCounts : Dict Nat
  attemptNumbers : Dict Nat
  unknownStateRecoveryCount : Nat
  made : ∀ ref ∈ activeAttempt, ref < attempts.length

namespace StageState

def used (s : StageState) (stageId : String) : Nat := (s.retryCounts.get? stageId).getD 0

def outcomeOf (s : StageState) (ref : Nat) : Option Outcome := s.attempts[ref]?.bind Attempt.outcome

def executionOf (s : StageState) (ref : Nat) : Option String := s.attempts[ref]?.map Attempt.stageExecutionId

/-- `attempt.outcome = ...` -/
def setOutcome (s : StageState) (ref : Nat) (outcome : Outcome) : StageState :=
  { s with
    attempts := s.attempts.modify ref fun a => { a with outcome := some outcome }
    made := fun r hr => by simpa using s.made r hr }

/-- What an interrupted step leaves on an attempt. -/
def leave (s : StageState) (ref : Nat) : Option Outcome → StageState
  | none => s
  | some outcome => s.setOutcome ref outcome

/-- What `interrupt` accepts for the active attempt. -/
def leaveActive (s : StageState) (outcome : Option Outcome) : StageState :=
  match s.activeAttempt with
  | none => s
  | some active => s.leave active outcome

def chargeRetry (s : StageState) (stageId : String) : StageState :=
  { s with retryCounts := s.retryCounts.set stageId (s.used stageId + 1) }

/-- `_bind_attempt_intent`: a new attempt object becomes the active one. -/
def bind (s : StageState) (attempt : Attempt) : StageState :=
  { s with
    attempts := s.attempts ++ [attempt]
    activeAttempt := some s.attempts.length
    attemptNumbers := s.attemptNumbers.set attempt.stageId attempt.attemptNumber
    made := fun r hr => by simp [← Option.mem_some_iff.mp hr] }

end StageState

/-- `_start_attempt` raises before its attempt is bound, returns it, or raises afterwards. -/
inductive StartAnswer where
  | unbound (failure : Failure)
  | bound
  | lost (failure : Failure)
  deriving DecidableEq, Repr

/-- `_collect_result`, or the result of a failed startup. -/
inductive CollectAnswer where
  | answered (outcome : Outcome) (response : StageResult)
  | raised (outcome : Option Outcome) (failure : Failure)
  deriving DecidableEq

/-- What `wait_services` answers. -/
inductive Readiness where
  | ready
  | pause
  | stop
  | raised (failure : Failure)
  deriving DecidableEq, Repr

/-- What one turn of the loop meets: the answers to its calls, and `pause_requested` each time that it is read. -/
structure Round where
  start : StartAnswer
  collected : CollectAnswer
  recorded : Option Failure
  pausedAfter : Bool
  delayed : Option Failure
  pausedDelay : Bool
  readiness : Readiness
  pausedReady : Bool
  charged : Option Failure
  deriving DecidableEq

structure StageOutcome where
  attempt : Nat
  result : Option StageResult
  action : OutcomeAction
  deriving DecidableEq

inductive Event where
  | started (ref : Nat)
  | finished (ref : Nat) (outcome : Outcome) (response : StageResult)
  deriving DecidableEq

/-- How a call ended, and after how many turns. -/
structure Run where
  answer : Except Failure StageOutcome
  state : StageState
  events : List Event
  turns : Nat

def Run.after (events : List Event) (run : Run) : Run :=
  { run with events := events ++ run.events, turns := run.turns + 1 }

inductive Conclusion where
  | action (action : OutcomeAction)
  | raised (failure : Failure)
  | retry
  deriving DecidableEq

section

variable (definition : StageDefinition) (waits : Bool)

/-- What follows a finished attempt. -/
def Round.conclude (round : Round) (used : Nat) (outcome : Outcome) (response : StageResult) : Conclusion :=
  if outcome = .unknown then .action .stop
  else if response.success = true then .action .advance
  else if round.pausedAfter = true then .action .pause
  else if used ≥ definition.errors.retries then .action (exhaustedAction definition response)
  else
    match round.delayed with
    | some failure => .raised failure
    | none =>
      if round.pausedDelay = true then .action .pause
      else if waits = false then .retry
      else
        match round.readiness with
        | .raised failure => .raised failure
        | .pause => .action .pause
        | .stop => .action .stop
        | .ready => if round.pausedReady = true then .action .pause else .retry

inductive Turn where
  | returned (run : Run)
  | again (state : StageState) (events : List Event)

/-- A turn once its attempt is there. -/
def finishTurn (round : Round) (ref : Nat) (s : StageState) (events : List Event) : Turn :=
  match round.collected with
  | .raised outcome failure => .returned ⟨.error failure, s.leave ref outcome, events, 0⟩
  | .answered outcome response =>
    let s := s.setOutcome ref outcome
    let events := events ++ [.finished ref outcome response]
    match round.recorded with
    | some failure => .returned ⟨.error failure, s, events, 0⟩
    | none =>
      match round.conclude definition waits (s.used definition.stageId) outcome response with
      | .action action => .returned ⟨.ok ⟨ref, some response, action⟩, s, events, 0⟩
      | .raised failure => .returned ⟨.error failure, s, events, 0⟩
      | .retry =>
        let s := s.chargeRetry definition.stageId
        match round.charged with
        | some failure => .returned ⟨.error failure, s, events, 0⟩
        | none => .again s events

def newAttempt (executionId : String) (s : StageState) : Attempt where
  stageId := definition.stageId
  stageExecutionId := executionId
  cycleNumber := s.cycleNumber
  attemptNumber := (s.attemptNumbers.get? definition.stageId).getD 0 + 1
  outcome := none

/-- One turn; the first may take up an attempt that is there already. -/
def turn (executionId : String) (round : Round) (recovered : Option Nat) (s : StageState) : Turn :=
  match recovered with
  | some ref => finishTurn definition waits round ref s []
  | none =>
    let bound := s.bind (newAttempt definition executionId s)
    let ref := s.attempts.length
    match round.start with
    | .unbound failure => .returned ⟨.error failure, s, [], 0⟩
    | .lost failure => .returned ⟨.error failure, bound, [.started ref], 0⟩
    | .bound => finishTurn definition waits round ref bound [.started ref]

@[simp] theorem StageState.used_setOutcome (s : StageState) (ref : Nat) (outcome : Outcome) (stageId : String) :
    (s.setOutcome ref outcome).used stageId = s.used stageId := rfl

@[simp] theorem StageState.used_bind (s : StageState) (attempt : Attempt) (stageId : String) :
    (s.bind attempt).used stageId = s.used stageId := rfl

theorem StageState.used_chargeRetry (s : StageState) (stageId : String) :
    (s.chargeRetry stageId).used stageId = s.used stageId + 1 := by
  simp [chargeRetry, used]

/-- A retry needs a budget that is not used up. -/
theorem conclude_retry {round : Round} {used : Nat} {outcome : Outcome} {response : StageResult}
    (h : round.conclude definition waits used outcome response = .retry) :
    outcome ≠ .unknown ∧ response.success = false ∧ used < definition.errors.retries := by
  unfold Round.conclude at h
  split at h
  · cases h
  · next hunknown =>
    split at h
    · cases h
    · next hsuccess =>
      split at h
      · cases h
      · split at h
        · cases h
        · next hused => exact ⟨hunknown, by simpa using hsuccess, Nat.not_le.mp hused⟩

theorem finishTurn_again {round : Round} {ref : Nat} {s t : StageState} {events all : List Event}
    (h : finishTurn definition waits round ref s events = .again t all) :
    ∃ outcome response, round.collected = .answered outcome response ∧ round.recorded = none ∧
      round.conclude definition waits (s.used definition.stageId) outcome response = .retry ∧ round.charged = none ∧
      t = (s.setOutcome ref outcome).chargeRetry definition.stageId ∧
      all = events ++ [.finished ref outcome response] := by
  unfold finishTurn at h
  cases hcollected : round.collected with
  | raised outcome failure => simp only [hcollected] at h; cases h
  | answered outcome response =>
    cases hrecorded : round.recorded with
    | some failure => simp only [hcollected, hrecorded] at h; cases h
    | none =>
      cases hnext : round.conclude definition waits (s.used definition.stageId) outcome response with
      | action action => simp only [hcollected, hrecorded, StageState.used_setOutcome, hnext] at h; cases h
      | raised failure => simp only [hcollected, hrecorded, StageState.used_setOutcome, hnext] at h; cases h
      | retry =>
        cases hcharged : round.charged with
        | some failure =>
          simp only [hcollected, hrecorded, StageState.used_setOutcome, hnext, hcharged] at h
          cases h
        | none =>
          simp only [hcollected, hrecorded, StageState.used_setOutcome, hnext, hcharged] at h
          cases h
          exact ⟨outcome, response, rfl, rfl, hnext, rfl, rfl, rfl⟩

theorem turn_again {executionId : String} {round : Round} {recovered : Option Nat} {s t : StageState}
    {events : List Event} (h : turn definition waits executionId round recovered s = .again t events) :
    t.used definition.stageId = s.used definition.stageId + 1 ∧ s.used definition.stageId < definition.errors.retries := by
  have hfinish : ∃ ref s' before, s'.used definition.stageId = s.used definition.stageId ∧
      finishTurn definition waits round ref s' before = .again t events := by
    unfold turn at h
    split at h
    · next ref => exact ⟨ref, s, [], rfl, h⟩
    · split at h
      · cases h
      · cases h
      · exact ⟨_, s.bind (newAttempt definition executionId s), _, rfl, h⟩
  obtain ⟨ref, s', before, hused, hfinish⟩ := hfinish
  obtain ⟨outcome, response, _, _, hretry, _, rfl, _⟩ := finishTurn_again definition waits hfinish
  rw [StageState.used_chargeRetry, StageState.used_setOutcome, hused]
  exact ⟨rfl, hused ▸ (conclude_retry definition waits hretry).2.2⟩

/-- The retry loop of `execute`. -/
def loop (executionId : String) (rounds : Nat → Round) (recovered : Option Nat) (s : StageState) : Run :=
  match h : turn definition waits executionId (rounds 0) recovered s with
  | .returned run => run
  | .again t events => (loop executionId (fun n => rounds (n + 1)) none t).after events
termination_by definition.errors.retries - s.used definition.stageId
decreasing_by
  have := turn_again definition waits h
  omega

/-- What `execute` meets; a new visit selects its input first and has a new execution ID. -/
structure Script where
  selected : Option Failure
  executionId : String
  rounds : Nat → Round

/-- `execute`: a recovered attempt is taken up unless it was stopped after its outcome stayed unknown. -/
def execute (script : Script) (recovered : Option Nat) (s : StageState) : Run :=
  match recovered with
  | none =>
    match script.selected with
    | some failure => ⟨.error failure, s, [], 0⟩
    | none => loop definition waits script.executionId script.rounds none s
  | some ref =>
    loop definition waits ((s.executionOf ref).getD script.executionId) script.rounds
      (if s.outcomeOf ref = some .unknownStopped then none else some ref) s

/-- The policy on an attempt whose outcome stays unknown. -/
inductive UnknownAction where
  | stop
  | pause
  | rerun
  | skip
  deriving DecidableEq, Repr

structure UnknownStatePolicy where
  onTimeout : UnknownAction
  recoveryLimit : Nat
  onRecoveryLimit : UnknownAction
  limited : onRecoveryLimit = .stop ∨ onRecoveryLimit = .pause

/-- What `recover` meets: the saved context, the reconnection, the loop, and then the unknown-state policy. -/
structure Recovery where
  context : Option Failure
  reconnected : Option Failure
  script : Script
  noted : Option Failure
  acceptedOutcome : Option Outcome
  interrupted : Except Failure Bool
  saved : Option Failure
  rerun : Script

variable (policy : UnknownStatePolicy) (recovery : Recovery)

def UnknownStatePolicy.action (count : Nat) : UnknownAction :=
  if count + 1 ≥ policy.recoveryLimit then policy.onRecoveryLimit else policy.onTimeout

/-- `attempt.outcome = "unknown"`, and a save that may fail. -/
def unresolved (attempt : Nat) (action : OutcomeAction) (s : StageState) : Run :=
  let s := s.setOutcome attempt .unknown
  match recovery.saved with
  | some failure => ⟨.error failure, s, [], 0⟩
  | none => ⟨.ok ⟨attempt, none, action⟩, s, [], 0⟩

def unknownResult : StageResult where
  success := false
  data := .obj [("reason", .str "unknown_state")]
  dagDecision := none
  errorCode := none

/-- `_recover_unknown_attempt`: the interruption is of the active attempt, the rest is about the one it was given. -/
def recoverUnknownAttempt (attempt : Nat) (s : StageState) : Run :=
  let action := policy.action s.unknownStateRecoveryCount
  let s := { s with unknownStateRecoveryCount := s.unknownStateRecoveryCount + 1 }
  match recovery.noted with
  | some failure => ⟨.error failure, s, [], 0⟩
  | none =>
    if action = .pause then unresolved recovery attempt .pause s
    else
      let s := s.leaveActive recovery.acceptedOutcome
      match recovery.interrupted with
      | .error failure => ⟨.error failure, s, [], 0⟩
      | .ok false => unresolved recovery attempt .stop s
      | .ok true =>
        let s := s.setOutcome attempt .unknownStopped
        match action with
        | .rerun => execute definition waits recovery.rerun (some attempt) s
        | .skip => ⟨.ok ⟨attempt, some unknownResult, .advance⟩, s, [], 0⟩
        | .stop | .pause => ⟨.ok ⟨attempt, some unknownResult, .stop⟩, s, [], 0⟩

/-- The saved attempt belongs to the stage and the cycle under the cursor. -/
def atCursor (s : StageState) (ref : Nat) : Bool :=
  match s.attempts[ref]? with
  | none => false
  | some attempt => attempt.stageId == definition.stageId && attempt.cycleNumber == s.cycleNumber

/-- `recover`; without an active attempt there is nothing to do. -/
def recover (s : StageState) : Option Run :=
  match s.activeAttempt with
  | none => none
  | some attempt =>
    if atCursor definition s attempt = false then some ⟨.error .handled, s, [], 0⟩
    else
      match recovery.context with
      | some failure => some ⟨.error failure, s, [], 0⟩
      | none =>
        match recovery.reconnected with
        | some .other => some ⟨.error .other, s, [], 0⟩
        | some .handled => some (recoverUnknownAttempt definition waits policy recovery attempt s)
        | none =>
          let run := execute definition waits recovery.script (some attempt) s
          match run.answer with
          | .error .handled =>
            some ((recoverUnknownAttempt definition waits policy recovery attempt run.state).after run.events)
          | _ => some run

end

end ModularPipelines.Stages
