import ModularPipelines.Stages.Loop

namespace ModularPipelines.Stages

open Library Runner

def Event.isStart : Event → Prop
  | .started _ => True
  | .finished _ _ _ => False

/-- An outcome that nothing is started after: success, or work that may still be running. -/
def Event.final : Event → Prop
  | .started _ => False
  | .finished _ outcome response => outcome = .unknown ∨ response.success = true

section

variable (definition : StageDefinition) (waits : Bool)

/-- The exception that a turn ends with once its attempt is there. -/
def Round.failure (round : Round) (used : Nat) : Option Failure :=
  match round.collected with
  | .raised _ failure => some failure
  | .answered outcome response =>
    match round.recorded with
    | some failure => some failure
    | none =>
      match round.conclude definition waits used outcome response with
      | .action _ => none
      | .raised failure => some failure
      | .retry => round.charged

/-- A turn gives its answer, and nothing is started after its attempt. -/
structure Concluded (round : Round) (used ref : Nat) (events : List Event) (run : Run) (outcome : Outcome)
    (response : StageResult) (action : OutcomeAction) : Prop where
  answer : run.answer = .ok ⟨ref, some response, action⟩
  action : round.conclude definition waits used outcome response = .action action
  events : run.events = events ++ [.finished ref outcome response]
  used : run.state.used definition.stageId = used

/-- How a turn ends that does not lead to another. -/
structure Ended (round : Round) (ref : Nat) (s : StageState) (events : List Event) (run : Run) : Prop where
  active : run.state.activeAttempt = s.activeAttempt
  length : run.state.attempts.length = s.attempts.length
  turns : run.turns = 0
  quiet : ∃ tail, run.events = events ++ tail ∧ tail.length ≤ 1 ∧ ∀ e ∈ tail, ¬ e.isStart
  answer : (∃ failure, run.answer = .error failure ∧
      round.failure definition waits (s.used definition.stageId) = some failure) ∨
    round.failure definition waits (s.used definition.stageId) = none ∧ ∃ outcome response action,
      Concluded definition waits round (s.used definition.stageId) ref events run outcome response action

variable {definition waits}

theorem length_setOutcome (s : StageState) (ref : Nat) (outcome : Outcome) :
    (s.setOutcome ref outcome).attempts.length = s.attempts.length :=
  List.length_modify _ _ _

theorem length_leave (s : StageState) (ref : Nat) (outcome : Option Outcome) :
    (s.leave ref outcome).attempts.length = s.attempts.length := by
  cases outcome with
  | none => rfl
  | some outcome => exact length_setOutcome s ref outcome

theorem active_leave (s : StageState) (ref : Nat) (outcome : Option Outcome) :
    (s.leave ref outcome).activeAttempt = s.activeAttempt := by
  cases outcome <;> rfl

theorem length_bind (s : StageState) (attempt : Attempt) : (s.bind attempt).attempts.length = s.attempts.length + 1 :=
  List.length_append

theorem finishTurn_returned {round : Round} {ref : Nat} {s : StageState} {events : List Event} {run : Run}
    (h : finishTurn definition waits round ref s events = .returned run) :
    Ended definition waits round ref s events run := by
  unfold finishTurn at h
  cases hcollected : round.collected with
  | raised outcome failure =>
    simp only [hcollected] at h
    cases h
    refine ⟨active_leave s ref outcome, length_leave s ref outcome, rfl, ⟨[], by simp, by simp, by simp⟩, Or.inl ?_⟩
    exact ⟨failure, rfl, by simp only [Round.failure, hcollected]⟩
  | answered outcome response =>
    have hlength := length_setOutcome s ref outcome
    have hquiet : ∀ e ∈ [Event.finished ref outcome response], ¬ e.isStart := by simp [Event.isStart]
    cases hrecorded : round.recorded with
    | some failure =>
      simp only [hcollected, hrecorded] at h
      cases h
      refine ⟨rfl, hlength, rfl, ⟨_, rfl, Nat.le_refl _, hquiet⟩, Or.inl ⟨failure, rfl, ?_⟩⟩
      simp only [Round.failure, hcollected, hrecorded]
    | none =>
      cases hnext : round.conclude definition waits (s.used definition.stageId) outcome response with
      | action action =>
        simp only [hcollected, hrecorded, StageState.used_setOutcome, hnext] at h
        cases h
        refine ⟨rfl, hlength, rfl, ⟨_, rfl, Nat.le_refl _, hquiet⟩, Or.inr ⟨?_, outcome, response, action, rfl, hnext, rfl, rfl⟩⟩
        simp only [Round.failure, hcollected, hrecorded, hnext]
      | raised failure =>
        simp only [hcollected, hrecorded, StageState.used_setOutcome, hnext] at h
        cases h
        refine ⟨rfl, hlength, rfl, ⟨_, rfl, Nat.le_refl _, hquiet⟩, Or.inl ⟨failure, rfl, ?_⟩⟩
        simp only [Round.failure, hcollected, hrecorded, hnext]
      | retry =>
        cases hcharged : round.charged with
        | some failure =>
          simp only [hcollected, hrecorded, StageState.used_setOutcome, hnext, hcharged] at h
          cases h
          refine ⟨rfl, hlength, rfl, ⟨_, rfl, Nat.le_refl _, hquiet⟩, Or.inl ⟨failure, rfl, ?_⟩⟩
          simp only [Round.failure, hcollected, hrecorded, hnext, hcharged]
        | none =>
          simp only [hcollected, hrecorded, StageState.used_setOutcome, hnext, hcharged] at h
          cases h

/-- The failure came to the exhaustion policy: the work has ended, no pause was requested and no retry is left. -/
def Exhausted (definition : StageDefinition) (round : Round) (used : Nat) (outcome : Outcome)
    (response : StageResult) : Prop :=
  outcome ≠ .unknown ∧ response.success = false ∧ round.pausedAfter = false ∧ definition.errors.retries ≤ used

/-- A conditional stage that must return data has none. -/
def MissingData (definition : StageDefinition) (response : StageResult) : Prop :=
  definition.serviceId = none ∧ definition.returnsData = some true ∧ response.errorCode = some "conditional_missing_data"

/-- When a finished attempt advances the DAG. -/
structure AdvancesExactly (definition : StageDefinition) (round : Round) (used : Nat) (outcome : Outcome)
    (response : StageResult) (action : OutcomeAction) : Prop where
  advance : action = .advance ↔ outcome ≠ .unknown ∧ response.success = true ∨
    Exhausted definition round used outcome response ∧ definition.errors.onExhausted = .skip ∧
      ¬ MissingData definition response
  missing : Exhausted definition round used outcome response → MissingData definition response → action = .stop

theorem exhaustedAction_advance {response : StageResult} :
    exhaustedAction definition response = .advance ↔
      definition.errors.onExhausted = .skip ∧ ¬ MissingData definition response := by
  unfold exhaustedAction MissingData
  split
  · next h => simp [h]
  · next h => cases hx : definition.errors.onExhausted <;> simp [h]

theorem conclude_action {round : Round} {used : Nat} {outcome : Outcome} {response : StageResult} {action : OutcomeAction}
    (h : round.conclude definition waits used outcome response = .action action) :
    AdvancesExactly definition round used outcome response action := by
  unfold Round.conclude at h
  by_cases hunknown : outcome = .unknown
  · rw [if_pos hunknown] at h
    cases h
    constructor <;> simp [Exhausted, hunknown]
  rw [if_neg hunknown] at h
  by_cases hsuccess : response.success = true
  · rw [if_pos hsuccess] at h
    cases h
    constructor <;> simp [Exhausted, hunknown, hsuccess]
  rw [if_neg hsuccess] at h
  by_cases hpaused : round.pausedAfter = true
  · rw [if_pos hpaused] at h
    cases h
    constructor <;> simp [Exhausted, hpaused, hsuccess]
  rw [if_neg hpaused] at h
  by_cases hused : used ≥ definition.errors.retries
  · rw [if_pos hused] at h
    cases h
    have hexhausted : Exhausted definition round used outcome response :=
      ⟨hunknown, by simpa using hsuccess, by simpa using hpaused, hused⟩
    refine ⟨exhaustedAction_advance.trans ?_, fun _ hmissing => if_pos hmissing⟩
    simp [hexhausted, hsuccess]
  · rw [if_neg hused] at h
    have hexhausted : ¬ Exhausted definition round used outcome response := fun he => hused he.2.2.2
    refine ⟨?_, fun he => absurd he hexhausted⟩
    have hne : action ≠ .advance := by
      rintro rfl
      split at h
      · cases h
      · split at h
        · cases h
        · split at h
          · cases h
          · split at h
            · cases h
            · cases h
            · cases h
            · split at h <;> cases h
    simp [hne, hexhausted, hsuccess]

/-- The attempt that a turn works on, and how it came to be there. -/
inductive Begun (definition : StageDefinition) (executionId : String) (round : Round) (s : StageState) :
    Option Nat → Nat → StageState → List Event → Prop where
  | recovered (ref : Nat) : Begun definition executionId round s (some ref) ref s []
  | started (h : round.start = .bound) : Begun definition executionId round s none s.attempts.length
      (s.bind (newAttempt definition executionId s)) [.started s.attempts.length]

/-- A turn fails before its attempt is there, or it goes on with its attempt. -/
theorem turn_cases (definition : StageDefinition) (waits : Bool) (executionId : String) (round : Round)
    (recovered : Option Nat) (s : StageState) :
    (∃ failure run, recovered = none ∧ turn definition waits executionId round recovered s = .returned run ∧
      run.answer = .error failure ∧ run.turns = 0 ∧
      (round.start = .unbound failure ∧ run.state = s ∧ run.events = [] ∨
        round.start = .lost failure ∧ run.state = s.bind (newAttempt definition executionId s) ∧
          run.events = [.started s.attempts.length])) ∨
    ∃ ref s' before, Begun definition executionId round s recovered ref s' before ∧
      turn definition waits executionId round recovered s = finishTurn definition waits round ref s' before := by
  cases recovered with
  | some ref => exact Or.inr ⟨ref, s, [], .recovered ref, rfl⟩
  | none =>
    unfold turn
    cases hstart : round.start with
    | unbound failure => exact Or.inl ⟨failure, _, rfl, rfl, rfl, rfl, Or.inl ⟨rfl, rfl, rfl⟩⟩
    | lost failure => exact Or.inl ⟨failure, _, rfl, rfl, rfl, rfl, Or.inr ⟨rfl, rfl, rfl⟩⟩
    | bound => exact Or.inr ⟨_, _, _, .started hstart, rfl⟩

/-- How many attempts a first turn may add. -/
def room (recovered : Option Nat) : Nat := if recovered.isSome then 0 else 1

namespace Begun

variable {executionId : String} {round : Round} {s s' : StageState} {recovered : Option Nat} {ref : Nat}
  {before : List Event}

theorem length (h : Begun definition executionId round s recovered ref s' before) :
    s'.attempts.length = s.attempts.length + room recovered := by
  cases h with
  | recovered => rfl
  | started _ => exact length_bind _ _

theorem used (h : Begun definition executionId round s recovered ref s' before) :
    s'.used definition.stageId = s.used definition.stageId := by
  cases h <;> rfl

theorem active (h : Begun definition executionId round s recovered ref s' before)
    (hr : ∀ r ∈ recovered, s.activeAttempt = some r) : s'.activeAttempt = some ref := by
  cases h with
  | recovered => exact hr ref rfl
  | started _ => rfl

theorem before_not_final (h : Begun definition executionId round s recovered ref s' before) :
    ∀ e ∈ before, ¬ e.final := by
  cases h <;> simp [Event.final]

end Begun

/-- What the loop does with the attempts, the retry budget and the events of a visit. -/
structure LoopSound (definition : StageDefinition) (rounds : Nat → Round) (recovered : Option Nat) (s : StageState)
    (run : Run) : Prop where
  bounded : run.state.attempts.length ≤
    s.attempts.length + room recovered + (definition.errors.retries - s.used definition.stageId)
  final : run.events.Pairwise fun a b => a.final → ¬ b.isStart
  active : ∀ o, run.answer = .ok o → run.state.activeAttempt = some o.attempt
  advance : ∀ o, run.answer = .ok o → ∃ outcome response,
    run.events.getLast? = some (.finished o.attempt outcome response) ∧ o.result = some response ∧
      AdvancesExactly definition (rounds run.turns) (run.state.used definition.stageId) outcome response o.action

theorem pairwise_of_not_final {front back : List Event} (hfront : ∀ e ∈ front, ¬ e.final)
    (hback : back.Pairwise fun a b => a.final → ¬ b.isStart) :
    (front ++ back).Pairwise fun a b => a.final → ¬ b.isStart := by
  apply List.pairwise_append.mpr
  refine ⟨?_, hback, fun a ha b _ hf => absurd hf (hfront a ha)⟩
  apply List.pairwise_of_forall_mem_list
  intro a ha b _ hf
  exact absurd hf (hfront a ha)

theorem Ended.loop_sound {executionId : String} {rounds : Nat → Round} {recovered : Option Nat} {s s' : StageState}
    {ref : Nat} {before : List Event} {run : Run} (h : Ended definition waits (rounds 0) ref s' before run)
    (hb : Begun definition executionId (rounds 0) s recovered ref s' before)
    (hr : ∀ r ∈ recovered, s.activeAttempt = some r) : LoopSound definition rounds recovered s run := by
  obtain ⟨tail, hevents, hlength, hquiet⟩ := h.quiet
  refine ⟨?_, ?_, ?_, ?_⟩
  · rw [h.length, hb.length]
    omega
  · rw [hevents]
    apply pairwise_of_not_final hb.before_not_final
    apply List.pairwise_of_forall_mem_list
    intro a _ b hmem _
    exact hquiet b hmem
  · intro o ho
    rcases h.answer with ⟨failure, herror, _⟩ | ⟨_, outcome, response, action, hc⟩
    · rw [herror] at ho
      cases ho
    · rw [hc.answer] at ho
      cases ho
      rw [h.active, hb.active hr]
  · intro o ho
    rcases h.answer with ⟨failure, herror, _⟩ | ⟨_, outcome, response, action, hc⟩
    · rw [herror] at ho
      cases ho
    · rw [hc.answer] at ho
      cases ho
      refine ⟨outcome, response, ?_, rfl, ?_⟩
      · rw [hc.events, List.getLast?_append]
        rfl
      · rw [h.turns, hc.used]
        exact conclude_action hc.action

theorem loop_returned {executionId : String} {rounds : Nat → Round} {recovered : Option Nat} {s : StageState} {run : Run}
    (h : turn definition waits executionId (rounds 0) recovered s = .returned run) :
    loop definition waits executionId rounds recovered s = run := by
  rw [loop]
  split
  · next hrun =>
    rw [h] at hrun
    cases hrun
    rfl
  · next hrun =>
    rw [h] at hrun
    cases hrun

theorem loop_again {executionId : String} {rounds : Nat → Round} {recovered : Option Nat} {s t : StageState}
    {events : List Event} (h : turn definition waits executionId (rounds 0) recovered s = .again t events) :
    loop definition waits executionId rounds recovered s =
      (loop definition waits executionId (fun n => rounds (n + 1)) none t).after events := by
  rw [loop]
  split
  · next hrun =>
    rw [h] at hrun
    cases hrun
  · next hrun =>
    rw [h] at hrun
    cases hrun
    rfl

/-- Each turn that leads to another charges one retry, and its attempt ended without success. -/
theorem loop_sound (executionId : String) (rounds : Nat → Round) (recovered : Option Nat) (s : StageState)
    (hr : ∀ r ∈ recovered, s.activeAttempt = some r) :
    LoopSound definition rounds recovered s (loop definition waits executionId rounds recovered s) := by
  induction hn : definition.errors.retries - s.used definition.stageId using Nat.strongRecOn
    generalizing rounds recovered s with
  | ind n ih =>
    rcases turn_cases definition waits executionId (rounds 0) recovered s with
      ⟨failure, run, rfl, hturn, herror, hzero, hcases⟩ | ⟨ref, s', before, hb, hturn⟩
    · rw [loop_returned hturn]
      have hno : ∀ o, run.answer ≠ .ok o := by
        intro o ho
        rw [herror] at ho
        cases ho
      refine ⟨?_, ?_, fun o ho => absurd ho (hno o), fun o ho => absurd ho (hno o)⟩
      · rcases hcases with ⟨_, hstate, _⟩ | ⟨_, hstate, _⟩
        · rw [hstate]
          omega
        · rw [hstate, length_bind, room]
          simp only [Option.isSome_none, Bool.false_eq_true, if_false]
          omega
      · rcases hcases with ⟨_, _, hevents⟩ | ⟨_, _, hevents⟩
        · rw [hevents]
          exact List.Pairwise.nil
        · rw [hevents]
          exact List.pairwise_singleton _ _
    · cases hfinish : finishTurn definition waits (rounds 0) ref s' before with
      | returned run =>
        rw [loop_returned (hturn.trans hfinish)]
        exact (finishTurn_returned hfinish).loop_sound hb hr
      | again t events =>
        have hagain := hturn.trans hfinish
        obtain ⟨hused, hbudget⟩ := turn_again definition waits hagain
        obtain ⟨outcome, response, _, _, hretry, _, rfl, rfl⟩ := finishTurn_again definition waits hfinish
        obtain ⟨hunknown, hsuccess, _⟩ := conclude_retry definition waits hretry
        have hrest := ih _ (by omega) (fun n => rounds (n + 1)) none
          ((s'.setOutcome ref outcome).chargeRetry definition.stageId) (by simp) rfl
        have hlength : ((s'.setOutcome ref outcome).chargeRetry definition.stageId).attempts.length =
            s.attempts.length + room recovered := (length_setOutcome s' ref outcome).trans hb.length
        rw [loop_again hagain]
        refine ⟨?_, ?_, hrest.active, ?_⟩
        · have hbound := hrest.bounded
          rw [hlength, hused] at hbound
          have hroom : room none = 1 := rfl
          rw [hroom] at hbound
          simp only [Run.after]
          omega
        · apply pairwise_of_not_final _ hrest.final
          intro e he
          rcases List.mem_append.mp he with he | he
          · exact hb.before_not_final e he
          · rw [List.mem_singleton.mp he]
            simp [Event.final, hunknown, hsuccess]
        · intro o ho
          obtain ⟨outcome', response', hlast, hresult, hadvance⟩ := hrest.advance o ho
          refine ⟨outcome', response', ?_, hresult, hadvance⟩
          simp only [Run.after]
          rw [List.getLast?_append, hlast]
          rfl

end

end ModularPipelines.Stages
