import ModularPipelines.Stages.Retries

namespace ModularPipelines.Stages

open Library Runner

section

variable {definition : StageDefinition} {waits : Bool}

/-- The answers of a turn lead to another one. -/
def Round.continues (definition : StageDefinition) (waits : Bool) (round : Round) (starts : Bool) (used : Nat) : Prop :=
  (starts = true → round.start = .bound) ∧ ∃ outcome response, round.collected = .answered outcome response ∧
    round.recorded = none ∧ round.conclude definition waits used outcome response = .retry ∧ round.charged = none

/-- The exception that a turn ends with. -/
def Round.raises (definition : StageDefinition) (waits : Bool) (round : Round) (starts : Bool) (used : Nat) :
    Option Failure :=
  if starts = true then
    match round.start with
    | .unbound failure | .lost failure => some failure
    | .bound => round.failure definition waits used
  else round.failure definition waits used

/-- The turn makes a new attempt the active one, whatever comes after. -/
def Round.binds (round : Round) (starts : Bool) : Prop := starts = true ∧ ∀ failure, round.start ≠ .unbound failure

/-- Whether a turn starts an attempt; the first may take up one that is there. -/
def starts (reused : Bool) (n : Nat) : Bool := !reused || decide (0 < n)

/-- A turn is reached that fails when an attempt of the loop's own has become the active one. -/
structure FailsInRetry (definition : StageDefinition) (waits reused : Bool) (used : Nat) (rounds : Nat → Round) (n : Nat) :
    Prop where
  continues : ∀ i < n, (rounds i).continues definition waits (starts reused i) (used + i)
  raises : (rounds n).raises definition waits (starts reused n) (used + n) = some .handled
  binds : ∃ i ≤ n, (rounds i).binds (starts reused i)

theorem continues_raises {round : Round} {begins : Bool} {used : Nat}
    (h : round.continues definition waits begins used) : round.raises definition waits begins used = none := by
  obtain ⟨hstart, outcome, response, hcollected, hrecorded, hretry, hcharged⟩ := h
  have hfailure : round.failure definition waits used = none := by
    simp only [Round.failure, hcollected, hrecorded, hretry, hcharged]
  unfold Round.raises
  split
  · next hb => rw [hstart hb]; exact hfailure
  · exact hfailure

/-- A turn in terms of the answers that it meets. -/
theorem turn_kind (definition : StageDefinition) (waits : Bool) (executionId : String) (round : Round)
    (recovered : Option Nat) (s : StageState) :
    (∃ t events, turn definition waits executionId round recovered s = .again t events ∧
      round.continues definition waits recovered.isNone (s.used definition.stageId) ∧
      t.activeAttempt = (if recovered.isNone then some s.attempts.length else s.activeAttempt) ∧
      s.attempts.length ≤ t.attempts.length ∧ t.used definition.stageId = s.used definition.stageId + 1 ∧
      s.used definition.stageId < definition.errors.retries) ∨
    ∃ run, turn definition waits executionId round recovered s = .returned run ∧
      ¬ round.continues definition waits recovered.isNone (s.used definition.stageId) ∧
      (∀ failure, run.answer = .error failure ↔
        round.raises definition waits recovered.isNone (s.used definition.stageId) = some failure) ∧
      (round.binds recovered.isNone → run.state.activeAttempt = some s.attempts.length) ∧
      (¬ round.binds recovered.isNone → run.state.activeAttempt = s.activeAttempt) := by
  rcases turn_cases definition waits executionId round recovered s with
    ⟨failure, run, rfl, hturn, herror, _, hcases⟩ | ⟨ref, s', before, hb, hturn⟩
  · right
    refine ⟨run, hturn, ?_, ?_, ?_, ?_⟩
    · rintro ⟨hstart, _⟩
      have := hstart rfl
      rcases hcases with ⟨h, _⟩ | ⟨h, _⟩ <;> rw [h] at this <;> cases this
    · intro f
      rw [herror]
      rcases hcases with ⟨h, _⟩ | ⟨h, _⟩ <;> simp [Round.raises, h]
    · rintro ⟨_, hbinds⟩
      rcases hcases with ⟨h, _⟩ | ⟨_, hstate, _⟩
      · exact absurd h (hbinds failure)
      · rw [hstate]
        rfl
    · intro hbinds
      rcases hcases with ⟨_, hstate, _⟩ | ⟨h, _⟩
      · rw [hstate]
      · exact absurd ⟨rfl, fun f hf => by rw [h] at hf; cases hf⟩ hbinds
  · have hstart : recovered.isNone = true → round.start = .bound := by
      intro hnone
      cases hb with
      | recovered => cases hnone
      | started h => exact h
    have hactive : s'.activeAttempt = if recovered.isNone then some s.attempts.length else s.activeAttempt := by
      cases hb <;> rfl
    have hraises : round.raises definition waits recovered.isNone (s.used definition.stageId) =
        round.failure definition waits (s.used definition.stageId) := by
      unfold Round.raises
      split
      · next hnone => rw [hstart hnone]
      · rfl
    cases hfinish : finishTurn definition waits round ref s' before with
    | again t events =>
      left
      obtain ⟨hused, hbudget⟩ := turn_again definition waits (hturn.trans hfinish)
      obtain ⟨outcome, response, hcollected, hrecorded, hretry, hcharged, rfl, _⟩ := finishTurn_again definition waits hfinish
      rw [hb.used] at hretry
      refine ⟨_, events, hturn.trans hfinish, ⟨hstart, outcome, response, hcollected, hrecorded, hretry, hcharged⟩,
        hactive, ?_, hused, hbudget⟩
      have hlength := hb.length
      have := length_setOutcome s' ref outcome
      change s.attempts.length ≤ (s'.setOutcome ref outcome).attempts.length
      omega
    | returned run =>
      right
      have hended := finishTurn_returned hfinish
      have hanswer := hended.answer
      rw [hb.used] at hanswer
      refine ⟨run, hturn.trans hfinish, ?_, ?_, ?_, ?_⟩
      · rintro ⟨_, outcome, response, hcollected, hrecorded, hretry, hcharged⟩
        have hagain : finishTurn definition waits round ref s' before =
            .again ((s'.setOutcome ref outcome).chargeRetry definition.stageId) (before ++ [.finished ref outcome response]) := by
          rw [← hb.used] at hretry
          simp only [finishTurn, hcollected, hrecorded, StageState.used_setOutcome, hretry, hcharged]
        rw [hagain] at hfinish
        cases hfinish
      · intro f
        rw [hraises]
        rcases hanswer with ⟨failure, herror, hfailure⟩ | ⟨hfailure, outcome, response, action, hc⟩
        · rw [herror, hfailure, Except.error.injEq, Option.some.injEq]
        · rw [hc.answer, hfailure]
          constructor <;> intro h <;> cases h
      · rintro ⟨hnone, _⟩
        rw [hended.active, hactive, if_pos hnone]
      · intro hbinds
        rw [hended.active, hactive]
        split
        · next hnone => exact absurd ⟨hnone, fun f hf => by rw [hstart hnone] at hf; cases hf⟩ hbinds
        · rfl

theorem starts_zero (recovered : Option Nat) : starts recovered.isSome 0 = recovered.isNone := by
  cases recovered <;> rfl

theorem starts_succ (reused : Bool) (n : Nat) : starts reused (n + 1) = starts false n := by
  simp [starts]

/-- The loop fails on another attempt than the first exactly when a turn that is reached fails after one was started. -/
theorem loop_loses (executionId : String) (rounds : Nat → Round) (recovered : Option Nat) (s : StageState) {ref : Nat}
    (href : ref < s.attempts.length) :
    ((loop definition waits executionId rounds recovered s).answer = .error .handled ∧
      (loop definition waits executionId rounds recovered s).state.activeAttempt ≠ some ref) ↔
    ∃ n, (∀ i < n, (rounds i).continues definition waits (starts recovered.isSome i) (s.used definition.stageId + i)) ∧
      (rounds n).raises definition waits (starts recovered.isSome n) (s.used definition.stageId + n) = some .handled ∧
      (s.activeAttempt ≠ some ref ∨ ∃ i ≤ n, (rounds i).binds (starts recovered.isSome i)) := by
  induction hn : definition.errors.retries - s.used definition.stageId using Nat.strongRecOn
    generalizing rounds recovered s with
  | ind m ih =>
    have hnew : some s.attempts.length ≠ some ref := fun h => by
      have := Option.some.inj h
      omega
    rcases turn_kind definition waits executionId (rounds 0) recovered s with
      ⟨t, events, hturn, hcontinues, hactive, hlength, hused, hbudget⟩ | ⟨run, hturn, hends, hraises, hbinds, hkeeps⟩
    · rw [loop_again hturn]
      simp only [Run.after]
      rw [ih _ (by omega) (fun n => rounds (n + 1)) none t (by omega) rfl, hused, hactive]
      have hfirst : (if recovered.isNone then some s.attempts.length else s.activeAttempt) ≠ some ref ↔
          s.activeAttempt ≠ some ref ∨ (rounds 0).binds (starts recovered.isSome 0) := by
        rw [starts_zero]
        by_cases hnone : recovered.isNone = true
        · rw [if_pos hnone]
          have hb : (rounds 0).binds recovered.isNone :=
            ⟨hnone, fun f hf => by rw [hcontinues.1 hnone] at hf; cases hf⟩
          simp [hnew, hb]
        · rw [if_neg hnone]
          have hb : ¬ (rounds 0).binds recovered.isNone := fun hb => hnone hb.1
          simp [hb]
      have hshift : ∀ k, s.used definition.stageId + (k + 1) = s.used definition.stageId + 1 + k := by omega
      rw [hfirst]
      constructor
      · rintro ⟨n, hall, hraise, hlost⟩
        refine ⟨n + 1, ?_, ?_, ?_⟩
        · intro i hi
          cases i with
          | zero => rw [starts_zero]; exact hcontinues
          | succ i =>
            have := hall i (by omega)
            rw [starts_succ, hshift]
            exact this
        · rw [starts_succ, hshift]
          exact hraise
        · rcases hlost with (hlost | hlost) | ⟨i, hi, hb⟩
          · exact Or.inl hlost
          · exact Or.inr ⟨0, Nat.zero_le _, hlost⟩
          · exact Or.inr ⟨i + 1, by omega, by rw [starts_succ]; exact hb⟩
      · rintro ⟨n, hall, hraise, hlost⟩
        cases n with
        | zero =>
          rw [starts_zero, Nat.add_zero, continues_raises hcontinues] at hraise
          cases hraise
        | succ n =>
          refine ⟨n, ?_, ?_, ?_⟩
          · intro i hi
            have := hall (i + 1) (by omega)
            rw [starts_succ, hshift] at this
            exact this
          · rw [starts_succ, hshift] at hraise
            exact hraise
          · rcases hlost with hlost | ⟨i, hi, hb⟩
            · exact Or.inl (Or.inl hlost)
            · cases i with
              | zero => exact Or.inl (Or.inr hb)
              | succ i => exact Or.inr ⟨i, by omega, by rw [starts_succ] at hb; exact hb⟩
    · rw [loop_returned hturn, hraises]
      have hfirst : run.state.activeAttempt ≠ some ref ↔
          s.activeAttempt ≠ some ref ∨ (rounds 0).binds recovered.isNone := by
        by_cases hb : (rounds 0).binds recovered.isNone
        · rw [hbinds hb]
          simp [hnew, hb]
        · rw [hkeeps hb]
          simp [hb]
      rw [hfirst]
      constructor
      · rintro ⟨hraise, hlost⟩
        refine ⟨0, fun i hi => absurd hi (Nat.not_lt_zero i), ?_, ?_⟩
        · rw [starts_zero]
          exact hraise
        · rcases hlost with hlost | hb
          · exact Or.inl hlost
          · exact Or.inr ⟨0, Nat.le_refl 0, by rw [starts_zero]; exact hb⟩
      · rintro ⟨n, hall, hraise, hlost⟩
        cases n with
        | succ n =>
          have h0 := hall 0 (Nat.succ_pos n)
          rw [starts_zero] at h0
          exact absurd h0 hends
        | zero =>
          rw [starts_zero] at hraise
          refine ⟨hraise, hlost.imp_right ?_⟩
          rintro ⟨i, hi, hb⟩
          have hzero : i = 0 := by omega
          rw [hzero, starts_zero] at hb
          exact hb

def Turn.state : Turn → StageState
  | .returned run => run.state
  | .again t _ => t

theorem finishTurn_keeps (definition : StageDefinition) (waits : Bool) (round : Round) (ref : Nat) (s : StageState)
    (events : List Event) :
    (finishTurn definition waits round ref s events).state.unknownStateRecoveryCount = s.unknownStateRecoveryCount ∧
      s.attempts.length ≤ (finishTurn definition waits round ref s events).state.attempts.length := by
  cases hfinish : finishTurn definition waits round ref s events with
  | again t all =>
    obtain ⟨outcome, _, _, _, _, _, rfl, _⟩ := finishTurn_again definition waits hfinish
    exact ⟨rfl, Nat.le_of_eq (length_setOutcome s ref outcome).symm⟩
  | returned run =>
    refine ⟨?_, Nat.le_of_eq (finishTurn_returned hfinish).length.symm⟩
    unfold finishTurn at hfinish
    split at hfinish
    · next outcome _ _ =>
      cases hfinish
      cases outcome <;> rfl
    · simp only at hfinish
      split at hfinish
      · cases hfinish
        rfl
      · split at hfinish
        · cases hfinish
          rfl
        · cases hfinish
          rfl
        · split at hfinish
          · cases hfinish
            rfl
          · cases hfinish

theorem turn_keeps (definition : StageDefinition) (waits : Bool) (executionId : String) (round : Round)
    (recovered : Option Nat) (s : StageState) :
    (turn definition waits executionId round recovered s).state.unknownStateRecoveryCount = s.unknownStateRecoveryCount ∧
      s.attempts.length ≤ (turn definition waits executionId round recovered s).state.attempts.length := by
  unfold turn
  cases recovered with
  | some ref => exact finishTurn_keeps definition waits round ref s []
  | none =>
    have hbind := length_bind s (newAttempt definition executionId s)
    cases round.start with
    | unbound failure => exact ⟨rfl, Nat.le_refl _⟩
    | lost failure => exact ⟨rfl, by simp only [Turn.state]; omega⟩
    | bound =>
      obtain ⟨hcount, hlength⟩ := finishTurn_keeps definition waits round s.attempts.length
        (s.bind (newAttempt definition executionId s)) [.started s.attempts.length]
      exact ⟨hcount, by simp only; omega⟩

/-- No turn forgets an attempt or counts a recovery. -/
theorem loop_keeps (executionId : String) (rounds : Nat → Round) (recovered : Option Nat) (s : StageState) :
    (loop definition waits executionId rounds recovered s).state.unknownStateRecoveryCount = s.unknownStateRecoveryCount ∧
      s.attempts.length ≤ (loop definition waits executionId rounds recovered s).state.attempts.length := by
  induction hn : definition.errors.retries - s.used definition.stageId using Nat.strongRecOn
    generalizing rounds recovered s with
  | ind n ih =>
    have hkeeps := turn_keeps definition waits executionId (rounds 0) recovered s
    cases hturn : turn definition waits executionId (rounds 0) recovered s with
    | returned run =>
      rw [loop_returned hturn]
      rw [hturn] at hkeeps
      exact hkeeps
    | again t events =>
      obtain ⟨hused, hbudget⟩ := turn_again definition waits hturn
      rw [hturn] at hkeeps
      obtain ⟨hcount, hlength⟩ := ih _ (by omega) (fun n => rounds (n + 1)) none t rfl
      rw [loop_again hturn]
      exact ⟨hcount.trans hkeeps.1, Nat.le_trans hkeeps.2 hlength⟩

variable (definition waits) (policy : UnknownStatePolicy) (recovery : Recovery)

/-- The unknown-state policy ends in an outcome of its own: it pauses, stops or skips. -/
def Surrenders (count : Nat) : Prop :=
  recovery.noted = none ∧
    (policy.action count = .pause ∧ recovery.saved = none ∨
      policy.action count ≠ .pause ∧
        (recovery.interrupted = .ok false ∧ recovery.saved = none ∨
          recovery.interrupted = .ok true ∧ policy.action count ≠ .rerun))

/-- Recovery fails on an attempt that its own retry loop has started, and ends in an outcome of the policy. -/
structure LosesRetry (s : StageState) (ref : Nat) : Prop where
  active : s.activeAttempt = some ref
  cursor : atCursor definition s ref = true
  context : recovery.context = none
  reconnected : recovery.reconnected = none
  fails : ∃ n, FailsInRetry definition waits (decide (s.outcomeOf ref ≠ some .unknownStopped))
    (s.used definition.stageId) recovery.script.rounds n
  surrenders : Surrenders policy recovery s.unknownStateRecoveryCount

variable {definition waits policy recovery}

theorem outcomeOf_setOutcome {s : StageState} {ref : Nat} (h : ref < s.attempts.length) (outcome : Outcome) :
    (s.setOutcome ref outcome).outcomeOf ref = some outcome := by
  simp [StageState.outcomeOf, StageState.setOutcome, h]

theorem leaveActive_active (s : StageState) (outcome : Option Outcome) :
    (s.leaveActive outcome).activeAttempt = s.activeAttempt := by
  unfold StageState.leaveActive
  split
  · rfl
  · exact active_leave s _ outcome

theorem length_leaveActive (s : StageState) (outcome : Option Outcome) :
    (s.leaveActive outcome).attempts.length = s.attempts.length := by
  unfold StageState.leaveActive
  split
  · rfl
  · exact length_leave s _ outcome

/-- A call ends with an outcome that is not about the active attempt. -/
def Run.Misses (run : Run) : Prop := ∃ o, run.answer = .ok o ∧ run.state.activeAttempt ≠ some o.attempt

theorem misses_error {failure : Failure} {s : StageState} {events : List Event} {turns : Nat} :
    ¬ Run.Misses ⟨.error failure, s, events, turns⟩ := by
  rintro ⟨o, ho, _⟩
  cases ho

theorem misses_ok {o : StageOutcome} {s : StageState} {events : List Event} {turns : Nat} :
    Run.Misses ⟨.ok o, s, events, turns⟩ ↔ s.activeAttempt ≠ some o.attempt := by
  constructor
  · rintro ⟨o', ho, h⟩
    cases ho
    exact h
  · exact fun h => ⟨o, rfl, h⟩

theorem unresolved_misses {s : StageState} {ref : Nat} {action : OutcomeAction} :
    (unresolved recovery ref action s).Misses ↔ s.activeAttempt ≠ some ref ∧ recovery.saved = none := by
  unfold unresolved
  cases hsaved : recovery.saved with
  | some failure => simp [misses_error]
  | none => simp [misses_ok, StageState.setOutcome]

theorem execute_misses {script : Script} {recovered : Option Nat} {s : StageState}
    (hr : ∀ r ∈ recovered, s.outcomeOf r ≠ some .unknownStopped → s.activeAttempt = some r) :
    ¬ (execute definition waits script recovered s).Misses := by
  unfold execute
  split
  · split
    · exact misses_error
    · rintro ⟨o, ho, hne⟩
      exact hne ((loop_sound _ _ _ _ (by simp)).active o ho)
  · next ref =>
    rintro ⟨o, ho, hne⟩
    refine hne ((loop_sound _ _ _ _ ?_).active o ho)
    intro r hmem
    split at hmem
    · cases hmem
    · next hstopped =>
      cases hmem
      exact hr ref rfl hstopped

theorem execute_stopped_misses {script : Script} {ref : Nat} {s : StageState}
    (h : s.outcomeOf ref = some .unknownStopped) : ¬ (execute definition waits script (some ref) s).Misses := by
  apply execute_misses
  intro r hmem hne
  cases hmem
  exact absurd h hne

/-- The policy's own outcome is about the attempt it was given, and a rerun is about one of its own. -/
theorem recoverUnknownAttempt_misses {s : StageState} {ref : Nat} (href : ref < s.attempts.length) :
    (recoverUnknownAttempt definition waits policy recovery ref s).Misses ↔
      s.activeAttempt ≠ some ref ∧ Surrenders policy recovery s.unknownStateRecoveryCount := by
  unfold recoverUnknownAttempt Surrenders
  cases recovery.noted with
  | some failure => simp [misses_error]
  | none =>
    by_cases hpause : policy.action s.unknownStateRecoveryCount = .pause
    · simp [hpause, unresolved_misses]
    · simp only [hpause, if_false]
      cases hinterrupted : recovery.interrupted with
      | error failure => simp [misses_error]
      | ok stopped =>
        cases stopped with
        | false => simp [unresolved_misses, leaveActive_active, hpause]
        | true =>
          cases haction : policy.action s.unknownStateRecoveryCount with
          | pause => exact absurd haction hpause
          | stop => simp [misses_ok, StageState.setOutcome, leaveActive_active]
          | skip => simp [misses_ok, StageState.setOutcome, leaveActive_active]
          | rerun =>
            have hlength : ref < (StageState.leaveActive
                { s with unknownStateRecoveryCount := s.unknownStateRecoveryCount + 1 } recovery.acceptedOutcome).attempts.length := by
              rw [length_leaveActive]
              exact href
            simp [execute_stopped_misses (outcomeOf_setOutcome hlength .unknownStopped)]

/-- The retry loop of a recovered attempt fails on another attempt exactly when a turn fails after one was started. -/
theorem execute_loses {script : Script} {s : StageState} {ref : Nat} (href : ref < s.attempts.length)
    (hactive : s.activeAttempt = some ref) :
    ((execute definition waits script (some ref) s).answer = .error .handled ∧
      (execute definition waits script (some ref) s).state.activeAttempt ≠ some ref) ↔
    ∃ n, FailsInRetry definition waits (decide (s.outcomeOf ref ≠ some .unknownStopped)) (s.used definition.stageId)
      script.rounds n := by
  have hreused : (if s.outcomeOf ref = some .unknownStopped then none else some ref : Option Nat).isSome =
      decide (s.outcomeOf ref ≠ some .unknownStopped) := by
    by_cases h : s.outcomeOf ref = some .unknownStopped <;> simp [h]
  simp only [execute]
  rw [loop_loses _ _ _ s href, hreused]
  apply exists_congr
  intro n
  constructor
  · rintro ⟨hall, hraise, hlost⟩
    exact ⟨hall, hraise, hlost.resolve_left fun hne => hne hactive⟩
  · exact fun h => ⟨h.continues, h.raises, Or.inr h.binds⟩

/-- What `recover` returns misses the active attempt exactly when it loses a retry. -/
theorem recover_misses {s : StageState} :
    (∃ run, recover definition waits policy recovery s = some run ∧ run.Misses) ↔
      ∃ ref, LosesRetry definition waits policy recovery s ref := by
  unfold recover
  cases hactive : s.activeAttempt with
  | none =>
    constructor
    · rintro ⟨run, hrun, _⟩
      cases hrun
    · rintro ⟨ref, h⟩
      have := h.active
      rw [hactive] at this
      cases this
  | some attempt =>
    have href := s.made attempt hactive
    have hone : ∀ ref, LosesRetry definition waits policy recovery s ref → ref = attempt := fun ref h =>
      (Option.some.inj (hactive.symm.trans h.active)).symm
    by_cases hcursor : atCursor definition s attempt = false
    · simp only [hcursor, if_true]
      constructor
      · rintro ⟨run, hrun, hmiss⟩
        cases hrun
        exact absurd hmiss misses_error
      · rintro ⟨ref, h⟩
        rw [hone ref h] at h
        rw [h.cursor] at hcursor
        cases hcursor
    · simp only [if_neg hcursor]
      cases hcontext : recovery.context with
      | some failure =>
        constructor
        · rintro ⟨run, hrun, hmiss⟩
          cases hrun
          exact absurd hmiss misses_error
        · rintro ⟨ref, h⟩
          have := h.context
          rw [hcontext] at this
          cases this
      | none =>
        have hsame : ∀ ref, recovery.reconnected ≠ none → ¬ LosesRetry definition waits policy recovery s ref :=
          fun ref hne h => hne h.reconnected
        cases hreconnected : recovery.reconnected with
        | some failure =>
          have hnone : ¬ ∃ ref, LosesRetry definition waits policy recovery s ref := by
            rintro ⟨ref, h⟩
            exact hsame ref (by simp [hreconnected]) h
          simp only [hnone, iff_false]
          rintro ⟨run, hrun, hmiss⟩
          cases failure with
          | other =>
            cases hrun
            exact misses_error hmiss
          | handled =>
            cases hrun
            exact ((recoverUnknownAttempt_misses href).mp hmiss).1 hactive
        | none =>
          have hloses := @execute_loses definition waits recovery.script s attempt href hactive
          have hmisses := @execute_misses definition waits recovery.script (some attempt) s
            (fun r hr _ => by cases hr; exact hactive)
          have hkeeps : (execute definition waits recovery.script (some attempt) s).state.unknownStateRecoveryCount =
              s.unknownStateRecoveryCount ∧
              s.attempts.length ≤ (execute definition waits recovery.script (some attempt) s).state.attempts.length :=
            loop_keeps _ _ _ s
          generalize execute definition waits recovery.script (some attempt) s = run at hloses hmisses hkeeps
          have hback : (∃ ref, LosesRetry definition waits policy recovery s ref) ↔
              (run.answer = .error .handled ∧ run.state.activeAttempt ≠ some attempt) ∧
                Surrenders policy recovery s.unknownStateRecoveryCount := by
            rw [hloses]
            constructor
            · rintro ⟨ref, h⟩
              rw [hone ref h] at h
              exact ⟨h.fails, h.surrenders⟩
            · rintro ⟨hfails, hsurrenders⟩
              exact ⟨attempt, hactive, by simpa using hcursor, hcontext, hreconnected, hfails, hsurrenders⟩
          have hunknown := @recoverUnknownAttempt_misses definition waits policy recovery run.state attempt
            (Nat.lt_of_lt_of_le href hkeeps.2)
          rw [hback]
          rw [hkeeps.1] at hunknown
          dsimp only
          split
          · next herror =>
            constructor
            · rintro ⟨result, hresult, hmiss⟩
              cases hresult
              obtain ⟨hne, hsurrenders⟩ := hunknown.mp hmiss
              exact ⟨⟨herror, hne⟩, hsurrenders⟩
            · rintro ⟨⟨_, hne⟩, hsurrenders⟩
              exact ⟨_, rfl, hunknown.mpr ⟨hne, hsurrenders⟩⟩
          · next hother =>
            constructor
            · rintro ⟨result, hresult, hmiss⟩
              cases hresult
              exact absurd hmiss hmisses
            · rintro ⟨⟨herror, _⟩, _⟩
              exact absurd herror hother

end

end ModularPipelines.Stages
