import ModularPipelines.Stages.Recovered

namespace ModularPipelines.Stages

open Library Runner

/-- A call of `execute` keeps its budget, starts nothing after a final outcome, advances exactly when it should and
returns the active attempt. -/
structure VisitSound (definition : StageDefinition) (script : Script) (s : StageState) (run : Run) : Prop where
  bounded : run.state.attempts.length ≤
    s.attempts.length + (definition.errors.retries - s.used definition.stageId) + 1
  final : run.events.Pairwise fun a b => a.final → ¬ b.isStart
  advance : ∀ o, run.answer = .ok o → ∃ outcome response,
    run.events.getLast? = some (.finished o.attempt outcome response) ∧ o.result = some response ∧
      AdvancesExactly definition (script.rounds run.turns) (run.state.used definition.stageId) outcome response o.action
  active : ∀ o, run.answer = .ok o → run.state.activeAttempt = some o.attempt

/-- The retry loop, and an outcome of `execute` or `recover` that is about the active attempt. -/
structure RetryLoopLaw (definition : StageDefinition) (waits : Bool) (policy : UnknownStatePolicy) (recovery : Recovery)
    (s : StageState) : Prop where
  execute : ∀ script recovered, (∀ ref ∈ recovered, s.activeAttempt = some ref) →
    VisitSound definition script s (execute definition waits script recovered s)
  recover : ∀ run, recover definition waits policy recovery s = some run → ∀ o, run.answer = .ok o →
    run.state.activeAttempt = some o.attempt

theorem LoopSound.visit {definition : StageDefinition} {script : Script} {recovered : Option Nat} {s : StageState}
    {run : Run} (h : LoopSound definition script.rounds recovered s run) : VisitSound definition script s run where
  bounded := by
    have hroom : room recovered ≤ 1 := by cases recovered <;> simp [room]
    have := h.bounded
    omega
  final := h.final
  advance := h.advance
  active := h.active

theorem execute_sound (definition : StageDefinition) (waits : Bool) (script : Script) (recovered : Option Nat)
    (s : StageState) (hr : ∀ ref ∈ recovered, s.activeAttempt = some ref) :
    VisitSound definition script s (execute definition waits script recovered s) := by
  unfold execute
  split
  · split
    · refine ⟨?_, List.Pairwise.nil, ?_, ?_⟩
      · dsimp only
        omega
      · intro o ho
        cases ho
      · intro o ho
        cases ho
    · exact (loop_sound _ _ none s (by simp)).visit
  · next ref =>
    apply LoopSound.visit
    apply loop_sound
    intro r hmem
    split at hmem
    · cases hmem
    · cases hmem
      exact hr ref rfl

theorem recover_active_iff {definition : StageDefinition} {waits : Bool} {policy : UnknownStatePolicy}
    {recovery : Recovery} {s : StageState} :
    (∀ run, recover definition waits policy recovery s = some run → ∀ o, run.answer = .ok o →
      run.state.activeAttempt = some o.attempt) ↔ ¬ ∃ ref, LosesRetry definition waits policy recovery s ref := by
  rw [← recover_misses]
  constructor
  · rintro h ⟨run, hrun, o, ho, hne⟩
    exact hne (h run hrun o ho)
  · intro h run hrun o ho
    by_contra hne
    exact h ⟨run, hrun, o, ho, hne⟩

/-- The law of the retry loop holds unless recovery fails on an attempt that its own loop has started and the
unknown-state policy then pauses, stops or skips. -/
theorem retry_loop_law (definition : StageDefinition) (waits : Bool) (policy : UnknownStatePolicy) (recovery : Recovery)
    (s : StageState) :
    RetryLoopLaw definition waits policy recovery s ↔ ¬ ∃ ref, LosesRetry definition waits policy recovery s ref := by
  constructor
  · exact fun h => recover_active_iff.mp h.recover
  · exact fun h => ⟨fun script recovered hr => execute_sound definition waits script recovered s hr,
      recover_active_iff.mpr h⟩

/-- A stage with one retry. -/
def probe : StageDefinition where
  stageId := "probe"
  serviceId := none
  errors := ⟨1, .stop⟩
  returnsData := none
  snapshotAfter := false
  body := .null

/-- The first attempt fails, and the connection to the second is lost. -/
def brokenRetry : Nat → Round
  | 0 => ⟨.bound, .answered .failed ⟨false, .null, none, none⟩, none, false, none, false, .ready, false, none⟩
  | _ => ⟨.bound, .raised none .handled, none, false, none, false, .ready, false, none⟩

def probeState : StageState where
  attempts := [⟨"probe", "visit", 1, 1, none⟩]
  activeAttempt := some 0
  cycleNumber := 1
  retryCounts := .empty
  attemptNumbers := .empty
  unknownStateRecoveryCount := 0
  made := by decide

def pausing : UnknownStatePolicy := ⟨.pause, 3, .stop, Or.inl rfl⟩

def probeRecovery : Recovery where
  context := none
  reconnected := none
  script := ⟨none, "visit", brokenRetry⟩
  noted := none
  acceptedOutcome := none
  interrupted := .ok true
  saved := none
  rerun := ⟨none, "visit", brokenRetry⟩

theorem probe_loses_retry : ¬ RetryLoopLaw probe false pausing probeRecovery probeState := by
  intro h
  apply recover_active_iff.mp h.recover
  refine ⟨0, rfl, by decide, rfl, rfl, ⟨1, ?_, rfl, 1, Nat.le_refl 1, rfl, ?_⟩, rfl, Or.inl ⟨rfl, rfl⟩⟩
  · intro i hi
    have hzero : i = 0 := by omega
    subst hzero
    refine ⟨?_, .failed, ⟨false, .null, none, none⟩, rfl, rfl, by decide, rfl⟩
    intro hstart
    exact absurd hstart (by decide)
  · intro failure hf
    cases hf

end ModularPipelines.Stages
