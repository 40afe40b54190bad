import ModularPipelines.Runner.Control

namespace ModularPipelines.Runner
open Library Services

/-- What the scheduler reads of the selected experiment. -/
structure Cursor where
  experimentId : String
  template : ExperimentTemplate
  mode : Mode
  cycleNumber : Nat
  stagePosition : Nat
  pendingInput : Option PendingInput
  lastDagDecision : Option LastDecision
  pendingDagDecision : Option LastDecision
  lastResult : Json
  lastResultId : Option String
  stageResultIds : Dict String
  stageResultOrigins : Dict String
  deriving DecidableEq

structure Scheduling where
  pendingAdvance : Bool
  manual : Bool
  stepFuture : Bool
  cursor : Option Cursor
  deriving DecidableEq

def RunnerState.cursor (s : RunnerState) : Cursor :=
  ⟨s.experimentId, s.template, s.mode, s.cycleNumber, s.stagePosition, s.pendingInput, s.lastDagDecision,
    s.pendingDagDecision, s.lastResult, s.lastResultId, s.stageResultIds, s.stageResultOrigins⟩

def ExperimentRunner.scheduling (r : ExperimentRunner) : Scheduling :=
  ⟨r.pendingAdvance, r.manual, r.stepFuture, r.state.map RunnerState.cursor⟩

/-- A stage execution as its `execute` call starts it. -/
structure Visit where
  cycleNumber : Nat
  stageId : Option String
  input : Except RunnerError Json
  manual : Bool

def visitOf (journal : ResultTable) (launched : ActiveRunner × Bool) : Visit :=
  let s := launched.1.state
  ⟨s.cycleNumber, s.current.map StageDefinition.stageId, selectInput journal s, launched.2⟩

/-- The visit that the next launch starts. -/
def nextVisit (journal : ResultTable) (r : ExperimentRunner) : Option Visit :=
  r.select.map (fun a => visitOf journal (launchNextStage a))

/-- The part of a cursor that fixes a visit. -/
structure SameCursor (s t : RunnerState) : Prop where
  experimentId : s.experimentId = t.experimentId
  template : s.template = t.template
  cycleNumber : s.cycleNumber = t.cycleNumber
  stagePosition : s.stagePosition = t.stagePosition
  pendingInput : s.pendingInput = t.pendingInput
  stageResultIds : s.stageResultIds = t.stageResultIds
  stageResultOrigins : s.stageResultOrigins = t.stageResultOrigins

theorem sameCursor_of_cursor {s t : RunnerState} (h : s.cursor = t.cursor) : SameCursor s t := by
  simp only [RunnerState.cursor, Cursor.mk.injEq] at h
  obtain ⟨he, ht, _, hc, hp, hi, _, _, _, _, hr, ho⟩ := h
  exact ⟨he, ht, hc, hp, hi, hr, ho⟩

theorem SameCursor.advanceCursor {s t : RunnerState} (h : SameCursor s t) :
    SameCursor (advanceCursor s) (advanceCursor t) := by
  obtain ⟨he, ht, hc, hp, hi, hr, ho⟩ := h
  by_cases hend : t.stagePosition + 1 > t.template.stages.length
  · constructor <;> simp [Runner.advanceCursor, startCycle, RunnerState.clearLastResult, hp, ht, hend, he, hc]
  · constructor <;> simp [Runner.advanceCursor, hp, ht, hend, he, hc, hr, ho]

theorem SameCursor.current {s t : RunnerState} (h : SameCursor s t) : s.current = t.current := by
  simp [RunnerState.current, h.template, h.stagePosition]

theorem SameCursor.selectInput {s t : RunnerState} (h : SameCursor s t) (journal : ResultTable) :
    selectInput journal s = selectInput journal t := by
  simp [Runner.selectInput, readMoveInput, predecessorInput, h.pendingInput, h.stagePosition, h.template,
    h.current, h.stageResultIds, h.stageResultOrigins, h.experimentId]

theorem visitOf_launch {a b : ActiveRunner} (hp : a.pendingAdvance = b.pendingAdvance)
    (hm : a.manual = b.manual) (h : SameCursor a.state b.state) (journal : ResultTable) :
    visitOf journal (launchNextStage a) = visitOf journal (launchNextStage b) := by
  have hs : SameCursor (launchNextStage a).1.state (launchNextStage b).1.state := by
    cases hb : b.pendingAdvance with
    | true =>
      have hadv := h.advanceCursor
      obtain ⟨he, ht, hc, hp', hi, hr, ho⟩ := hadv
      constructor <;> simp [launchNextStage, *]
    | false =>
      obtain ⟨he, ht, hc, hp', hi, hr, ho⟩ := h
      constructor <;> simp [launchNextStage, *]
  have hmanual : (launchNextStage a).2 = (launchNextStage b).2 := hm
  rw [visitOf, visitOf, hs.cycleNumber, hs.current, hs.selectInput journal, hmanual]

/-- The next launch is fixed by the scheduling state. -/
theorem nextVisit_congr {r q : ExperimentRunner} (h : r.scheduling = q.scheduling) (journal : ResultTable) :
    nextVisit journal r = nextVisit journal q := by
  simp only [ExperimentRunner.scheduling, Scheduling.mk.injEq] at h
  obtain ⟨hp, hm, -, hc⟩ := h
  rw [nextVisit, nextVisit, ExperimentRunner.select, ExperimentRunner.select, Option.map_map, Option.map_map]
  cases hr : r.state with
  | none =>
    rw [hr] at hc
    rw [Option.map_eq_none_iff.mp hc.symm]
    rfl
  | some s =>
    rw [hr] at hc
    obtain ⟨t, ht, hst⟩ := Option.map_eq_some_iff.mp hc.symm
    rw [ht]
    exact congrArg some (visitOf_launch hp hm (sameCursor_of_cursor hst.symm) journal)

theorem requireActive_ok {r : ExperimentRunner} {a : ActiveRunner} :
    requireActive r = .ok a ↔
      r.select = some a ∧ a.state.pendingRebuild = none ∧ a.state.phase.terminal = false := by
  cases h : r.select with
  | none => simp [requireActive, h]
  | some b =>
    simp only [requireActive, h, rejectIf_then, pure_eq_ok, Except.ok.injEq, Option.some.injEq,
      Decidable.not_not, Bool.not_eq_true]
    constructor
    · intro ⟨hb, hp, rfl⟩
      exact ⟨rfl, hb, hp⟩
    · intro ⟨hb, hp, hq⟩
      subst hb
      exact ⟨hp, hq, rfl⟩

theorem requireActive_runner {r : ExperimentRunner} {a : ActiveRunner} (h : requireActive r = .ok a) :
    a.toRunner = r :=
  ExperimentRunner.toRunner_of_select (requireActive_ok.mp h).1

/-- A call that `admitIf` does not accept changes nothing. -/
theorem admit_unchanged {α : Type} {allowed : Except RunnerError α} {r : ExperimentRunner}
    {effect : α → ActiveRunner} (h : (admitIf allowed r effect).1 ≠ .accepted) :
    (admitIf allowed r effect).2 = r := by
  cases allowed with
  | error e => rfl
  | ok a => exact absurd rfl h

theorem admit_accepted {α : Type} (allowed : Except RunnerError α) (r : ExperimentRunner)
    (effect : α → ActiveRunner) : (admitIf allowed r effect).1 = .accepted ↔ ∃ a, allowed = .ok a := by
  cases allowed <;> simp [admitIf]

theorem step_unchanged {r : ExperimentRunner} (h : (step r).1 ≠ .accepted) : (step r).2 = r := by
  unfold step at h ⊢
  cases he : stepEntry r with
  | error e => rfl
  | ok u =>
    rw [he] at h
    cases hr : r.ready with
    | false => rfl
    | true =>
      simp only [hr, if_true] at h ⊢
      exact admit_unchanged h

theorem serviceControl_ok {r : ExperimentRunner} {position : Argument} {message : String} {a : ActiveRunner}
    {definition : ServiceDefinition} (h : serviceControl r position message = .ok (a, definition)) :
    a.toRunner = r ∧ a.serviceRetrying = false := by
  obtain ⟨b, hb, h⟩ := bind_ok.mp h
  obtain ⟨u, hu, h⟩ := bind_ok.mp h
  obtain ⟨d, hd, h⟩ := bind_ok.mp h
  obtain ⟨rfl, rfl⟩ := Prod.mk.inj (Except.ok.inj h)
  have hidle := rejectIf_ok.mp hu
  refine ⟨requireActive_runner hb, ?_⟩
  cases hr : b.serviceRetrying with
  | false => rfl
  | true => exact absurd (Or.inr (Or.inl hr)) hidle

theorem startService_unchanged {r : ExperimentRunner} {position : Argument}
    (h : (startService r position).1 ≠ .accepted) : (startService r position).2 = r := by
  unfold startService at h ⊢
  split at h
  · rfl
  · rename_i a definition hok
    obtain ⟨hrunner, hretry⟩ := serviceControl_ok hok
    unfold beginServiceStart at h ⊢
    split at h
    · rw [← hrunner, ActiveRunner.toRunner, ActiveRunner.toRunner, ← hretry]
    · exact absurd rfl h

/-- A rerun or a resume can write before its last check; every other command checks first. -/
def Command.checksFirst : Command → Bool
  | .rerun _ | .resume | .resumeAfterReady => false
  | _ => true

theorem issue_unchanged {r : ExperimentRunner} {c : Command} (hc : c.checksFirst = true)
    (h : (issue r c).1 ≠ .accepted) : (issue r c).2 = r := by
  cases c with
  | rerun position => cases hc
  | resume => cases hc
  | resumeAfterReady => cases hc
  | step => exact step_unchanged h
  | move position => exact admit_unchanged h
  | resetRetries kind position => exact admit_unchanged h
  | startService position => exact startService_unchanged h
  | stopService position instanceId => exact admit_unchanged h
  | snapshot label => exact admit_unchanged h
  | stepAfterReady => exact admit_unchanged h

/-- A step that starts as soon as it is called. -/
def StepAdmitted (r : ExperimentRunner) : Prop :=
  stepEntry r = .ok () ∧ r.ready = true ∧ ∃ a, stepAllowed r = .ok a

theorem step_accepted {r : ExperimentRunner} : (step r).1 = .accepted ↔ StepAdmitted r := by
  unfold step StepAdmitted
  cases he : stepEntry r with
  | error e => simp
  | ok u =>
    cases hr : r.ready with
    | false => simp
    | true => simpa [stepReady] using admit_accepted (stepAllowed r) r beginStep

/-- The checks of a step read neither of the fields that a rerun writes. -/
theorem stepAdmitted_rerun (r : ExperimentRunner) (pendingAdvance manual : Bool) :
    StepAdmitted { r with pendingAdvance := pendingAdvance, manual := manual } ↔ StepAdmitted r := by
  have hallowed : ∀ q : ExperimentRunner, (∃ a, stepAllowed q = .ok a) ↔
      ∃ s, q.state = some s ∧ s.pendingRebuild = none ∧ s.phase.terminal = false ∧
        ¬ (s.mode ≠ .paused ∨ q.idle = false ∨ q.stepFuture = true ∨ q.serviceRetrying = true) ∧
        ¬ s.manuallyStopped = true ∧ ¬ s.servicesDeclared = false := by
    intro q
    constructor
    · intro ⟨a, ha⟩
      obtain ⟨b, hb, ha⟩ := bind_ok.mp ha
      obtain ⟨hsel, hrebuild, hphase⟩ := requireActive_ok.mp hb
      simp only [rejectIf_then] at ha
      obtain ⟨hmode, hstop, hdecl, -⟩ := ha
      obtain ⟨s, hs, rfl⟩ := Option.map_eq_some_iff.mp hsel
      exact ⟨s, hs, hrebuild, hphase, hmode, hstop, hdecl⟩
    · intro ⟨s, hs, hrebuild, hphase, hmode, hstop, hdecl⟩
      have hactive : requireActive q = .ok ⟨q.toRunnerFields, s⟩ :=
        requireActive_ok.mpr ⟨by simp [ExperimentRunner.select, hs], hrebuild, hphase⟩
      refine ⟨⟨q.toRunnerFields, s⟩, ?_⟩
      rw [stepAllowed, hactive, ok_bind]
      simp only [rejectIf_then]
      exact ⟨hmode, hstop, hdecl, rfl⟩
  have hentry : stepEntry { r with pendingAdvance := pendingAdvance, manual := manual } = stepEntry r := rfl
  rw [StepAdmitted, StepAdmitted, hallowed, hallowed, hentry]

/-- An observation of the journal that leaves the mode as it is. -/
def ModeKept (a : ActiveRunner) : Prop :=
  ∀ status, a.journal = some status →
    (status.pauseReason ≠ none → a.state.mode = .paused) ∧
    (status.pauseReason = none → a.journalPauseReason ≠ none → status.state = .ready →
      a.state.mode = a.desiredMode)

theorem updateJournalPause_cases (a : ActiveRunner) :
    updateJournalPause a = a ∨ (∃ reason, updateJournalPause a = pauseForJournal a reason) ∨
      updateJournalPause a = endJournalPause a := by
  unfold updateJournalPause
  split
  · exact .inl rfl
  · split
    · exact .inr (.inl ⟨_, rfl⟩)
    · split
      · exact .inr (.inr rfl)
      · exact .inl rfl

theorem updateJournalPause_mode (a : ActiveRunner) :
    (updateJournalPause a).state.mode = a.state.mode ↔ ModeKept a := by
  cases hj : a.journal with
  | none => simp [updateJournalPause, ModeKept, hj]
  | some status =>
    cases hreason : status.pauseReason with
    | some reason =>
      have hmode : (updateJournalPause a).state.mode = .paused := by
        simp [updateJournalPause, hj, hreason, pauseForJournal]
      rw [hmode]
      simp [ModeKept, hj, hreason, eq_comm]
    | none =>
      by_cases hback : a.journalPauseReason ≠ none ∧ status.state = .ready
      · have hmode : (updateJournalPause a).state.mode = a.desiredMode := by
          simp [updateJournalPause, hj, hreason, hback, endJournalPause]
        rw [hmode]
        simp [ModeKept, hj, hreason, hback, eq_comm]
      · have hkept : ModeKept a := by
          intro other hother
          obtain rfl := Option.some.inj (hj.symm.trans hother)
          exact ⟨fun hne => absurd hreason hne, fun _ hne hready => absurd ⟨hne, hready⟩ hback⟩
        simp [updateJournalPause, hj, hreason, if_neg hback, hkept]

/-- The observation writes nothing that the scheduler reads but the mode. -/
theorem updateJournalPause_scheduling (a : ActiveRunner) :
    (updateJournalPause a).toRunner.scheduling = a.toRunner.scheduling ↔ ModeKept a := by
  rw [← updateJournalPause_mode]
  obtain h | ⟨reason, h⟩ | h := updateJournalPause_cases a
  · rw [h]
    simp
  · rw [h]
    simp [ActiveRunner.toRunner, ExperimentRunner.scheduling, RunnerState.cursor, pauseForJournal]
  · rw [h]
    simp [ActiveRunner.toRunner, ExperimentRunner.scheduling, RunnerState.cursor, endJournalPause]

/-- A resume whose journal observation keeps the mode, or that is admitted after it. -/
def ResumeSettled (r : ExperimentRunner) : Prop :=
  ∀ a, requireActive r = .ok a → ModeKept a ∨ ∃ b, resumeAllowed (updateJournalPause a) = .ok b

/-- When the command leaves the scheduling state alone unless it is admitted. -/
def Settled (r : ExperimentRunner) : Command → Prop
  | .rerun position =>
    rerunAllowed r position = .ok () → StepAdmitted r ∨ (r.pendingAdvance = false ∧ r.manual = true)
  | .resume => resumeEntry r = .ok () → r.ready = true → ResumeSettled r
  | .resumeAfterReady => ResumeSettled r
  | _ => True

/-- A command that is not admitted has no effect on the scheduler. -/
def Atomic (r : ExperimentRunner) (c : Command) : Prop :=
  (issue r c).1 ≠ .accepted → (issue r c).2.scheduling = r.scheduling

theorem atomic_of_checksFirst {r : ExperimentRunner} {c : Command} (hc : c.checksFirst = true) :
    Atomic r c := by
  intro h
  rw [issue_unchanged hc h]

theorem atomic_rerun (r : ExperimentRunner) (position : Argument) :
    Atomic r (.rerun position) ↔ Settled r (.rerun position) := by
  show ((rerun r position).1 ≠ .accepted → (rerun r position).2.scheduling = r.scheduling) ↔
    (rerunAllowed r position = .ok () → StepAdmitted r ∨ (r.pendingAdvance = false ∧ r.manual = true))
  unfold rerun
  cases hr : rerunAllowed r position with
  | error e => simp
  | ok u =>
    have hstep := step_accepted.trans (stepAdmitted_rerun r false true)
    constructor
    · intro h hok
      by_cases hadmit : StepAdmitted r
      · exact .inl hadmit
      · right
        have hrej := mt hstep.mp hadmit
        have hsame := h hrej
        rw [step_unchanged hrej] at hsame
        simp only [ExperimentRunner.scheduling, Scheduling.mk.injEq] at hsame
        exact ⟨hsame.1.symm, hsame.2.1.symm⟩
    · intro h hrej
      obtain hadmit | ⟨hp, hm⟩ := h rfl
      · exact absurd (hstep.mpr hadmit) hrej
      · rw [step_unchanged hrej]
        simp [ExperimentRunner.scheduling, hp, hm]

theorem resumeReady_atomic (r : ExperimentRunner) :
    ((resumeReady r).1 ≠ .accepted → (resumeReady r).2.scheduling = r.scheduling) ↔ ResumeSettled r := by
  unfold resumeReady ResumeSettled
  cases hr : requireActive r with
  | error e => simp
  | ok a =>
    have hrunner := requireActive_runner hr
    have hsched := updateJournalPause_scheduling a
    rw [hrunner] at hsched
    constructor
    · intro h b hb
      obtain rfl := Except.ok.inj hb
      by_cases hadmit : ∃ d, resumeAllowed (updateJournalPause a) = .ok d
      · exact .inr hadmit
      · have hrej := mt (admit_accepted _ (updateJournalPause a).toRunner beginResume).mp hadmit
        have hsame := h hrej
        rw [admit_unchanged hrej] at hsame
        exact .inl (hsched.mp hsame)
    · intro h hrej
      obtain hkept | hadmit := h a rfl
      · rw [admit_unchanged hrej]
        exact hsched.mpr hkept
      · exact absurd ((admit_accepted _ _ _).mpr hadmit) hrej

theorem atomic_resume (r : ExperimentRunner) : Atomic r .resume ↔ Settled r .resume := by
  show ((resume r).1 ≠ .accepted → (resume r).2.scheduling = r.scheduling) ↔
    (resumeEntry r = .ok () → r.ready = true → ResumeSettled r)
  unfold resume
  cases he : resumeEntry r with
  | error e => simp
  | ok u =>
    cases hr : r.ready with
    | false => simp
    | true => simpa using resumeReady_atomic r

theorem atomic_iff (r : ExperimentRunner) (c : Command) : Atomic r c ↔ Settled r c := by
  cases c with
  | rerun position => exact atomic_rerun r position
  | resume => exact atomic_resume r
  | resumeAfterReady => exact resumeReady_atomic r
  | step | move position | resetRetries kind position | startService position
  | stopService position instanceId | snapshot label | stepAfterReady =>
    exact iff_of_true (atomic_of_checksFirst rfl) trivial

end ModularPipelines.Runner
