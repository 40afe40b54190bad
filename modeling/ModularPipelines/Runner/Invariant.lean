import ModularPipelines.Runner.Issued
import ModularPipelines.Runner.Machine
import ModularPipelines.Runner.ReloadSound

namespace ModularPipelines.Runner
open Library Services

/-- No attempt, no deferred decision and no unfinished reload. -/
structure Quiet (s : RunnerState) : Prop where
  noAttempt : s.activeAttempt = none
  noPending : s.pendingDagDecision = none
  noRebuild : s.pendingRebuild = none

/-- A scheduler that owns a visit. -/
structure Busy (a : ActiveRunner) : Prop where
  idle : a.idle = false
  noRebuild : a.state.pendingRebuild = none

structure Visiting (a : ActiveRunner) : Prop extends Busy a where
  noPending : a.state.pendingDagDecision = none
  noDecision : a.state.lastDagDecision = none

/-- A step that waits for its visit has already ended a conditional pause. -/
def StepSound (a : ActiveRunner) : Prop := a.state.conditionalPause = true → a.stepFuture = false

def AttemptSound (s : RunnerState) : Prop :=
  ∀ attempt, s.activeAttempt = some attempt → s.current.map StageDefinition.stageId = some attempt.stageId

def TargetSound (s : RunnerState) (response : StageResult) : Prop :=
  ∀ target, response.dagDecision = some (some (.move target)) → target ∈ s.template.stageIds

structure ProtectedSound (a : ActiveRunner) (saved : RunnerState) : Prop where
  saveable : Saveable saved
  quiet : Quiet saved
  step : saved.conditionalPause = true → a.stepFuture = false
  rebuild : a.state.pendingRebuild ≠ none

def ProgressSound (a : ActiveRunner) : ReloadProgress → Prop
  | .begun => a.state.pendingRebuild = none
  | .planned plan => a.state.pendingRebuild = none ∧ PlanSound a.state plan
  | .protecting plan saved => PlanSound a.state plan ∧ ProtectedSound a saved
  | .published _ saved => ProtectedSound a saved

/-- What the scheduler relies on at each of its suspension points. -/
def PointSound (a : ActiveRunner) : Point → Prop
  | .waiting => Quiet a.state ∧ StepSound a
  | .started _ => Visiting a
  | .visiting => Visiting a ∧ AttemptSound a.state
  | .accepted response | .retrying _ response => Visiting a ∧ AttemptSound a.state ∧ TargetSound a.state response
  | .finished o => Visiting a ∧ OutcomeSound a.state o
  | .deciding _ requested => Busy a ∧ a.state.activeAttempt = none ∧
      (requested = false → a.state.pendingDagDecision = none)
  | .settling _ final => Busy a ∧ a.state.activeAttempt = none ∧ a.state.pendingDagDecision = none ∧
      (final = true → a.state.conditionalPause = false)
  | .reloading progress => a.state.activeAttempt = none ∧ a.state.pendingDagDecision = none ∧ StepSound a ∧
      ProgressSound a progress
  | .ended => True

/-- The invariant of every run. -/
structure Sound (m : Machine) : Prop where
  saveable : Saveable m.runner.state
  pause : m.point ≠ .ended → PauseSound m.runner
  snapshot : m.snapshotting = true → m.runner.maintenance = true ∧ m.runner.state.pendingRebuild = none
  reload : ∀ progress, m.point = .reloading progress → m.snapshotting = false ∧ m.runner.maintenance = true
  point : PointSound m.runner m.point

/-- Two runners that no suspension point tells apart. -/
structure SamePoint (a b : ActiveRunner) : Prop where
  idle : b.idle = a.idle
  stepFuture : b.stepFuture = a.stepFuture
  template : b.state.template = a.state.template
  stagePosition : b.state.stagePosition = a.state.stagePosition
  activeAttempt : b.state.activeAttempt = a.state.activeAttempt
  lastDagDecision : b.state.lastDagDecision = a.state.lastDagDecision
  pendingDagDecision : b.state.pendingDagDecision = a.state.pendingDagDecision
  pendingRebuild : b.state.pendingRebuild = a.state.pendingRebuild

namespace SamePoint

variable {a b : ActiveRunner}

theorem conditionalPause (h : SamePoint a b) : b.state.conditionalPause = a.state.conditionalPause := by
  rw [RunnerState.conditionalPause, RunnerState.conditionalPause, h.lastDagDecision]

theorem current (h : SamePoint a b) : b.state.current = a.state.current :=
  current_congr h.template h.stagePosition

theorem busy (h : SamePoint a b) (hb : Busy a) : Busy b :=
  ⟨h.idle.trans hb.idle, h.pendingRebuild.trans hb.noRebuild⟩

theorem visiting (h : SamePoint a b) (hv : Visiting a) : Visiting b :=
  ⟨h.busy hv.toBusy, h.pendingDagDecision.trans hv.noPending, h.lastDagDecision.trans hv.noDecision⟩

theorem quiet (h : SamePoint a b) (hq : Quiet a.state) : Quiet b.state :=
  ⟨h.activeAttempt.trans hq.noAttempt, h.pendingDagDecision.trans hq.noPending, h.pendingRebuild.trans hq.noRebuild⟩

theorem step (h : SamePoint a b) (hs : StepSound a) : StepSound b := by
  intro hp
  rw [h.stepFuture]
  exact hs (h.conditionalPause ▸ hp)

theorem attempt (h : SamePoint a b) (hs : AttemptSound a.state) : AttemptSound b.state := by
  intro attempt hattempt
  rw [h.current]
  exact hs attempt (h.activeAttempt ▸ hattempt)

theorem plan (h : SamePoint a b) {plan : ReloadPlan} (hp : PlanSound a.state plan) : PlanSound b.state plan :=
  ⟨h.template ▸ hp.cycles, hp.position, hp.preserved⟩

theorem guarded (h : SamePoint a b) {saved : RunnerState} (hp : ProtectedSound a saved) : ProtectedSound b saved :=
  ⟨hp.saveable, hp.quiet, fun hc => h.stepFuture.trans (hp.step hc), h.pendingRebuild ▸ hp.rebuild⟩

theorem progress (h : SamePoint a b) {progress : ReloadProgress} (hp : ProgressSound a progress) :
    ProgressSound b progress := by
  cases progress with
  | begun => exact h.pendingRebuild.trans hp
  | planned plan => exact ⟨h.pendingRebuild.trans hp.1, h.plan hp.2⟩
  | protecting plan saved => exact ⟨h.plan hp.1, h.guarded hp.2⟩
  | published plan saved => exact h.guarded hp

theorem point (h : SamePoint a b) {p : Point} (hp : PointSound a p) : PointSound b p := by
  cases p with
  | waiting => exact ⟨h.quiet hp.1, h.step hp.2⟩
  | started manual => exact h.visiting hp
  | visiting => exact ⟨h.visiting hp.1, h.attempt hp.2⟩
  | accepted response => exact ⟨h.visiting hp.1, h.attempt hp.2.1, fun t ht => h.template ▸ hp.2.2 t ht⟩
  | retrying used response => exact ⟨h.visiting hp.1, h.attempt hp.2.1, fun t ht => h.template ▸ hp.2.2 t ht⟩
  | finished o =>
    exact ⟨h.visiting hp.1, by rw [h.current]; exact hp.2.current, by rw [h.template]; exact hp.2.target⟩
  | deciding o requested =>
    exact ⟨h.busy hp.1, h.activeAttempt.trans hp.2.1, fun hr => h.pendingDagDecision.trans (hp.2.2 hr)⟩
  | settling o final =>
    exact ⟨h.busy hp.1, h.activeAttempt.trans hp.2.1, h.pendingDagDecision.trans hp.2.2.1,
      fun hf => h.conditionalPause.trans (hp.2.2.2 hf)⟩
  | reloading progress =>
    exact ⟨h.activeAttempt.trans hp.1, h.pendingDagDecision.trans hp.2.1, h.step hp.2.2.1, h.progress hp.2.2.2⟩
  | ended => trivial

end SamePoint

theorem conditionalPause_none {s : RunnerState} (h : s.lastDagDecision = none) : s.conditionalPause = false := by
  rw [RunnerState.conditionalPause, h]
  rfl

theorem stepSound_of_none {a : ActiveRunner} (h : a.state.lastDagDecision = none) : StepSound a := by
  intro hp
  rw [conditionalPause_none h] at hp
  cases hp

/-- The end of a conditional pause; a step may start with it unless a reload is published. -/
structure Cleared (a b : ActiveRunner) : Prop where
  idle : b.idle = a.idle
  template : b.state.template = a.state.template
  stagePosition : b.state.stagePosition = a.state.stagePosition
  activeAttempt : b.state.activeAttempt = a.state.activeAttempt
  decision : b.state.lastDagDecision = none ∨
    (a.state.conditionalPause = false ∧ b.state.lastDagDecision = a.state.lastDagDecision)
  pendingDagDecision : b.state.pendingDagDecision = a.state.pendingDagDecision
  pendingRebuild : b.state.pendingRebuild = a.state.pendingRebuild
  step : b.stepFuture = a.stepFuture ∨ a.state.pendingRebuild = none

namespace Cleared

variable {a b : ActiveRunner}

theorem noPause (h : Cleared a b) : b.state.conditionalPause = false := by
  obtain hd | ⟨hc, hd⟩ := h.decision
  · rw [RunnerState.conditionalPause, hd]
    rfl
  · rw [RunnerState.conditionalPause, hd]
    exact hc

theorem busy (h : Cleared a b) (hb : Busy a) : Busy b :=
  ⟨h.idle.trans hb.idle, h.pendingRebuild.trans hb.noRebuild⟩

theorem visiting (h : Cleared a b) (hv : Visiting a) : Visiting b := by
  refine ⟨h.busy hv.toBusy, h.pendingDagDecision.trans hv.noPending, ?_⟩
  obtain hd | ⟨-, hd⟩ := h.decision
  · exact hd
  · exact hd.trans hv.noDecision

theorem attempt (h : Cleared a b) (hs : AttemptSound a.state) : AttemptSound b.state := by
  intro attempt hattempt
  rw [current_congr h.template h.stagePosition]
  exact hs attempt (h.activeAttempt ▸ hattempt)

theorem guarded (h : Cleared a b) {saved : RunnerState} (hp : ProtectedSound a saved) : ProtectedSound b saved := by
  refine ⟨hp.saveable, hp.quiet, ?_, h.pendingRebuild ▸ hp.rebuild⟩
  intro hc
  obtain hs | hr := h.step
  · exact hs.trans (hp.step hc)
  · exact absurd hr hp.rebuild

theorem plan (h : Cleared a b) {plan : ReloadPlan} (hp : PlanSound a.state plan) : PlanSound b.state plan :=
  ⟨h.template ▸ hp.cycles, hp.position, hp.preserved⟩

theorem progress (h : Cleared a b) {progress : ReloadProgress} (hp : ProgressSound a progress) :
    ProgressSound b progress := by
  cases progress with
  | begun => exact h.pendingRebuild.trans hp
  | planned plan => exact ⟨h.pendingRebuild.trans hp.1, h.plan hp.2⟩
  | protecting plan saved => exact ⟨h.plan hp.1, h.guarded hp.2⟩
  | published plan saved => exact h.guarded hp

theorem point (h : Cleared a b) {p : Point} (hp : PointSound a p) : PointSound b p := by
  have hcur := current_congr h.template h.stagePosition
  have hstep : StepSound b := fun hp => absurd (h.noPause.symm.trans hp) (by simp)
  cases p with
  | waiting =>
    exact ⟨⟨h.activeAttempt.trans hp.1.noAttempt, h.pendingDagDecision.trans hp.1.noPending,
      h.pendingRebuild.trans hp.1.noRebuild⟩, hstep⟩
  | started manual => exact h.visiting hp
  | visiting => exact ⟨h.visiting hp.1, h.attempt hp.2⟩
  | accepted response => exact ⟨h.visiting hp.1, h.attempt hp.2.1, fun t ht => h.template ▸ hp.2.2 t ht⟩
  | retrying used response => exact ⟨h.visiting hp.1, h.attempt hp.2.1, fun t ht => h.template ▸ hp.2.2 t ht⟩
  | finished o => exact ⟨h.visiting hp.1, by rw [hcur]; exact hp.2.current, by rw [h.template]; exact hp.2.target⟩
  | deciding o requested =>
    exact ⟨h.busy hp.1, h.activeAttempt.trans hp.2.1, fun hr => h.pendingDagDecision.trans (hp.2.2 hr)⟩
  | settling o final =>
    exact ⟨h.busy hp.1, h.activeAttempt.trans hp.2.1, h.pendingDagDecision.trans hp.2.2.1,
      fun _ => h.noPause⟩
  | reloading progress =>
    exact ⟨h.activeAttempt.trans hp.1, h.pendingDagDecision.trans hp.2.1, hstep, h.progress hp.2.2.2⟩
  | ended => trivial

end Cleared

/-- An idle runner is at rest, in a reload or at its end. -/
theorem point_of_idle {a : ActiveRunner} {p : Point} (hp : PointSound a p) (hidle : a.idle = true) :
    p = .waiting ∨ p = .ended ∨ ∃ progress, p = .reloading progress := by
  have hbusy : Busy a → False := fun h => absurd (h.idle.symm.trans hidle) (by simp)
  cases p with
  | waiting => exact .inl rfl
  | ended => exact .inr (.inl rfl)
  | reloading progress => exact .inr (.inr ⟨progress, rfl⟩)
  | started manual => exact (hbusy hp.toBusy).elim
  | visiting => exact (hbusy hp.1.toBusy).elim
  | accepted response => exact (hbusy hp.1.toBusy).elim
  | retrying used response => exact (hbusy hp.1.toBusy).elim
  | finished o => exact (hbusy hp.1.toBusy).elim
  | deciding o requested => exact (hbusy hp.1).elim
  | settling o final => exact (hbusy hp.1).elim

theorem clearPauseDecision_last (s : RunnerState) :
    s.clearPauseDecision.lastDagDecision = none ∨
      (s.conditionalPause = false ∧ s.clearPauseDecision.lastDagDecision = s.lastDagDecision) := by
  cases hc : s.conditionalPause with
  | true => exact .inl (by simp [RunnerState.clearPauseDecision, hc])
  | false => exact .inr ⟨rfl, by simp [RunnerState.clearPauseDecision, hc]⟩

theorem clearPauseDecision_saveable {s : RunnerState} (h : Saveable s) : Saveable s.clearPauseDecision := by
  obtain hnone | ⟨-, hsame⟩ := clearPauseDecision_last s
  · have hsaved : SameSaved { s with lastDagDecision := none } s.clearPauseDecision :=
      ⟨rfl, rfl, rfl, rfl, rfl, rfl, hnone, rfl, rfl, rfl, rfl, rfl, rfl, rfl⟩
    exact hsaved.saveable h.noDecision
  · have hsaved : SameSaved s s.clearPauseDecision :=
      ⟨rfl, rfl, rfl, rfl, rfl, rfl, hsame, rfl, rfl, rfl, rfl, rfl, rfl, rfl⟩
    exact hsaved.saveable h

/-- A cursor that moves by command leaves no decision and no transfer. -/
structure Relocated (a b : ActiveRunner) : Prop where
  saveable : Saveable b.state
  stepFuture : b.stepFuture = a.stepFuture
  template : b.state.template = a.state.template
  activeAttempt : b.state.activeAttempt = a.state.activeAttempt
  noDecision : b.state.lastDagDecision = none
  noPending : b.state.pendingDagDecision = none
  pendingRebuild : b.state.pendingRebuild = a.state.pendingRebuild

theorem dropStaleResult_frame (s : RunnerState) :
    (dropStaleResult s).template = s.template ∧ (dropStaleResult s).activeAttempt = s.activeAttempt ∧
      (dropStaleResult s).lastDagDecision = s.lastDagDecision ∧
      (dropStaleResult s).pendingDagDecision = s.pendingDagDecision ∧
      (dropStaleResult s).pendingRebuild = s.pendingRebuild := by
  unfold dropStaleResult
  split <;> exact ⟨rfl, rfl, rfl, rfl, rfl⟩

theorem moveCursor_relocated {a : ActiveRunner} (h : Saveable a.state) {position : Nat} (hpos : 1 ≤ position)
    (hlen : position ≤ a.state.template.stages.length) : Relocated a (moveCursor a position) := by
  obtain ⟨ht, ha, hd, hp, hr⟩ := dropStaleResult_frame (a.state.relocate position)
  exact ⟨(h.relocate hpos hlen).dropStaleResult rfl, rfl, ht, ha, hd, hp, hr⟩

theorem Relocated.point {a b : ActiveRunner} (h : Relocated a b) {p : Point} (hp : PointSound a p)
    (hidle : a.idle = true) : PointSound b p := by
  have hstep := stepSound_of_none h.noDecision
  have hplan : ∀ plan, PlanSound a.state plan → PlanSound b.state plan :=
    fun plan hs => ⟨h.template ▸ hs.cycles, hs.position, hs.preserved⟩
  have hguard : ∀ saved, ProtectedSound a saved → ProtectedSound b saved :=
    fun saved hs => ⟨hs.saveable, hs.quiet, fun hc => h.stepFuture.trans (hs.step hc), h.pendingRebuild ▸ hs.rebuild⟩
  obtain rfl | rfl | ⟨progress, rfl⟩ := point_of_idle hp hidle
  · exact ⟨⟨h.activeAttempt.trans hp.1.noAttempt, h.noPending, h.pendingRebuild.trans hp.1.noRebuild⟩, hstep⟩
  · trivial
  · refine ⟨h.activeAttempt.trans hp.1, h.noPending, hstep, ?_⟩
    have hprog := hp.2.2.2
    cases progress with
    | begun => exact h.pendingRebuild.trans hprog
    | planned plan => exact ⟨h.pendingRebuild.trans hprog.1, hplan plan hprog.2⟩
    | protecting plan saved => exact ⟨hplan plan hprog.1, hguard saved hprog.2⟩
    | published plan saved => exact hguard saved hprog

theorem updateJournalPause_same (a : ActiveRunner) : SamePoint a (updateJournalPause a) := by
  obtain h | ⟨reason, h⟩ | h := updateJournalPause_cases a <;> rw [h] <;> constructor <;> rfl

theorem updateJournalPause_saved (a : ActiveRunner) : SameSaved a.state (updateJournalPause a).state := by
  obtain h | ⟨reason, h⟩ | h := updateJournalPause_cases a <;> rw [h] <;> constructor <;> rfl

theorem updateJournalPause_maintenance (a : ActiveRunner) : (updateJournalPause a).maintenance = a.maintenance := by
  obtain h | ⟨reason, h⟩ | h := updateJournalPause_cases a <;> rw [h] <;> rfl

theorem updateJournalPause_pause {a : ActiveRunner} (h : PauseSound a) : PauseSound (updateJournalPause a) := by
  intro hp
  obtain ⟨hmode, hdesired⟩ := h ((updateJournalPause_same a).conditionalPause ▸ hp)
  obtain hu | ⟨reason, hu⟩ | hu := updateJournalPause_cases a <;> rw [hu]
  · exact ⟨hmode, hdesired⟩
  · exact ⟨rfl, hdesired⟩
  · exact ⟨hdesired, hdesired⟩

namespace Sound

variable {m : Machine}

/-- A runner that no suspension point tells apart keeps the invariant. -/
theorem frame {b : ActiveRunner} (h : Sound m) (hsave : Saveable b.state) (hsame : SamePoint m.runner b)
    (hmaintenance : b.maintenance = m.runner.maintenance) (hpause : PauseSound m.runner → PauseSound b) :
    Sound { m with runner := b } := by
  refine ⟨hsave, fun hp => hpause (h.pause hp), ?_, ?_, hsame.point h.point⟩
  · intro hs
    obtain ⟨hm, hr⟩ := h.snapshot hs
    exact ⟨hmaintenance.trans hm, hsame.pendingRebuild.trans hr⟩
  · intro progress hp
    obtain ⟨hs, hm⟩ := h.reload progress hp
    exact ⟨hs, hmaintenance.trans hm⟩

theorem cleared {b : ActiveRunner} (h : Sound m) (hsave : Saveable b.state) (hc : Cleared m.runner b)
    (hmaintenance : b.maintenance = m.runner.maintenance) : Sound { m with runner := b } := by
  refine ⟨hsave, fun _ hp => absurd (hc.noPause.symm.trans hp) (by simp), ?_, ?_, hc.point h.point⟩
  · intro hs
    obtain ⟨hm, hr⟩ := h.snapshot hs
    exact ⟨hmaintenance.trans hm, hc.pendingRebuild.trans hr⟩
  · intro progress hp
    obtain ⟨hs, hm⟩ := h.reload progress hp
    exact ⟨hs, hmaintenance.trans hm⟩

theorem clearPause_cleared {a b : ActiveRunner} (hidle : b.idle = a.idle)
    (hstate : SameSaved a.state.clearPauseDecision b.state)
    (hstep : b.stepFuture = a.stepFuture ∨ a.state.pendingRebuild = none) : Cleared a b := by
  refine ⟨hidle, hstate.template, hstate.stagePosition, hstate.activeAttempt, ?_, hstate.pendingDagDecision,
    hstate.pendingRebuild, hstep⟩
  rw [hstate.lastDagDecision]
  exact clearPauseDecision_last a.state

/-- Every control command keeps the invariant. -/
theorem issued {b : ActiveRunner} (h : Sound m) {c : Command} (hi : Issued m.runner c b) :
    Sound { m with runner := b, snapshotting := m.snapshotting || (!m.runner.maintenance && b.maintenance) } := by
  have hflag : ∀ {c : ActiveRunner}, c.maintenance = m.runner.maintenance → Sound { m with runner := c } →
      Sound { m with runner := c, snapshotting := m.snapshotting || (!m.runner.maintenance && c.maintenance) } := by
    intro c hc hs
    rw [hc, Bool.not_and_self, Bool.or_false]
    exact hs
  cases hi with
  | same => exact hflag rfl h
  | marked hc hidle =>
    exact hflag rfl (h.frame (h.saveable) (by constructor <;> rfl) rfl id)
  | stepped hidle hrebuild =>
    exact hflag rfl (h.cleared (clearPauseDecision_saveable h.saveable)
      (clearPause_cleared rfl (by constructor <;> rfl) (.inr hrebuild)) rfl)
  | rerun hc hidle hrebuild =>
    exact hflag rfl (h.cleared (clearPauseDecision_saveable h.saveable)
      (clearPause_cleared rfl (by constructor <;> rfl) (.inr hrebuild)) rfl)
  | observed =>
    exact hflag (updateJournalPause_maintenance _) (h.frame ((updateJournalPause_saved _).saveable h.saveable)
      (updateJournalPause_same _) (updateJournalPause_maintenance _) updateJournalPause_pause)
  | resumed =>
    have hobs := h.frame ((updateJournalPause_saved _).saveable h.saveable) (updateJournalPause_same _)
      (updateJournalPause_maintenance _) updateJournalPause_pause
    have hcl : Cleared (updateJournalPause m.runner) (beginResume (updateJournalPause m.runner)) :=
      clearPause_cleared rfl (by constructor <;> rfl) (.inl rfl)
    have hsave : Saveable (beginResume (updateJournalPause m.runner)).state :=
      SameSaved.saveable (by constructor <;> rfl) (clearPauseDecision_saveable hobs.saveable)
    exact hflag (updateJournalPause_maintenance _) (hobs.cleared hsave hcl rfl)
  | moved hc hidle hpos hlen =>
    have hr := moveCursor_relocated h.saveable hpos hlen
    refine hflag rfl ⟨hr.saveable, fun _ => pauseSound_of_none hr.noDecision, ?_, h.reload, hr.point h.point hidle⟩
    intro hs
    exact ⟨(h.snapshot hs).1, hr.pendingRebuild.trans (h.snapshot hs).2⟩
  | retries hc counts =>
    exact hflag rfl (h.frame (SameSaved.saveable (by constructor <;> rfl) h.saveable) (by constructor <;> rfl) rfl id)
  | services retrying services =>
    exact hflag rfl (h.frame (SameSaved.saveable (by constructor <;> rfl) h.saveable) (by constructor <;> rfl) rfl id)
  | snapshot hidle hmaintenance hrebuild =>
    have hsame : SamePoint m.runner (beginSnapshot m.runner) := by constructor <;> rfl
    refine ⟨SameSaved.saveable (by constructor <;> rfl) h.saveable, fun hp => h.pause hp, fun _ => ⟨rfl, hrebuild⟩,
      ?_, hsame.point h.point⟩
    intro progress hp
    exact absurd ((h.reload progress hp).2.symm.trans hmaintenance) (by simp)

end Sound

end ModularPipelines.Runner
