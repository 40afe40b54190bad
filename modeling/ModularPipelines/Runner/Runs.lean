import ModularPipelines.Runner.Invariant

namespace ModularPipelines.Runner
open Library Services

theorem toOption_some {ε α : Type} {x : Except ε α} {a : α} : x.toOption = some a ↔ x = .ok a := by
  cases x <;> simp [Except.toOption]

theorem useRequests_saveable {s : RunnerState} (h : Saveable s) (ids : List String) :
    ∃ used, used.Nodup ∧ ids.foldl RunnerState.useRequest s = { s with usedRequestIds := used } := by
  induction ids generalizing s with
  | nil => exact ⟨s.usedRequestIds, h.used, rfl⟩
  | cons id rest ih =>
    obtain ⟨used, hused, hrest⟩ := ih (h.useRequest id)
    exact ⟨used, hused, hrest⟩

/-- A state that owns a new attempt. -/
structure Bound (s t : RunnerState) (attempt : StageAttempt) : Prop where
  saveable : Saveable t
  activeAttempt : t.activeAttempt = some attempt
  pendingDagDecision : t.pendingDagDecision = s.pendingDagDecision
  lastDagDecision : t.lastDagDecision = s.lastDagDecision
  pendingRebuild : t.pendingRebuild = s.pendingRebuild
  current : t.current = s.current

theorem bindAttemptIntent_bound {s t : RunnerState} {definition : StageDefinition} {attempt : StageAttempt}
    (h : Saveable s) (hp : s.pendingDagDecision = none) (hok : bindAttemptIntent s definition attempt = .ok t) :
    Bound s t attempt := by
  obtain ⟨-, hok⟩ := rejectIf_then.mp hok
  obtain rfl := Except.ok.inj hok
  have hs := h.withAttempt hp (some attempt) (s.stageAttemptNumbers.set attempt.stageId attempt.attemptNumber)
    s.lastResult s.lastResultId
  split
  · exact ⟨hs.useRequest attempt.requestId, rfl, rfl, rfl, rfl, rfl⟩
  · exact ⟨hs, rfl, rfl, rfl, rfl, rfl⟩

/-- A move that passes the output check names a node of the DAG. -/
theorem conditionalOutput_target {decision : ConditionalDecision} {inputData output : Json} {returnsData : Bool}
    {template : ExperimentTemplate} {command : Option DagCommand}
    (hok : conditionalOutput decision inputData returnsData template = .ok (command, output)) :
    ∀ target, command = some (.move target) → target ∈ template.stageIds := by
  unfold conditionalOutput at hok
  obtain ⟨htarget, hok⟩ := rejectIf_then.mp hok
  obtain ⟨-, hok⟩ := rejectIf_then.mp hok
  obtain ⟨hcommand, -⟩ := Prod.mk.inj (Except.ok.inj hok)
  intro target ht
  by_contra hn
  exact htarget ⟨target, by rw [hcommand, ht]; rfl, hn⟩

theorem normalizeAccepted_target (definition : StageDefinition) (template : ExperimentTemplate) (inputData : Json)
    (response : ParticipantResult) (target : String)
    (h : (normalizeAccepted definition template inputData response).dagDecision = some (some (.move target))) :
    target ∈ template.stageIds := by
  unfold normalizeAccepted at h
  split at h
  · split at h
    · cases h
    · split at h
      · cases h
      · rename_i command output hout
        exact conditionalOutput_target hout target (Option.some.inj h)
  · cases h

namespace Machine

variable {m m' : Machine}

/-- A new attempt of the node under the cursor. -/
theorem startAttempt_sound {s : RunnerState} {definition : StageDefinition} {inputData : Json} {ids : AttemptIds}
    (hs : Saveable s) (hp : s.pendingDagDecision = none) (hd : s.lastDagDecision = none)
    (hr : s.pendingRebuild = none) (hidle : m.runner.idle = false) (hcur : s.current = some definition)
    (hsnap : m.snapshotting = true → m.runner.maintenance = true)
    (hok : m.startAttempt s definition inputData ids = .ok m') : Sound m' := by
  obtain ⟨t, ht, hok⟩ := bind_ok.mp hok
  obtain rfl := Except.ok.inj hok
  have hb := bindAttemptIntent_bound hs hp ht
  refine ⟨hb.saveable, fun _ => pauseSound_of_none (hb.lastDagDecision.trans hd),
    fun h => ⟨hsnap h, hb.pendingRebuild.trans hr⟩, ?_,
    ⟨⟨⟨hidle, hb.pendingRebuild.trans hr⟩, hb.pendingDagDecision.trans hp, hb.lastDagDecision.trans hd⟩, ?_⟩⟩
  · intro progress hp
    cases hp
  · intro attempt hattempt
    obtain rfl := Option.some.inj (hb.activeAttempt.symm.trans hattempt)
    exact congrArg (Option.map StageDefinition.stageId) (hb.current.trans hcur)

theorem enterVisit_saveable {s : RunnerState} (h : Saveable s) (hp : s.pendingDagDecision = none)
    (definition : StageDefinition) (manual : Bool) : Saveable (enterVisit s definition manual) := by
  cases manual with
  | false => exact h
  | true =>
    exact (h.keepResults hp _).withAttempt hp s.activeAttempt s.stageAttemptNumbers .null none

theorem enterVisit_frame (s : RunnerState) (definition : StageDefinition) (manual : Bool) :
    (enterVisit s definition manual).pendingDagDecision = s.pendingDagDecision ∧
      (enterVisit s definition manual).lastDagDecision = s.lastDagDecision ∧
      (enterVisit s definition manual).pendingRebuild = s.pendingRebuild ∧
      (enterVisit s definition manual).current = s.current := by
  cases manual <;> exact ⟨rfl, rfl, rfl, rfl⟩

theorem beginVisit_sound {manual : Bool} {ids : AttemptIds} (h : Sound m) (hv : Visiting m.runner)
    (hok : m.beginVisit manual ids = .ok m') : Sound m' := by
  obtain ⟨inputData, -, hok⟩ := bind_ok.mp hok
  cases hcur : m.runner.state.current with
  | none =>
    rw [hcur] at hok
    cases hok
  | some definition =>
    rw [hcur] at hok
    obtain ⟨hp, hd, hr, hc⟩ := enterVisit_frame m.runner.state definition manual
    exact startAttempt_sound (enterVisit_saveable h.saveable hv.noPending definition manual)
      (hp.trans hv.noPending) (hd.trans hv.noDecision) (hr.trans hv.noRebuild) hv.idle (hc.trans hcur)
      (fun hs => (h.snapshot hs).1) hok

theorem retryVisit_sound {definition : StageDefinition} {attempt : StageAttempt} {used : Nat} {ids : AttemptIds}
    (h : Sound m) (hv : Visiting m.runner) (hcur : m.runner.state.current = some definition)
    (hok : m.retryVisit definition attempt used ids = .ok m') : Sound m' := by
  have hs : Saveable (chargeRetry m.runner.state definition.stageId used) :=
    SameSaved.saveable (by constructor <;> rfl) h.saveable
  exact startAttempt_sound hs hv.noPending hv.noDecision hv.noRebuild hv.idle hcur
    (fun hs => (h.snapshot hs).1) hok

/-- An accepted report leaves an attempt of the same node. -/
theorem acceptReport_sound {definition : StageDefinition} {attempt : StageAttempt} {report : AttemptReport}
    {unconfirmed : Bool} (h : Sound m) (hv : Visiting m.runner) (hs : AttemptSound m.runner.state)
    (hattempt : m.runner.state.activeAttempt = some attempt) :
    Sound (m.acceptReport definition attempt report unconfirmed) := by
  have hused := (h.saveable.useRequest attempt.requestId).withAttempt hv.noPending
  refine ⟨hused _ m.runner.state.stageAttemptNumbers m.runner.state.lastResult m.runner.state.lastResultId,
    fun _ => pauseSound_of_none hv.noDecision, fun hsnap => ⟨(h.snapshot hsnap).1, hv.noRebuild⟩, ?_,
    ⟨⟨hv.idle, hv.noRebuild⟩, hv.noPending, hv.noDecision⟩, ?_, ?_⟩
  · intro progress hp
    cases hp
  · intro other hother
    obtain rfl := Option.some.inj hother
    exact hs attempt hattempt
  · intro target ht
    exact normalizeAccepted_target _ _ _ _ target ht

theorem concludeVisit_sound {definition : StageDefinition} {attempt : StageAttempt} {response : StageResult}
    {artifacts : List String} (h : Sound m) (hv : Visiting m.runner) (hs : AttemptSound m.runner.state)
    (htarget : TargetSound m.runner.state response) (hattempt : m.runner.state.activeAttempt = some attempt) :
    Sound (m.concludeVisit definition attempt response artifacts) := by
  unfold concludeVisit
  split
  · refine ⟨h.saveable, fun _ => pauseSound_of_none hv.noDecision, h.snapshot, ?_, hv, hs attempt hattempt, ?_⟩
    · intro progress hp
      cases hp
    · intro accepted haccepted target ht
      obtain ⟨hsome, -⟩ := Option.filter_eq_some_iff.mp haccepted
      obtain rfl := Option.some.inj hsome
      exact htarget target ht
  · refine ⟨h.saveable, fun _ => pauseSound_of_none hv.noDecision, h.snapshot, ?_, hv, hs, htarget⟩
    intro progress hp
    cases hp

/-- A run that ends keeps what its last checkpoint needs. -/
theorem ends_sound {a : ActiveRunner} (h : Saveable a.state) : Sound (m.ends a) := by
  refine ⟨h, fun hp => absurd rfl hp, ?_, ?_, trivial⟩
  · intro hs
    cases hs
  · intro progress hp
    cases hp

theorem consume_sound {o : StageOutcome} (h : Sound m) (hv : Visiting m.runner)
    (ho : OutcomeSound m.runner.state o) (hok : m.consume o = .ok m') : Sound m' := by
  unfold consume at hok
  dsimp only at hok
  split at hok
  · obtain rfl := Except.ok.inj hok
    exact ends_sound (SameSaved.saveable (by constructor <;> rfl) h.saveable)
  · split at hok
    · obtain rfl := Except.ok.inj hok
      have hf := forgetResult_saveable (a := { m.runner with stageTask := false }) h.saveable hv.noPending o
      exact ends_sound hf
    · obtain ⟨a, ha, hok⟩ := bind_ok.mp hok
      obtain rfl := Except.ok.inj hok
      have happ := applyStageOutcome_applied (a := { m.runner with stageTask := false }) h.saveable
        ⟨ho.current, ho.target⟩ ha
      refine ⟨SameSaved.saveable (by constructor <;> rfl) happ.saveable, fun _ => happ.pause, ?_, ?_,
        ⟨happ.idle.trans hv.idle, happ.pendingRebuild.trans hv.noRebuild⟩, happ.noAttempt, happ.noPending⟩
      · intro hs
        exact ⟨happ.maintenance.trans (h.snapshot hs).1, happ.pendingRebuild.trans hv.noRebuild⟩
      · intro progress hp
        cases hp

theorem atDagEnd_pause {a : ActiveRunner} (h : atDagEnd a = true) : a.state.conditionalPause = false := by
  simp only [atDagEnd, Bool.and_eq_true, Bool.not_eq_true'] at h
  exact h.2

theorem decide_sound {o : StageOutcome} {requested : Bool} {snapshotId : String} (h : Sound m)
    (hp : PointSound m.runner (.deciding o requested)) (hpause : PauseSound m.runner)
    (hok : m.decide o requested snapshotId = .ok m') : Sound m' := by
  obtain ⟨hb, hattempt, hpending⟩ := hp
  obtain ⟨a, ha, hok⟩ := bind_ok.mp hok
  obtain rfl := Except.ok.inj hok
  have hfacts : Saveable a.state ∧ PauseSound a ∧ DagFrame m.runner a ∧ a.state.pendingDagDecision = none := by
    cases requested with
    | true =>
      have hs := h.saveable.withSnapshot hb.noRebuild (some snapshotId)
      obtain ⟨h1, h2, h3, h4⟩ := applyPendingDagDecision_sound
        (a := m.runner.setState { m.runner.state with stableSnapshotId := some snapshotId }) hs hpause ha
      have hframe : DagFrame m.runner (m.runner.setState { m.runner.state with stableSnapshotId := some snapshotId }) :=
        ⟨rfl, rfl, rfl, rfl, rfl, rfl⟩
      exact ⟨h1, h2, hframe.trans h3, h4⟩
    | false =>
      obtain rfl := Except.ok.inj ha
      exact ⟨h.saveable, hpause, .refl _, hpending rfl⟩
  obtain ⟨hs, hpa, hframe, hnone⟩ := hfacts
  unfold followOutcome
  split
  · exact ends_sound (SameSaved.saveable (by constructor <;> rfl)
      (hs.withAttempt hnone none a.state.stageAttemptNumbers a.state.lastResult a.state.lastResultId))
  · refine ⟨hs, fun _ => hpa, ?_, ?_, ⟨hframe.idle.trans hb.idle, hframe.pendingRebuild.trans hb.noRebuild⟩,
      hframe.activeAttempt.trans hattempt, hnone, atDagEnd_pause⟩
    · intro hsnap
      exact ⟨hframe.maintenance.trans (h.snapshot hsnap).1, hframe.pendingRebuild.trans hb.noRebuild⟩
    · intro progress hp
      cases hp

theorem command_sound {c : Command} (h : Sound m)
    (hok : (issue m.runner.toRunner c).2.select.map (fun a =>
      { m with runner := a, snapshotting := m.snapshotting || (!m.runner.maintenance && a.maintenance) }) = some m') :
    Sound m' := by
  obtain ⟨b, hb, hi⟩ := issue_issued m.runner c
  rw [hb, ExperimentRunner.select_toRunner] at hok
  obtain rfl := Option.some.inj hok
  exact h.issued hi

theorem requestPause_sound (h : Sound m) : Sound { m with runner := m.runner.requestPause } :=
  h.frame (SameSaved.saveable (by constructor <;> rfl) h.saveable) (by constructor <;> rfl) rfl
    (fun _ _ => ⟨rfl, rfl⟩)

theorem settlePause_sound (h : Sound m) : Sound { m with runner := m.runner.settlePause } :=
  h.frame (SameSaved.saveable (by constructor <;> rfl) h.saveable) (by constructor <;> rfl) rfl
    (fun hp hc => ⟨rfl, (hp hc).2⟩)

theorem observeJournal_sound (h : Sound m) (status : Option JournalStatus) :
    Sound { m with runner := updateJournalPause { m.runner with journal := status } } := by
  have hstatus : Sound { m with runner := { m.runner with journal := status } } :=
    h.frame (SameSaved.saveable (by constructor <;> rfl) h.saveable) (by constructor <;> rfl) rfl id
  exact hstatus.frame ((updateJournalPause_saved _).saveable hstatus.saveable) (updateJournalPause_same _)
    (updateJournalPause_maintenance _) updateJournalPause_pause

theorem serviceWork_sound (h : Sound m) (services : Dict ServiceInstance) (requestIds : List String) :
    let s := requestIds.foldl RunnerState.useRequest m.runner.state
    Sound { m with runner := m.runner.setState { s with services := services } } := by
  intro s
  obtain ⟨used, hused, heq⟩ := useRequests_saveable h.saveable requestIds
  rw [show s = _ from heq]
  exact h.frame (SameSaved.saveable (by constructor <;> rfl) (h.saveable.withRequests hused))
    (by constructor <;> rfl) rfl id

theorem endSnapshot_same (a : ActiveRunner) (created : Option String) : SamePoint a (a.endSnapshot created) := by
  cases created <;> constructor <;> rfl

theorem endSnapshot_saveable {a : ActiveRunner} (h : Saveable a.state) (hrebuild : a.state.pendingRebuild = none)
    (created : Option String) : Saveable (a.endSnapshot created).state := by
  cases created with
  | none => exact h
  | some snapshotId => exact SameSaved.saveable (by constructor <;> rfl) (h.withSnapshot hrebuild (some snapshotId))

theorem endSnapshot_sound (h : Sound m) (hsnap : m.snapshotting = true) (created : Option String) :
    Sound { m with runner := m.runner.endSnapshot created, snapshotting := false } := by
  obtain ⟨-, hrebuild⟩ := h.snapshot hsnap
  refine ⟨endSnapshot_saveable h.saveable hrebuild created, ?_, ?_, ?_, (endSnapshot_same _ created).point h.point⟩
  · intro hp
    have hpause := h.pause hp
    cases created <;> exact hpause
  · intro hs
    cases hs
  · intro progress hp
    exact absurd ((h.reload progress hp).1.symm.trans hsnap) (by simp)

/-- A step that fails while it waits lets go of its future. -/
theorem failStep_point {a : ActiveRunner} {p : Point} (hp : PointSound a p) :
    PointSound { a with stepFuture := false } p := by
  have hbusy : Busy a → Busy { a with stepFuture := false } := fun h => ⟨h.idle, h.noRebuild⟩
  have hvisit : Visiting a → Visiting { a with stepFuture := false } :=
    fun h => ⟨hbusy h.toBusy, h.noPending, h.noDecision⟩
  have hguard : ∀ saved, ProtectedSound a saved → ProtectedSound { a with stepFuture := false } saved :=
    fun saved h => ⟨h.saveable, h.quiet, fun _ => rfl, h.rebuild⟩
  cases p with
  | waiting => exact ⟨hp.1, fun _ => rfl⟩
  | started manual => exact hvisit hp
  | visiting => exact ⟨hvisit hp.1, hp.2⟩
  | accepted response => exact ⟨hvisit hp.1, hp.2⟩
  | retrying used response => exact ⟨hvisit hp.1, hp.2⟩
  | finished o => exact ⟨hvisit hp.1, hp.2⟩
  | deciding o requested => exact ⟨hbusy hp.1, hp.2⟩
  | settling o final => exact ⟨hbusy hp.1, hp.2⟩
  | reloading progress =>
    refine ⟨hp.1, hp.2.1, fun _ => rfl, ?_⟩
    have hprog := hp.2.2.2
    cases progress with
    | begun => exact hprog
    | planned plan => exact hprog
    | protecting plan saved => exact ⟨hprog.1, hguard saved hprog.2⟩
    | published plan saved => exact hguard saved hprog
  | ended => trivial

theorem pausePolicy_sound (h : Sound m) : Sound { m with runner := m.runner.pausePolicy } := by
  have hfail : Sound { m with runner := { m.runner with stepFuture := false } } :=
    ⟨h.saveable, h.pause, h.snapshot, h.reload, failStep_point h.point⟩
  exact requestPause_sound hfail

theorem setPhase_sound (h : Sound m) (phase : Phase) : Sound { m with runner := m.runner.setPhase phase } :=
  h.frame (SameSaved.saveable (by constructor <;> rfl) h.saveable) (by constructor <;> rfl) rfl id

/-- A scheduler that runs, or that a step asks to run, is not held by a conditional pause. -/
theorem launch_noPause {a : ActiveRunner} (hstep : StepSound a) (hpause : PauseSound a)
    (hrun : a.state.mode = .running ∨ a.stepFuture = true) : a.state.conditionalPause = false := by
  cases hc : a.state.conditionalPause with
  | false => rfl
  | true =>
    obtain hr | hf := hrun
    · exact absurd ((hpause hc).1.symm.trans hr) (by simp)
    · exact absurd ((hstep hc).symm.trans hf) (by simp)

theorem canSchedule_snapshotting (h : Sound m) (hsched : m.canSchedule = true) : m.snapshotting = false := by
  cases hs : m.snapshotting with
  | false => rfl
  | true =>
    have hm := (h.snapshot hs).1
    simp [canSchedule, hm] at hsched

theorem launch_sound (h : Sound m) (hp : PointSound m.runner .waiting) (hpause : PauseSound m.runner)
    (hsched : m.canSchedule = true) (hend : atDagEnd m.runner = false)
    (hrun : m.runner.state.mode = .running ∨ m.runner.stepFuture = true) :
    Sound { m with runner := (launchNextStage m.runner).1, point := .started (launchNextStage m.runner).2 } := by
  obtain ⟨hquiet, hstep⟩ := hp
  have hnone := launch_noPause hstep hpause hrun
  obtain ⟨hpending, hrebuild⟩ := launchNextStage_pending m.runner
  have hoff := canSchedule_snapshotting h hsched
  refine ⟨launchNextStage_saveable h.saveable hquiet.noPending hnone hend, fun _ => pauseSound_of_none rfl, ?_, ?_,
    ⟨⟨rfl, hrebuild.trans hquiet.noRebuild⟩, hpending.trans hquiet.noPending, rfl⟩⟩
  · intro hs
    exact absurd (hoff.symm.trans hs) (by simp)
  · intro progress hp
    cases hp

theorem giveUp_sound {attempt : StageAttempt} {response : StageResult} {used : Nat} (h : Sound m)
    (hp : PointSound m.runner (.retrying used response)) (hattempt : m.runner.state.activeAttempt = some attempt)
    (action : OutcomeAction) : Sound { m with point := .finished ⟨attempt, some response, action, []⟩ } := by
  obtain ⟨hv, hs, htarget⟩ := hp
  refine ⟨h.saveable, fun _ => pauseSound_of_none hv.noDecision, h.snapshot, ?_, hv, hs attempt hattempt, ?_⟩
  · intro progress hp
    cases hp
  · intro accepted haccepted target ht
    obtain ⟨hsome, -⟩ := Option.filter_eq_some_iff.mp haccepted
    obtain rfl := Option.some.inj hsome
    exact htarget target ht

theorem boundary_sound {o : StageOutcome} {final : Bool} (h : Sound m) (hp : m.point = .settling o final)
    (snapshotId : String) :
    Sound { m with runner := m.runner.setState { m.runner.state with stableSnapshotId := some snapshotId } } := by
  have hpoint := h.point
  rw [hp] at hpoint
  exact h.frame (h.saveable.withSnapshot hpoint.1.noRebuild _) (by constructor <;> rfl) rfl id

theorem settle_sound {o : StageOutcome} {final : Bool} (h : Sound m)
    (hp : PointSound m.runner (.settling o final)) (hpause : PauseSound m.runner) :
    Sound { m with runner := finishStep m.runner final, point := .waiting } := by
  obtain ⟨hb, hattempt, hpending, hfinal⟩ := hp
  refine ⟨h.saveable, fun _ => hpause, h.snapshot, ?_, ⟨hattempt, hpending, hb.noRebuild⟩, ?_⟩
  · intro progress hp
    cases hp
  · intro hc
    cases final with
    | false => exact Bool.and_false _
    | true => exact absurd ((hfinal rfl).symm.trans hc) (by simp)

theorem complete_sound (h : Sound m) (hp : PointSound m.runner .waiting) (snapshotId : String) :
    Sound (m.completeRun snapshotId) := by
  have hsave := (h.saveable.withSnapshot hp.1.noRebuild (some snapshotId)).withAttempt hp.1.noPending none
    m.runner.state.stageAttemptNumbers m.runner.state.lastResult m.runner.state.lastResultId
  exact ends_sound (SameSaved.saveable (by constructor <;> rfl) hsave)

theorem beginReload_sound {a : ActiveRunner} (h : Sound m) (hp : PointSound m.runner .waiting)
    (hpause : PauseSound m.runner) (hok : reloadAllowed m.runner.toRunner = .ok a) :
    Sound { m with runner := { a with maintenance := true }, point := .reloading .begun } := by
  obtain ⟨b, hb, hok⟩ := bind_ok.mp hok
  obtain ⟨rfl, hrebuild⟩ := requireActive_toRunner hb
  obtain ⟨hcond, hok⟩ := rejectIf_then.mp hok
  obtain rfl := Except.ok.inj hok
  have hoff : m.snapshotting = false := by
    cases hs : m.snapshotting with
    | false => rfl
    | true => exact absurd (.inr (.inr (.inl (h.snapshot hs).1))) hcond
  refine ⟨h.saveable, fun _ => hpause, ?_, fun _ _ => ⟨hoff, rfl⟩, hp.1.noAttempt, hp.1.noPending, hp.2, hrebuild⟩
  intro hs
  exact absurd (hoff.symm.trans hs) (by simp)

/-- A reload that goes on keeps the maintenance of its runner. -/
theorem reload_sound {a : ActiveRunner} {before after : ReloadProgress} (h : Sound m)
    (hbefore : m.point = .reloading before) (hsave : Saveable a.state) (hpause : PauseSound a)
    (hmaintenance : a.maintenance = m.runner.maintenance) (hp : PointSound a (.reloading after)) :
    Sound { m with runner := a, point := .reloading after } := by
  obtain ⟨hoff, hm⟩ := h.reload before hbefore
  refine ⟨hsave, fun _ => hpause, ?_, fun _ _ => ⟨hoff, hmaintenance.trans hm⟩, hp⟩
  intro hs
  exact absurd (hoff.symm.trans hs) (by simp)

theorem protectReload_sound {plan : ReloadPlan} (h : Sound m) (hpoint : m.point = .reloading (.planned plan))
    (hp : PointSound m.runner (.reloading (.planned plan))) (hpause : PauseSound m.runner) (snapshotId : String) :
    let saved := { m.runner.state with stableSnapshotId := some snapshotId }
    Sound { m with
      runner := beginRebuild m.runner plan snapshotId
      point := .reloading (.protecting plan saved) } := by
  intro saved
  obtain ⟨hattempt, hpending, hstep, hrebuild, hplan⟩ := hp
  have hsaved : Saveable saved := h.saveable.withSnapshot hrebuild (some snapshotId)
  have hsave : Saveable (beginRebuild m.runner plan snapshotId).state := by
    refine ⟨hsaved.position, hsaved.cycle, hsaved.origins, hsaved.input, hsaved.last, ?_, ?_, hsaved.used,
      hsaved.retained⟩
    · intro d hd
      cases hpending.symm.trans hd
    · intro r hr
      obtain rfl := Option.some.inj hr
      rfl
  refine reload_sound h hpoint hsave hpause rfl ⟨hattempt, hpending, hstep, ⟨hplan.cycles, hplan.position,
    hplan.preserved⟩, hsaved, ⟨hattempt, hpending, hrebuild⟩, hstep, ?_⟩
  intro hnone
  cases hnone

theorem publish_pause {a : ActiveRunner} {plan : ReloadPlan} {last : Option (String × Json)}
    (h : (a.publish plan last).state.conditionalPause = true) : a.state.conditionalPause = true := by
  obtain ⟨d, hd, hpause⟩ := (Option.any_eq_true _ _).mp h
  obtain ⟨hd, -⟩ := Option.filter_eq_some_iff.mp hd
  exact (Option.any_eq_true _ _).mpr ⟨d, hd, hpause⟩

theorem publishReload_sound {a : ActiveRunner} {plan : ReloadPlan} {saved : RunnerState} (h : Sound m)
    (hpoint : m.point = .reloading (.protecting plan saved))
    (hp : PointSound m.runner (.reloading (.protecting plan saved))) (hpause : PauseSound m.runner)
    (hok : Runner.publishReload m.journal m.runner plan = .ok a) :
    Sound { m with runner := a, point := .reloading (.published plan saved) } := by
  obtain ⟨hattempt, hpending, hstep, hplan, hguard⟩ := hp
  obtain ⟨last, rfl⟩ := publishReload_ok hok
  exact reload_sound h hpoint (publish_saveable h.saveable hpending hplan last) (fun hc => hpause (publish_pause hc)) rfl
    ⟨hattempt, hpending, fun hc => hstep (publish_pause hc), hguard.saveable, hguard.quiet, hguard.step, hguard.rebuild⟩

/-- A scheduler that starts again is at rest. -/
theorem restart_sound {a b : ActiveRunner} {progress : ReloadProgress} (h : Sound m)
    (hpoint : m.point = .reloading progress) (hsave : Saveable a.state) (hquiet : Quiet a.state) (hstep : StepSound a)
    (hok : restartScheduler a = .ok b) : Sound { m with runner := b, point := .waiting } := by
  obtain ⟨hsame, hmode, hdesired, hfuture, -⟩ := restartScheduler_ok hquiet.noPending hok
  obtain ⟨hoff, -⟩ := h.reload progress hpoint
  refine ⟨hsame.saveable hsave, fun _ _ => ⟨hmode, hdesired⟩, ?_, ?_, ⟨hsame.activeAttempt.trans hquiet.noAttempt,
    hsame.pendingDagDecision.trans hquiet.noPending, hsame.pendingRebuild.trans hquiet.noRebuild⟩, ?_⟩
  · intro hs
    exact absurd (hoff.symm.trans hs) (by simp)
  · intro progress hp
    cases hp
  · intro hc
    rw [RunnerState.conditionalPause, hsame.lastDagDecision] at hc
    exact hfuture.trans (hstep hc)

theorem commitReload_sound {b : ActiveRunner} {plan : ReloadPlan} {saved : RunnerState} (h : Sound m)
    (hpoint : m.point = .reloading (.published plan saved))
    (hp : PointSound m.runner (.reloading (.published plan saved)))
    (hok : restartScheduler (Runner.commitReload m.runner) = .ok b) :
    Sound { m with runner := b, point := .waiting } := by
  obtain ⟨hattempt, hpending, hstep, -⟩ := hp
  have hs := h.saveable
  have hsave : Saveable (Runner.commitReload m.runner).state := by
    refine ⟨hs.position, hs.cycle, hs.origins, hs.input, hs.last, ?_, ?_, hs.used, hs.retained⟩
    · intro d hd
      cases hpending.symm.trans hd
    · intro r hr
      cases hr
  exact restart_sound h hpoint hsave ⟨hattempt, hpending, rfl⟩ hstep hok

theorem rollbackReload_sound {b : ActiveRunner} {progress : ReloadProgress} {saved : RunnerState}
    {services : Dict ServiceInstance} (h : Sound m) (hpoint : m.point = .reloading progress)
    (hp : ProtectedSound m.runner saved)
    (hok : restartScheduler (restoreProtective m.runner saved services) = .ok b) :
    Sound { m with runner := b, point := .waiting } :=
  restart_sound h hpoint (restoreProtective_saveable hp.saveable services)
    ⟨hp.quiet.noAttempt, hp.quiet.noPending, hp.quiet.noRebuild⟩ hp.step hok

theorem leaveReload_sound (h : Sound m) (hpoint : m.point = .reloading .begun)
    (hp : PointSound m.runner (.reloading .begun)) (hpause : PauseSound m.runner) :
    Sound { m with runner := { m.runner with maintenance := false }, point := .waiting } := by
  obtain ⟨hoff, -⟩ := h.reload .begun hpoint
  refine ⟨h.saveable, fun _ => hpause, ?_, ?_, ⟨hp.1, hp.2.1, hp.2.2.2⟩, hp.2.2.1⟩
  · intro hs
    exact absurd (hoff.symm.trans hs) (by simp)
  · intro progress hp
    cases hp

theorem save_sound {s : RunnerState} {checkpointId : String} (h : Sound m)
    (hok : prepareStateSave m.runner checkpointId = .ok s) : Sound { m with runner := m.runner.setState s } := by
  obtain ⟨u, -, hok⟩ := bind_ok.mp hok
  obtain rfl := Except.ok.inj hok
  exact h.frame (SameSaved.saveable (by constructor <;> rfl) h.saveable) (by constructor <;> rfl) rfl id

theorem map_toOption {ε α : Type} {x : Except ε α} {f : α → Machine}
    (h : x.toOption.map f = some m') : ∃ a, x = .ok a ∧ m' = f a := by
  obtain ⟨a, ha, hf⟩ := Option.map_eq_some_iff.mp h
  exact ⟨a, toOption_some.mp ha, hf.symm⟩

/-- What is done outside the scheduler task: control, supervision of the journal and services, saving. -/
def outside : Action → Bool
  | .command _ | .requestPause | .settlePause | .observeJournal _ | .serviceWork _ _ | .endServiceControl
  | .endSnapshot _ | .save _ | .fail => true
  | _ => false

theorem outside_sound {action : Action} (h : Sound m) (hout : outside action = true)
    (hok : m.advance action = some m') : Sound m' := by
  cases action with
  | command c => exact command_sound h hok
  | requestPause =>
    obtain ⟨-, hok⟩ := Option.ite_none_right_eq_some.mp hok
    obtain rfl := Option.some.inj hok
    exact requestPause_sound h
  | settlePause =>
    obtain ⟨-, hok⟩ := Option.ite_none_right_eq_some.mp hok
    obtain ⟨a, ha, rfl⟩ := map_toOption hok
    obtain ⟨rfl, -⟩ := requireActive_toRunner ha
    exact settlePause_sound h
  | observeJournal status =>
    obtain rfl := Option.some.inj hok
    exact observeJournal_sound h status
  | serviceWork services requestIds =>
    obtain rfl := Option.some.inj hok
    exact serviceWork_sound h services requestIds
  | endServiceControl =>
    obtain rfl := Option.some.inj hok
    exact h.frame (SameSaved.saveable (by constructor <;> rfl) h.saveable) (by constructor <;> rfl) rfl id
  | endSnapshot created =>
    obtain ⟨hsnap, hok⟩ := Option.ite_none_right_eq_some.mp hok
    obtain rfl := Option.some.inj hok
    exact endSnapshot_sound h hsnap created
  | save checkpointId =>
    obtain ⟨s, hs, rfl⟩ := map_toOption hok
    exact save_sound h hs
  | fail =>
    obtain rfl := Option.some.inj hok
    exact ends_sound (SameSaved.saveable (by constructor <;> rfl) h.saveable)
  | _ => exact nomatch hout

section SchedulerSteps

variable {runner : ActiveRunner} {journal : ResultTable} {snapshotting : Bool} {action : Action}

theorem waiting_sound (h : Sound ⟨runner, .waiting, journal, snapshotting⟩) (hin : outside action = false)
    (hok : advance ⟨runner, .waiting, journal, snapshotting⟩ action = some m') : Sound m' := by
  have hpause : PauseSound runner := h.pause (by simp)
  cases action with
  | supervise =>
    obtain rfl := Option.some.inj hok
    exact setPhase_sound (pausePolicy_sound h) .waiting
  | refuseReadiness =>
    obtain rfl := Option.some.inj hok
    exact setPhase_sound (pausePolicy_sound h) .waiting
  | launch =>
    obtain ⟨hcond, hok⟩ := Option.ite_none_right_eq_some.mp hok
    obtain rfl := Option.some.inj hok
    simp only [Bool.and_eq_true, Bool.or_eq_true, Bool.not_eq_true', beq_iff_eq] at hcond
    exact launch_sound h h.point hpause hcond.1.1 hcond.1.2 hcond.2
  | complete snapshotId =>
    obtain ⟨-, hok⟩ := Option.ite_none_right_eq_some.mp hok
    obtain rfl := Option.some.inj hok
    exact complete_sound h h.point snapshotId
  | beginReload =>
    obtain ⟨a, ha, rfl⟩ := map_toOption hok
    exact beginReload_sound h h.point hpause ha
  | _ => first | exact (Option.some_ne_none _ hok.symm).elim | exact (Bool.eq_false_iff.mp hin rfl).elim

theorem started_sound {manual : Bool} (h : Sound ⟨runner, .started manual, journal, snapshotting⟩)
    (hin : outside action = false)
    (hok : advance ⟨runner, .started manual, journal, snapshotting⟩ action = some m') : Sound m' := by
  cases action with
  | supervise =>
    obtain rfl := Option.some.inj hok
    exact pausePolicy_sound h
  | beginAttempt ids => exact beginVisit_sound h h.point (toOption_some.mp hok)
  | _ => first | exact (Option.some_ne_none _ hok.symm).elim | exact (Bool.eq_false_iff.mp hin rfl).elim

theorem visiting_sound (h : Sound ⟨runner, .visiting, journal, snapshotting⟩) (hin : outside action = false)
    (hok : advance ⟨runner, .visiting, journal, snapshotting⟩ action = some m') : Sound m' := by
  cases action with
  | supervise =>
    obtain rfl := Option.some.inj hok
    exact pausePolicy_sound h
  | acceptReport report unconfirmed =>
    unfold advance at hok
    dsimp only at hok
    split at hok
    · rename_i hattempt
      obtain rfl := Option.some.inj hok
      exact acceptReport_sound h h.point.1 h.point.2 hattempt
    · cases hok
  | _ => first | exact (Option.some_ne_none _ hok.symm).elim | exact (Bool.eq_false_iff.mp hin rfl).elim

theorem accepted_sound {response : StageResult} (h : Sound ⟨runner, .accepted response, journal, snapshotting⟩)
    (hin : outside action = false)
    (hok : advance ⟨runner, .accepted response, journal, snapshotting⟩ action = some m') : Sound m' := by
  obtain ⟨hv, hs, htarget⟩ := h.point
  cases action with
  | supervise =>
    obtain rfl := Option.some.inj hok
    exact pausePolicy_sound h
  | conclude artifacts =>
    unfold advance at hok
    dsimp only at hok
    split at hok
    · rename_i hattempt
      obtain rfl := Option.some.inj hok
      exact concludeVisit_sound h hv hs htarget hattempt
    · cases hok
  | _ => first | exact (Option.some_ne_none _ hok.symm).elim | exact (Bool.eq_false_iff.mp hin rfl).elim

theorem retrying_sound {used : Nat} {response : StageResult}
    (h : Sound ⟨runner, .retrying used response, journal, snapshotting⟩) (hin : outside action = false)
    (hok : advance ⟨runner, .retrying used response, journal, snapshotting⟩ action = some m') : Sound m' := by
  cases action with
  | supervise =>
    obtain rfl := Option.some.inj hok
    exact pausePolicy_sound h
  | retry ids =>
    unfold advance at hok
    dsimp only at hok
    split at hok
    · rename_i hcur hattempt
      obtain ⟨-, hok⟩ := Option.ite_none_left_eq_some.mp hok
      exact retryVisit_sound h h.point.1 hcur (toOption_some.mp hok)
    · cases hok
  | giveUp exhausted =>
    unfold advance at hok
    dsimp only at hok
    split at hok
    · rename_i hattempt
      obtain ⟨-, hok⟩ := Option.ite_none_left_eq_some.mp hok
      obtain rfl := Option.some.inj hok
      exact giveUp_sound h h.point hattempt exhausted
    · cases hok
  | _ => first | exact (Option.some_ne_none _ hok.symm).elim | exact (Bool.eq_false_iff.mp hin rfl).elim

theorem finished_sound {o : StageOutcome} (h : Sound ⟨runner, .finished o, journal, snapshotting⟩)
    (hin : outside action = false)
    (hok : advance ⟨runner, .finished o, journal, snapshotting⟩ action = some m') : Sound m' := by
  cases action with
  | consume => exact consume_sound h h.point.1 h.point.2 (toOption_some.mp hok)
  | _ => first | exact (Option.some_ne_none _ hok.symm).elim | exact (Bool.eq_false_iff.mp hin rfl).elim

theorem deciding_sound {o : StageOutcome} {requested : Bool}
    (h : Sound ⟨runner, .deciding o requested, journal, snapshotting⟩) (hin : outside action = false)
    (hok : advance ⟨runner, .deciding o requested, journal, snapshotting⟩ action = some m') : Sound m' := by
  cases action with
  | decide snapshotId => exact decide_sound h h.point (h.pause (by simp)) (toOption_some.mp hok)
  | _ => first | exact (Option.some_ne_none _ hok.symm).elim | exact (Bool.eq_false_iff.mp hin rfl).elim

theorem settling_sound {o : StageOutcome} {final : Bool}
    (h : Sound ⟨runner, .settling o final, journal, snapshotting⟩) (hin : outside action = false)
    (hok : advance ⟨runner, .settling o final, journal, snapshotting⟩ action = some m') : Sound m' := by
  cases action with
  | boundary snapshotId =>
    obtain rfl := Option.some.inj hok
    exact boundary_sound h rfl snapshotId
  | settle =>
    obtain rfl := Option.some.inj hok
    exact settle_sound h h.point (h.pause (by simp))
  | _ => first | exact (Option.some_ne_none _ hok.symm).elim | exact (Bool.eq_false_iff.mp hin rfl).elim

theorem begun_sound (h : Sound ⟨runner, .reloading .begun, journal, snapshotting⟩) (hin : outside action = false)
    (hok : advance ⟨runner, .reloading .begun, journal, snapshotting⟩ action = some m') : Sound m' := by
  have hpause : PauseSound runner := h.pause (by simp)
  cases action with
  | planReload candidate completed revision run operationId =>
    obtain ⟨plan, hplan, rfl⟩ := map_toOption hok
    obtain ⟨hattempt, hpending, hstep, hrebuild⟩ := h.point
    exact reload_sound h rfl h.saveable hpause rfl ⟨hattempt, hpending, hstep, hrebuild, planReload_sound hplan⟩
  | abandonReload =>
    obtain rfl := Option.some.inj hok
    exact leaveReload_sound h rfl h.point hpause
  | _ => first | exact (Option.some_ne_none _ hok.symm).elim | exact (Bool.eq_false_iff.mp hin rfl).elim

theorem planned_sound {plan : ReloadPlan} (h : Sound ⟨runner, .reloading (.planned plan), journal, snapshotting⟩)
    (hin : outside action = false)
    (hok : advance ⟨runner, .reloading (.planned plan), journal, snapshotting⟩ action = some m') : Sound m' := by
  cases action with
  | protectReload snapshotId =>
    obtain rfl := Option.some.inj hok
    exact protectReload_sound h rfl h.point (h.pause (by simp)) snapshotId
  | abandonReload =>
    obtain ⟨a, ha, rfl⟩ := map_toOption hok
    obtain ⟨hattempt, hpending, hstep, hrebuild, -⟩ := h.point
    exact restart_sound h rfl h.saveable ⟨hattempt, hpending, hrebuild⟩ hstep ha
  | _ => first | exact (Option.some_ne_none _ hok.symm).elim | exact (Bool.eq_false_iff.mp hin rfl).elim

theorem protecting_sound {plan : ReloadPlan} {saved : RunnerState}
    (h : Sound ⟨runner, .reloading (.protecting plan saved), journal, snapshotting⟩) (hin : outside action = false)
    (hok : advance ⟨runner, .reloading (.protecting plan saved), journal, snapshotting⟩ action = some m') :
    Sound m' := by
  cases action with
  | publishReload =>
    obtain ⟨a, ha, rfl⟩ := map_toOption hok
    exact publishReload_sound h rfl h.point (h.pause (by simp)) ha
  | rollbackReload services =>
    obtain ⟨a, ha, rfl⟩ := map_toOption hok
    exact rollbackReload_sound h rfl h.point.2.2.2.2 ha
  | _ => first | exact (Option.some_ne_none _ hok.symm).elim | exact (Bool.eq_false_iff.mp hin rfl).elim

theorem published_sound {plan : ReloadPlan} {saved : RunnerState}
    (h : Sound ⟨runner, .reloading (.published plan saved), journal, snapshotting⟩) (hin : outside action = false)
    (hok : advance ⟨runner, .reloading (.published plan saved), journal, snapshotting⟩ action = some m') :
    Sound m' := by
  cases action with
  | commitReload =>
    obtain ⟨a, ha, rfl⟩ := map_toOption hok
    exact commitReload_sound h rfl h.point ha
  | rollbackReload services =>
    obtain ⟨a, ha, rfl⟩ := map_toOption hok
    exact rollbackReload_sound h rfl h.point.2.2.2 ha
  | _ => first | exact (Option.some_ne_none _ hok.symm).elim | exact (Bool.eq_false_iff.mp hin rfl).elim

theorem ended_sound (h : Sound ⟨runner, .ended, journal, snapshotting⟩) (hin : outside action = false)
    (hok : advance ⟨runner, .ended, journal, snapshotting⟩ action = some m') : Sound m' := by
  cases action with
  | failed =>
    obtain rfl := Option.some.inj hok
    exact ⟨SameSaved.saveable (by constructor <;> rfl) h.saveable, fun hp => absurd rfl hp, h.snapshot, h.reload,
      trivial⟩
  | _ => first | exact (Option.some_ne_none _ hok.symm).elim | exact (Bool.eq_false_iff.mp hin rfl).elim

end SchedulerSteps

theorem advance_sound {action : Action} (h : Sound m) (hok : m.advance action = some m') : Sound m' := by
  cases hout : outside action with
  | true => exact outside_sound h hout hok
  | false =>
    obtain ⟨runner, point, journal, snapshotting⟩ := m
    cases point with
    | waiting => exact waiting_sound h hout hok
    | started manual => exact started_sound h hout hok
    | visiting => exact visiting_sound h hout hok
    | accepted response => exact accepted_sound h hout hok
    | retrying used response => exact retrying_sound h hout hok
    | finished o => exact finished_sound h hout hok
    | deciding o requested => exact deciding_sound h hout hok
    | settling o final => exact settling_sound h hout hok
    | reloading progress =>
      cases progress with
      | begun => exact begun_sound h hout hok
      | planned plan => exact planned_sound h hout hok
      | protecting plan saved => exact protecting_sound h hout hok
      | published plan saved => exact published_sound h hout hok
    | ended => exact ended_sound h hout hok

theorem fresh_sound (experimentId runId revision : String) (template : ExperimentTemplate)
    (services : Dict ServiceInstance) (desired : Mode) :
    Sound (fresh experimentId runId revision template services desired) := by
  have hnone : (fresh experimentId runId revision template services desired).runner.state.lastDagDecision = none := rfl
  refine ⟨⟨⟨Nat.le_refl 1, template.stages_length_pos⟩, ⟨Nat.le_refl 1, template.cycles_pos⟩, Dict.Within.empty _, ?_,
    ?_, ?_, ?_, List.nodup_nil, List.nodup_nil⟩, fun _ => pauseSound_of_none hnone, (by intro hs; cases hs), ?_,
    ⟨rfl, rfl, rfl⟩, stepSound_of_none hnone⟩
  all_goals
    intro x hx
    cases hx

/-- The invariant holds in every state of every run. -/
theorem Reachable.sound (h : Reachable m) : Sound m := by
  induction h with
  | fresh experimentId runId revision template services desired =>
    exact fresh_sound experimentId runId revision template services desired
  | step action _ hstep ih => exact advance_sound ih hstep

/-- In every state of every run the cursor is inside the DAG and its cycles, every clause on
transitions holds, and a save fails at most on the work of the services. -/
theorem cursor_invariant (h : Reachable m) :
    let s := m.runner.state
    (1 ≤ s.stagePosition ∧ s.stagePosition ≤ s.template.stages.length) ∧
      (1 ≤ s.cycleNumber ∧ s.cycleNumber ≤ s.template.cycles) ∧
      (∀ key ∈ s.stageResultOrigins.keys, key ∈ s.stageResultIds.keys) ∧
      validateTransitions s = .ok () ∧
      ∀ checkpointId, prepareStateSave m.runner checkpointId =
        (checkServices s.usedRequestIds [] s.services.entries).map (fun _ => m.runner.checkpoint checkpointId) := by
  intro s
  have hs : Saveable s := h.sound.saveable
  refine ⟨hs.position, hs.cycle, ?_, hs.validateTransitions, ?_⟩
  · intro key hkey
    exact Dict.mem_keys.mpr (hs.origins key (Dict.mem_keys.mp hkey))
  · intro checkpointId
    have hsave : Saveable (m.runner.checkpoint checkpointId) := SameSaved.saveable (by constructor <;> rfl) hs
    have hcheck : validateReferences (m.runner.checkpoint checkpointId) =
        checkServices s.usedRequestIds [] s.services.entries := hsave.validateReferences
    rw [prepareStateSave, hcheck]
    cases checkServices s.usedRequestIds [] s.services.entries <;> rfl

/-- Two plain stages and one service. -/
def pair : ExperimentTemplate where
  cycles := 1
  stages := [⟨"prepare", none, ⟨0, .pause⟩, none, false, .null⟩, ⟨"train", none, ⟨0, .pause⟩, none, false, .null⟩]
  services := [⟨"web", ⟨0, .pause⟩, .pause, .null⟩]
  snapshots := .off
  cycles_pos := by decide
  stages_ne := by simp
  distinct := by decide

/-- A paused run of `pair` with a ready service. -/
def pairStart : Machine :=
  let web := { ServiceInstance.create "first" ⟨"web", ⟨0, .pause⟩, .pause, .null⟩ with ready := true }
  fresh "demo" "run" "revision" pair (Dict.empty.set "web" web) .paused

/-- One step of `pair`, whose first stage succeeds. -/
def pairVisit : List Action :=
  [.command .step, .launch, .beginAttempt ⟨"attempt", "execution", "request"⟩,
    .acceptReport ⟨⟨true, .str "data", .error "", none⟩, .succeeded, by simp⟩ false, .conclude [], .consume, .decide "", .settle]

theorem pairStart_reachable : Reachable pairStart := .fresh _ _ _ _ _ _

theorem cursor_invariant_pair : ∃ m, pairStart.run pairVisit = some m ∧ m.runner.state.lastResultId = some "request" ∧
    validateTransitions m.runner.state = .ok () := by
  have hrun : (pairStart.run pairVisit).isSome := rfl
  refine ⟨(pairStart.run pairVisit).get hrun, (Option.some_get hrun).symm, rfl, ?_⟩
  exact (cursor_invariant (pairStart_reachable.run (Option.some_get hrun).symm)).2.2.2.1

end Machine

/-- A command that is not admitted leaves the scheduling state and the next visit as they
were exactly when its checks come before its writes. -/
theorem rejected_command_atomic (journal : ResultTable) (r : ExperimentRunner) (c : Command) :
    ((issue r c).1 ≠ .accepted →
      (issue r c).2.scheduling = r.scheduling ∧ nextVisit journal (issue r c).2 = nextVisit journal r) ↔
      Settled r c := by
  rw [← atomic_iff]
  constructor
  · intro h hrej
    exact (h hrej).1
  · intro h hrej
    exact ⟨h hrej, nextVisit_congr (h hrej) journal⟩

/-- One step of `pair`, whose service is stopped by hand afterwards. -/
def pairStopped : List Action :=
  Machine.pairVisit ++ [.command (.stopService (.int 1) "second"), .endServiceControl]

/-- A rerun that the manually stopped service refuses has already turned back to the first stage. -/
theorem rejected_rerun_not_atomic : ∃ m, Machine.Reachable m ∧
    (issue m.runner.toRunner (.rerun (.int 1))).1 =
      .rejected (.runtime "Start manually stopped services before stepping.") ∧
    (issue m.runner.toRunner (.rerun (.int 1))).2.scheduling ≠ m.runner.toRunner.scheduling ∧
    (nextVisit m.journal m.runner.toRunner).bind Visit.stageId = some "train" ∧
    (nextVisit m.journal (issue m.runner.toRunner (.rerun (.int 1))).2).bind Visit.stageId = some "prepare" := by
  have hrun : (Machine.pairStart.run pairStopped).isSome := rfl
  refine ⟨(Machine.pairStart.run pairStopped).get hrun, Machine.pairStart_reachable.run (Option.some_get hrun).symm,
    ?_, ?_, ?_, ?_⟩
  · rfl
  · intro h
    have := congrArg Scheduling.pendingAdvance h
    cases this
  · rfl
  · rfl

end ModularPipelines.Runner
