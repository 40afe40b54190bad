import ModularPipelines.Runner.Saveable

namespace ModularPipelines.Runner
open Library Services

/-- A conditional pause is also a requested pause. -/
def PauseSound (a : ActiveRunner) : Prop :=
  a.state.conditionalPause = true → a.state.mode = .paused ∧ a.desiredMode = .paused

theorem pauseSound_of_none {a : ActiveRunner} (h : a.state.lastDagDecision = none) : PauseSound a := by
  intro hp
  rw [RunnerState.conditionalPause, h] at hp
  cases hp

theorem conditionalPause_some {s : RunnerState} {d : LastDecision} (h : s.lastDagDecision = some d) :
    s.conditionalPause = true ↔ d.decision = some .pause := by
  rw [RunnerState.conditionalPause, h]
  exact beq_iff_eq

theorem pauseSound_of_decision {a : ActiveRunner} {d : LastDecision} (h : a.state.lastDagDecision = some d)
    (hd : d.decision ≠ some .pause) : PauseSound a := by
  intro hp
  exact absurd ((conditionalPause_some h).mp hp) hd

/-- What a DAG decision leaves as it is. -/
structure DagFrame (a b : ActiveRunner) : Prop where
  idle : b.idle = a.idle
  maintenance : b.maintenance = a.maintenance
  stepFuture : b.stepFuture = a.stepFuture
  template : b.state.template = a.state.template
  pendingRebuild : b.state.pendingRebuild = a.state.pendingRebuild
  activeAttempt : b.state.activeAttempt = a.state.activeAttempt

theorem DagFrame.refl (a : ActiveRunner) : DagFrame a a := ⟨rfl, rfl, rfl, rfl, rfl, rfl⟩

theorem DagFrame.trans {a b c : ActiveRunner} (h : DagFrame a b) (g : DagFrame b c) : DagFrame a c :=
  ⟨g.idle.trans h.idle, g.maintenance.trans h.maintenance, g.stepFuture.trans h.stepFuture,
    g.template.trans h.template, g.pendingRebuild.trans h.pendingRebuild, g.activeAttempt.trans h.activeAttempt⟩

/-- What an applied decision leaves behind. -/
structure Decided (a b : ActiveRunner) (source : LastDecision) : Prop where
  saveable : Saveable b.state
  pause : PauseSound b
  frame : DagFrame a b
  noPending : b.state.pendingDagDecision = none
  decision : b.state.lastDagDecision = some source

theorem applyConditionalMove_ok {a b : ActiveRunner} {source : LastDecision} {target : String}
    (hok : applyConditionalMove a source target = .ok b) :
    ∃ position, a.state.template.positionOf target = some position ∧
      b = { a with
        pendingAdvance := false
        state := { a.state.keepResults (fun k => k ∉ a.state.template.stageIds.drop (position - 1)) with
          pendingInput := some ⟨source.requestId, source.sourceStageId, source.experimentId, target⟩
          stageRetryCounts := a.state.stageRetryCounts.keep
            (fun k => k ∉ a.state.template.stageIds.drop (position - 1))
          stagePosition := position } } := by
  unfold applyConditionalMove at hok
  cases hp : a.state.template.positionOf target with
  | none =>
    rw [hp] at hok
    cases hok
  | some position =>
    rw [hp] at hok
    exact ⟨position, rfl, (Except.ok.inj hok).symm⟩

/-- A move keeps every saved reference valid. -/
theorem applyConditionalMove_saveable {a b : ActiveRunner} {source : LastDecision} {target : String}
    (h : Saveable a.state) (hp : a.state.pendingDagDecision = none)
    (hsource : source.sourceStageId ∈ a.state.template.stageIds) (hmove : source.decision = some (.move target))
    (hok : applyConditionalMove (a.decided source) source target = .ok b) : Saveable b.state := by
  obtain ⟨position, hpos, rfl⟩ := applyConditionalMove_ok hok
  obtain ⟨d, hd, hid⟩ := ExperimentTemplate.positionOf_stageAt hpos
  refine ⟨ExperimentTemplate.stageAt_bound hd, h.cycle, h.origins.keep _, ?_, ?_, ?_, h.rebuild, h.used, h.retained⟩
  · intro i hi
    obtain rfl := Option.some.inj hi
    refine ⟨hsource, ?_⟩
    exact (congrArg (Option.map StageDefinition.stageId) hd).trans (congrArg some hid)
  · intro d' hd'
    obtain rfl := Option.some.inj hd'
    refine ⟨hsource, ?_⟩
    intro target' ht'
    rw [hmove] at ht'
    injection ht' with ht'
    injection ht' with ht'
    exact congrArg some ht'
  · intro d' hd'
    cases hp.symm.trans hd'

theorem applyDagDecision_decided {a b : ActiveRunner} {source : LastDecision} (h : Saveable a.state)
    (hp : a.state.pendingDagDecision = none) (hsource : source.sourceStageId ∈ a.state.template.stageIds)
    (hok : applyDagDecision a source = .ok b) : Decided a b source := by
  have hset : ∀ decision, source.decision = decision → (∀ target, decision ≠ some (.move target)) →
      Saveable (a.decided source).state := by
    intro decision hdec hne
    refine ⟨h.position, h.cycle, h.origins, h.input, ?_, ?_, h.rebuild, h.used, h.retained⟩
    · intro d hd
      obtain rfl := Option.some.inj hd
      exact ⟨hsource, fun target ht => absurd (hdec.symm.trans ht) (hne target)⟩
    · intro d hd
      cases hp.symm.trans hd
  unfold applyDagDecision at hok
  split at hok
  · rename_i hdec
    obtain rfl := Except.ok.inj hok
    refine ⟨?_, fun _ => ⟨rfl, rfl⟩, ⟨rfl, rfl, rfl, rfl, rfl, rfl⟩, hp, rfl⟩
    exact SameSaved.saveable (by constructor <;> rfl) (hset _ hdec (by intro t ht; cases ht))
  · rename_i target hdec
    have hset' := applyConditionalMove_saveable h hp hsource hdec hok
    obtain ⟨position, hpos, rfl⟩ := applyConditionalMove_ok hok
    refine ⟨hset', ?_, ⟨rfl, rfl, rfl, rfl, rfl, rfl⟩, hp, rfl⟩
    exact pauseSound_of_decision rfl (by simp [hdec])
  · rename_i hdec
    obtain rfl := Except.ok.inj hok
    refine ⟨hset _ hdec (by intro t ht; cases ht), ?_, ⟨rfl, rfl, rfl, rfl, rfl, rfl⟩, hp, rfl⟩
    exact pauseSound_of_decision rfl (by simp [hdec])
  · rename_i hdec
    obtain rfl := Except.ok.inj hok
    refine ⟨hset _ hdec (by intro t ht; cases ht), ?_, ⟨rfl, rfl, rfl, rfl, rfl, rfl⟩, hp, rfl⟩
    exact pauseSound_of_decision rfl (by simp [hdec])

theorem deferred_frame (a : ActiveRunner) (d : Option LastDecision) : DagFrame a (a.deferred d) :=
  ⟨rfl, rfl, rfl, rfl, rfl, rfl⟩

theorem applyPendingDagDecision_sound {a b : ActiveRunner} (h : Saveable a.state) (hpause : PauseSound a)
    (hok : applyPendingDagDecision a = .ok b) :
    Saveable b.state ∧ PauseSound b ∧ DagFrame a b ∧ b.state.pendingDagDecision = none := by
  unfold applyPendingDagDecision at hok
  split at hok
  · rename_i hnone
    obtain rfl := Except.ok.inj hok
    exact ⟨h, hpause, .refl a, hnone⟩
  · rename_i source hsome
    have hp := h.pending source hsome
    have hd := applyDagDecision_decided (a := a.deferred none) h.noPending rfl (Saveable.stage_mem hp.current) hok
    exact ⟨hd.saveable, hd.pause, (deferred_frame a none).trans hd.frame, hd.noPending⟩

/-- An outcome of the node under the cursor, whose move stays inside the DAG. -/
structure OutcomeSound (s : RunnerState) (o : StageOutcome) : Prop where
  current : s.current.map StageDefinition.stageId = some o.attempt.stageId
  target : ∀ response, o.accepted = some response → ∀ target,
    response.dagDecision = some (some (.move target)) → target ∈ s.template.stageIds

/-- What accepting an outcome leaves behind. -/
structure Applied (a b : ActiveRunner) (requested : Bool) : Prop where
  saveable : Saveable b.state
  pause : PauseSound b
  idle : b.idle = a.idle
  maintenance : b.maintenance = a.maintenance
  pendingRebuild : b.state.pendingRebuild = a.state.pendingRebuild
  noAttempt : b.state.activeAttempt = none
  noPending : requested = false → b.state.pendingDagDecision = none

/-- The state that `releaseAttempt` leaves, before the result is kept or forgotten. -/
structure Released (a b : ActiveRunner) : Prop where
  saveable : Saveable b.state
  idle : b.idle = a.idle
  maintenance : b.maintenance = a.maintenance
  template : b.state.template = a.state.template
  current : b.state.current = a.state.current
  pendingRebuild : b.state.pendingRebuild = a.state.pendingRebuild
  noAttempt : b.state.activeAttempt = none
  noDecision : b.state.lastDagDecision = none
  noPending : b.state.pendingDagDecision = none

theorem releaseAttempt_released {a : ActiveRunner} (h : Saveable a.state) (o : StageOutcome) :
    Released a (releaseAttempt a o) := by
  have hs := h.noDecision.noPending.withAttempt rfl none a.state.stageAttemptNumbers a.state.lastResult
    a.state.lastResultId
  unfold releaseAttempt
  split
  · exact ⟨SameSaved.saveable (by constructor <;> rfl) hs, rfl, rfl, rfl, rfl, rfl, rfl, rfl, rfl⟩
  · exact ⟨hs, rfl, rfl, rfl, rfl, rfl, rfl, rfl, rfl⟩

theorem acceptedDecision_some {s : RunnerState} {o : StageOutcome} {response : StageResult} {requestId : String}
    {source : LastDecision} (h : acceptedDecision s o response requestId = .ok (some source)) :
    ∃ decision, response.dagDecision = some decision ∧
      source = ⟨requestId, o.attempt.stageId, s.experimentId, decision⟩ := by
  unfold acceptedDecision at h
  split at h
  · cases h
  · split at h
    · cases h
    · cases h
    · rename_i decision _ hdec
      exact ⟨decision, hdec, (Option.some.inj (Except.ok.inj h)).symm⟩

theorem retainResult_saveable {a : ActiveRunner} (h : Saveable a.state) (hp : a.state.pendingDagDecision = none)
    (o : StageOutcome) (response : StageResult) (requestId : String) :
    Saveable (retainResult a o response requestId).state :=
  (h.setResult hp o.attempt.stageId requestId).withAttempt hp a.state.activeAttempt a.state.stageAttemptNumbers
    response.data (some requestId)

theorem forgetResult_saveable {a : ActiveRunner} (h : Saveable a.state) (hp : a.state.pendingDagDecision = none)
    (o : StageOutcome) : Saveable (forgetResult a o).state :=
  (h.withAttempt hp a.state.activeAttempt a.state.stageAttemptNumbers .null none).keepResults hp _

theorem retain_frame (a : ActiveRunner) (o : StageOutcome) (response : StageResult) (requestId : String)
    (artifacts : List String) : DagFrame a (retainInputArtifacts (retainResult a o response requestId) artifacts) :=
  ⟨rfl, rfl, rfl, rfl, rfl, rfl⟩

/-- Deferring a decision keeps the references of the accepted result. -/
theorem deferDecision_saveable {a : ActiveRunner} {o : StageOutcome} {response : StageResult} {requestId : String}
    {source : LastDecision} (h : Released a a) (hcur : a.state.current.map StageDefinition.stageId = some o.attempt.stageId)
    (htarget : ∀ target, response.dagDecision = some (some (.move target)) → target ∈ a.state.template.stageIds)
    (hsource : acceptedDecision (retainResult a o response requestId).state o response requestId = .ok (some source)) :
    Saveable ((retainInputArtifacts (retainResult a o response requestId) o.artifacts).deferred (some source)).state := by
  obtain ⟨decision, hdec, rfl⟩ := acceptedDecision_some hsource
  have hs := (retainResult_saveable h.saveable h.noPending o response requestId).retainArtifacts o.artifacts
  refine ⟨hs.position, hs.cycle, hs.origins, hs.input, hs.last, ?_, hs.rebuild, hs.used, hs.retained⟩
  intro d hd
  obtain rfl := Option.some.inj hd
  refine ⟨h.noAttempt, h.noDecision, rfl, ?_, hcur, ?_⟩
  · exact (Dict.get?_set _ _ _ _).trans (if_pos rfl)
  · intro target ht
    exact htarget target (hdec.trans (congrArg some ht))

theorem applyStageOutcome_applied {a b : ActiveRunner} {o : StageOutcome} {requested : Bool}
    (h : Saveable a.state) (ho : OutcomeSound a.state o) (hok : applyStageOutcome a o requested = .ok b) :
    Applied a b requested := by
  have hr := releaseAttempt_released h o
  have hself : Released (releaseAttempt a o) (releaseAttempt a o) :=
    ⟨hr.saveable, rfl, rfl, rfl, rfl, rfl, hr.noAttempt, hr.noDecision, hr.noPending⟩
  unfold applyStageOutcome at hok
  split at hok
  · obtain rfl := Except.ok.inj hok
    exact ⟨forgetResult_saveable hr.saveable hr.noPending o, pauseSound_of_none hr.noDecision, hr.idle,
      hr.maintenance, hr.pendingRebuild, hr.noAttempt, fun _ => hr.noPending⟩
  · cases hok
  · rename_i response requestId hacc hreq
    have hsave := retainResult_saveable hr.saveable hr.noPending o response requestId
    obtain ⟨decision, hdec, hok⟩ := bind_ok.mp hok
    cases decision with
    | none =>
      obtain rfl := Except.ok.inj hok
      exact ⟨hsave, pauseSound_of_none hr.noDecision, hr.idle, hr.maintenance, hr.pendingRebuild, hr.noAttempt,
        fun _ => hr.noPending⟩
    | some source =>
      cases requested with
      | true =>
        obtain rfl := Except.ok.inj hok
        have hcur : (releaseAttempt a o).state.current.map StageDefinition.stageId = some o.attempt.stageId := by
          rw [hr.current]
          exact ho.current
        have htarget : ∀ target, response.dagDecision = some (some (.move target)) →
            target ∈ (releaseAttempt a o).state.template.stageIds := by
          rw [hr.template]
          exact ho.target response hacc
        have hframe := (retain_frame (releaseAttempt a o) o response requestId o.artifacts).trans
          (deferred_frame _ (some source))
        have hnone : ((retainInputArtifacts (retainResult (releaseAttempt a o) o response requestId)
            o.artifacts).deferred (some source)).state.lastDagDecision = none := hr.noDecision
        exact ⟨deferDecision_saveable hself hcur htarget hdec, pauseSound_of_none hnone, hframe.idle.trans hr.idle,
          hframe.maintenance.trans hr.maintenance, hframe.pendingRebuild.trans hr.pendingRebuild,
          hframe.activeAttempt.trans hr.noAttempt, fun e => absurd e (by simp)⟩
      | false =>
        obtain ⟨decision, -, hsource⟩ := acceptedDecision_some hdec
        have hmem : source.sourceStageId ∈ (releaseAttempt a o).state.template.stageIds := by
          rw [hsource, hr.template]
          exact Saveable.stage_mem ho.current
        have hart : Saveable (retainInputArtifacts (retainResult (releaseAttempt a o) o response requestId)
            o.artifacts).state := hsave.retainArtifacts o.artifacts
        have hd := applyDagDecision_decided hart hr.noPending hmem hok
        have hframe := (retain_frame (releaseAttempt a o) o response requestId o.artifacts).trans hd.frame
        exact ⟨hd.saveable, hd.pause, hframe.idle.trans hr.idle, hframe.maintenance.trans hr.maintenance,
          hframe.pendingRebuild.trans hr.pendingRebuild, hframe.activeAttempt.trans hr.noAttempt,
          fun _ => hd.noPending⟩

/-- Ordinary advancement stays inside the DAG unless the run is over. -/
theorem advanceCursor_saveable {a : ActiveRunner} (h : Saveable a.state) (hp : a.state.pendingDagDecision = none)
    (hl : a.state.conditionalPause = false) (hadv : a.pendingAdvance = true) (hend : atDagEnd a = false) :
    Saveable { advanceCursor a.state with lastDagDecision := none } := by
  have hpend : ∀ {t : RunnerState}, t.pendingDagDecision = none → ∀ d, t.pendingDagDecision = some d → PendingSound t d := by
    intro t ht d hd
    cases ht.symm.trans hd
  by_cases hlast : a.state.stagePosition + 1 > a.state.template.stages.length
  · have hpos : a.state.stagePosition = a.state.template.stages.length := by
      have := h.position.2
      omega
    have hcycle : a.state.cycleNumber ≠ a.state.template.cycles := by
      intro hc
      simp [atDagEnd, hadv, hpos, hc, hl] at hend
    have hs : advanceCursor a.state = startCycle { a.state with
        pendingInput := none
        stagePosition := a.state.stagePosition + 1 } := if_pos hlast
    rw [hs]
    refine ⟨⟨Nat.le_refl 1, a.state.template.stages_length_pos⟩, ?_, Dict.Within.empty _, ?_, ?_, hpend hp, h.rebuild,
      h.used, h.retained⟩
    · have := h.cycle
      exact ⟨by simp [startCycle, RunnerState.clearLastResult], by simp [startCycle, RunnerState.clearLastResult]; omega⟩
    · intro i hi
      cases hi
    · intro d hd
      cases hd
  · have hs : advanceCursor a.state = { a.state with
        pendingInput := none
        stagePosition := a.state.stagePosition + 1 } := if_neg hlast
    rw [hs]
    refine ⟨⟨Nat.succ_pos _, Nat.not_lt.mp hlast⟩, h.cycle, h.origins, ?_, ?_, hpend hp, h.rebuild, h.used, h.retained⟩
    · intro i hi
      cases hi
    · intro d hd
      cases hd

theorem launchNextStage_saveable {a : ActiveRunner} (h : Saveable a.state) (hp : a.state.pendingDagDecision = none)
    (hl : a.state.conditionalPause = false) (hend : atDagEnd a = false) :
    Saveable (launchNextStage a).1.state := by
  cases hadv : a.pendingAdvance with
  | true =>
    have hs := advanceCursor_saveable h hp hl hadv hend
    refine SameSaved.saveable ?_ hs
    constructor <;> simp [launchNextStage, hadv]
  | false =>
    refine SameSaved.saveable ?_ h.noDecision
    constructor <;> simp [launchNextStage, hadv]

theorem advanceCursor_pending (s : RunnerState) :
    (advanceCursor s).pendingDagDecision = s.pendingDagDecision ∧
      (advanceCursor s).pendingRebuild = s.pendingRebuild := by
  unfold advanceCursor
  dsimp only
  split <;> exact ⟨rfl, rfl⟩

theorem launchNextStage_pending (a : ActiveRunner) :
    (launchNextStage a).1.state.pendingDagDecision = a.state.pendingDagDecision ∧
      (launchNextStage a).1.state.pendingRebuild = a.state.pendingRebuild := by
  cases hadv : a.pendingAdvance with
  | true => simpa [launchNextStage, hadv] using advanceCursor_pending a.state
  | false => simp [launchNextStage, hadv]

end ModularPipelines.Runner
