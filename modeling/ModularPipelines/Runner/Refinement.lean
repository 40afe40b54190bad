import ModularPipelines.Runner.Following

namespace ModularPipelines.Runner
open Library Services

theorem advanceCursor_template (s : RunnerState) : (advanceCursor s).template = s.template := by
  unfold advanceCursor
  dsimp only
  split <;> rfl

/-- What `normalizeAccepted` promises of a success. -/
theorem normalizeAccepted_conditional {definition : StageDefinition} {template : ExperimentTemplate} {inputData : Json}
    {report : ParticipantResult} (h : (normalizeAccepted definition template inputData report).success = true) :
    (definition.returnsData = none ↔ (normalizeAccepted definition template inputData report).dagDecision = none) ∧
      ((normalizeAccepted definition template inputData report).dagDecision = some none →
        (normalizeAccepted definition template inputData report).data = inputData) := by
  unfold normalizeAccepted at h ⊢
  cases hd : definition.returnsData with
  | none => simp [ParticipantResult.plain]
  | some returnsData =>
    rw [hd] at h
    cases hs : report.success with
    | false => simp [ParticipantResult.plain, hs] at h
    | true =>
      rw [hs] at h
      dsimp only at h ⊢
      cases hdec : report.decision with
      | error message => simp [hdec, refusedOutput] at h
      | ok decision =>
        rw [hdec] at h
        dsimp only at h ⊢
        cases hout : conditionalOutput decision inputData returnsData template with
        | error e => simp [hout, refusedOutput] at h
        | ok result =>
          obtain ⟨command, output⟩ := result
          unfold conditionalOutput at hout
          obtain ⟨-, hout⟩ := rejectIf_then.mp hout
          obtain ⟨-, hout⟩ := rejectIf_then.mp hout
          obtain ⟨hcommand, houtput⟩ := Prod.mk.inj (Except.ok.inj hout)
          refine ⟨by simp, ?_⟩
          intro hnone
          have hnone := Option.some.inj hnone
          simp [← houtput, hcommand, hnone]

theorem normalizeAccepted_success {definition : StageDefinition} {template : ExperimentTemplate} {inputData : Json}
    {report : ParticipantResult} (h : (normalizeAccepted definition template inputData report).success = true) :
    report.success = true := by
  unfold normalizeAccepted at h
  split at h
  · assumption
  · exact h

/-- An accepted success is a succeeded attempt. -/
theorem AttemptReport.normalized_agrees {report : AttemptReport} {definition : StageDefinition}
    {template : ExperimentTemplate} {inputData : Json}
    (h : (report.normalized definition template inputData).1.success = true) :
    (report.normalized definition template inputData).2 = .succeeded := by
  have hreport := normalizeAccepted_success h
  have hnot : ¬ (report.response.success = true ∧
      (normalizeAccepted definition template inputData report.response).success = false) := by
    intro ⟨_, hf⟩
    exact absurd (h.symm.trans hf) (by simp)
  rw [AttemptReport.normalized]
  dsimp only
  rw [if_neg hnot]
  exact report.agrees.mp hreport

theorem acceptResult_stored {journal : ResultTable} {s : RunnerState} {definition : StageDefinition}
    {attempt : StageAttempt} {report : AttemptReport}
    (h : (acceptResult journal s definition attempt report).2.2.2.success = true) :
    Accepted (acceptResult journal s definition attempt report).1 attempt.requestId s.experimentId attempt.stageId
      (acceptResult journal s definition attempt report).2.2.2 := by
  have hout : (report.normalized definition s.template attempt.inputData).2 = .succeeded :=
    AttemptReport.normalized_agrees h
  refine ⟨?_, h⟩
  show (journal.set attempt.requestId ⟨s.experimentId, attempt.stageId, true,
    (report.normalized definition s.template attempt.inputData).2 == .succeeded,
    (report.normalized definition s.template attempt.inputData).1⟩).get? attempt.requestId = _
  rw [Dict.get?_set, if_pos rfl, hout]
  rfl

theorem visit_node {g : Dag} {d : DagState} {v : DagVisit} (h : d.visit g = some v) :
    d.finished = false ∧ d.node g = some v.stageId ∧ d.cycle = v.cycle ∧ d.input g = v.input := by
  unfold DagState.visit at h
  split at h
  · cases h
  · rename_i hf
    obtain ⟨node, hnode, rfl⟩ := Option.map_eq_some_iff.mp h
    exact ⟨by simpa using hf, hnode, rfl, rfl⟩

/-- An applied decision is what the reference run follows, unless it stops the run. -/
theorem applyDagDecision_tracks {g : Dag} {journal : ResultTable} {a b : ActiveRunner}
    {source : LastDecision} {response : StageResult} {d : DagState} {o : StageOutcome} {requested : Bool}
    (hm : Matches journal a.state d) (hg : a.state.template.dag = g) (hadv : a.pendingAdvance = true)
    (hpending : a.state.pendingDagDecision = none) (hused : source.requestId ∈ a.state.usedRequestIds)
    (haccepted : Accepted journal source.requestId source.experimentId source.sourceStageId response)
    (hdec : response.dagDecision = some source.decision) (hok : applyDagDecision a source = .ok b) :
    b.manual = a.manual ∧ b.state.template = a.state.template ∧
      PointTracks g journal b (d.follow g response.data source.decision) (.deciding o requested) := by
  have hdecided : Matches journal (a.decided source).state d :=
    hm.frame (samePlace_of_eq rfl rfl rfl rfl rfl rfl rfl rfl)
  unfold applyDagDecision at hok
  split at hok
  · rename_i hd
    obtain rfl := Except.ok.inj hok
    rw [hd]
    exact ⟨rfl, rfl, .inr ⟨d, hm.frame (samePlace_of_eq rfl rfl rfl rfl rfl rfl rfl rfl), .next hpending hadv⟩⟩
  · rename_i target hd
    obtain ⟨position, hpos, rfl⟩ := applyConditionalMove_ok hok
    have hjump := hdecided.jump hg hpos hused haccepted (hdec.trans (congrArg some hd))
    rw [hd]
    exact ⟨rfl, rfl, .inr ⟨_, hjump, .here hpending rfl⟩⟩
  · rename_i hd
    obtain rfl := Except.ok.inj hok
    refine ⟨rfl, rfl, .inl ⟨?_, hpending⟩⟩
    simp [lastIsStop, ActiveRunner.decided, hd]
  · rename_i hd
    obtain rfl := Except.ok.inj hok
    rw [hd]
    exact ⟨rfl, rfl, .inr ⟨d, hdecided, .next hpending hadv⟩⟩

/-- A decision that a snapshot delayed leads where it would have led at once. -/
theorem applyPendingDagDecision_tracks {g : Dag} {journal : ResultTable} {a b : ActiveRunner} {ref : DagState}
    {o : StageOutcome} {requested : Bool} (hp : PointTracks g journal a ref (.deciding o requested))
    (hg : a.state.template.dag = g) (hok : applyPendingDagDecision a = .ok b) :
    b.manual = a.manual ∧ b.state.template = a.state.template ∧
      PointTracks g journal b ref (.deciding o requested) := by
  unfold applyPendingDagDecision at hok
  split at hok
  · obtain rfl := Except.ok.inj hok
    exact ⟨rfl, rfl, hp⟩
  · rename_i source hsome
    obtain ⟨-, hn⟩ | ⟨d, hm, hdue⟩ := hp
    · cases hn.symm.trans hsome
    · cases hdue with
      | here hn => cases hn.symm.trans hsome
      | next hn => cases hn.symm.trans hsome
      | deferred hpending hadv hused haccepted hdec =>
        obtain rfl := Option.some.inj (hpending.symm.trans hsome)
        have hplace : SamePlace a.state (a.deferred none).state := samePlace_of_eq rfl rfl rfl rfl rfl rfl rfl rfl
        exact applyDagDecision_tracks (a := a.deferred none) (hm.frame hplace) hg hadv rfl hused haccepted hdec hok

theorem releaseAttempt_place (a : ActiveRunner) (o : StageOutcome) :
    SamePlace a.state (releaseAttempt a o).state ∧ (releaseAttempt a o).state.template = a.state.template ∧
      (releaseAttempt a o).state.pendingDagDecision = none ∧
      (releaseAttempt a o).pendingAdvance = (o.action == .advance) ∧ (releaseAttempt a o).manual = a.manual := by
  unfold releaseAttempt
  split <;> exact ⟨samePlace_of_eq rfl rfl rfl rfl rfl rfl rfl rfl, rfl, rfl, rfl, rfl⟩

/-- A conditional success is a verdict that follows its decision. -/
theorem settle_decided {g : Dag} {d : DagState} {o : StageOutcome} {response : StageResult}
    {decision : Option DagCommand} (hlive : ¬ (o.attempt.outcome = some .unknown ∨ o.action = .stop))
    (haccepted : o.accepted = some response) (hdec : response.dagDecision = some decision)
    (hpassed : decision = none → response.data = d.input g) :
    d.settle g o.verdict = (d.record g (some response.data)).follow g response.data decision := by
  rw [StageOutcome.verdict, if_neg hlive, haccepted]
  dsimp only
  rw [hdec]
  cases decision with
  | none =>
    rw [hpassed rfl]
    rfl
  | some command => rfl

theorem followDecision_tracks {g : Dag} {journal : ResultTable} {a b : ActiveRunner} {source : LastDecision}
    {response : StageResult} {artifacts : List String} {d : DagState} {o : StageOutcome} {requested : Bool}
    (hm : Matches journal a.state d) (hg : a.state.template.dag = g) (hadv : a.pendingAdvance = true)
    (hpending : a.state.pendingDagDecision = none) (hused : source.requestId ∈ a.state.usedRequestIds)
    (haccepted : Accepted journal source.requestId source.experimentId source.sourceStageId response)
    (hdec : response.dagDecision = some source.decision)
    (hok : followDecision a artifacts (some source) requested = .ok b) :
    b.manual = a.manual ∧ b.state.template = a.state.template ∧
      PointTracks g journal b (d.follow g response.data source.decision) (.deciding o requested) := by
  have hplace : SamePlace a.state (retainInputArtifacts a artifacts).state :=
    samePlace_of_eq rfl rfl rfl rfl rfl rfl rfl rfl
  unfold followDecision at hok
  dsimp only at hok
  split at hok
  · obtain rfl := Except.ok.inj hok
    have hkept : SamePlace a.state ((retainInputArtifacts a artifacts).deferred (some source)).state :=
      hplace.trans (samePlace_of_eq rfl rfl rfl rfl rfl rfl rfl rfl)
    exact ⟨rfl, rfl, .inr ⟨d, hm.frame hkept, .deferred rfl hadv hused haccepted hdec⟩⟩
  · exact applyDagDecision_tracks (a := retainInputArtifacts a artifacts) (hm.frame hplace) hg hadv hpending hused
      haccepted hdec hok

/-- Retaining a result of the node under the cursor, and following what its node decided. -/
theorem acceptOutcome_tracks {g : Dag} {journal : ResultTable} {a b : ActiveRunner} {o : StageOutcome}
    {requested : Bool} {ref : DagState} {response : StageResult} {decision : Option LastDecision}
    (hm : Matches journal a.state ref) (hg : a.state.template.dag = g) (hadv : a.pendingAdvance = true)
    (hpending : a.state.pendingDagDecision = none) (hvisit : ref.visit g = some o.attempt.visit)
    (hrep : Reported journal a.state o.attempt response)
    (hlive : ¬ (o.attempt.outcome = some .unknown ∨ o.action = .stop)) (haccepted : o.accepted = some response)
    (hdecision : acceptedDecision (retainResult a o response o.attempt.requestId).state o response
      o.attempt.requestId = .ok decision)
    (hok : followDecision (retainResult a o response o.attempt.requestId) o.artifacts decision requested = .ok b) :
    b.manual = a.manual ∧ b.state.template = a.state.template ∧
      PointTracks g journal b (ref.settle g o.verdict) (.deciding o requested) := by
  have hsuccess : response.success = true := (Option.filter_eq_some_iff.mp haccepted).2
  have hstored := hrep.stored hsuccess
  have hcur : a.state.current.map StageDefinition.stageId = some o.attempt.stageId :=
    (hm.node hg).symm.trans (visit_node hvisit).2.1
  have hrecord : Matches journal (retainResult a o response o.attempt.requestId).state
      (ref.record g (some response.data)) := hm.record hg hcur hrep.used hstored (some o.attempt.requestId)
  unfold acceptedDecision at hdecision
  rw [show (retainResult a o response o.attempt.requestId).state.current = a.state.current from rfl] at hdecision
  split at hdecision
  · cases hdecision
  · rename_i definition hdef
    have hcond := hrep.conditional hsuccess definition hdef
    split at hdecision
    · rename_i hplain
      obtain rfl := Except.ok.inj hdecision
      obtain rfl := Except.ok.inj hok
      refine ⟨rfl, rfl, .inr ⟨_, hrecord, ?_⟩⟩
      rw [StageOutcome.verdict, if_neg hlive, haccepted]
      dsimp only
      rw [hcond.mp hplain]
      exact .next hpending hadv
    · cases hdecision
    · rename_i command hreturns hdec
      obtain rfl := Except.ok.inj hdecision
      have hpassed : command = none → response.data = ref.input g := by
        intro hnone
        exact (hrep.passed hsuccess (hdec.trans (congrArg some hnone))).trans (visit_node hvisit).2.2.2.symm
      rw [settle_decided hlive haccepted hdec hpassed]
      exact followDecision_tracks hrecord hg hadv hpending hrep.used hstored hdec hok

/-- What an accepted outcome makes of the runner is what its verdict makes of the reference run. -/
theorem applyStageOutcome_tracks {g : Dag} {journal : ResultTable} {a b : ActiveRunner} {o : StageOutcome}
    {requested : Bool} {ref : DagState} (hm : Matches journal a.state ref) (hg : a.state.template.dag = g)
    (hvisit : ref.visit g = some o.attempt.visit) (hr : OutcomeReported journal a.state o)
    (hlive : ¬ (o.attempt.outcome = some .unknown ∨ o.action = .stop))
    (hok : applyStageOutcome a o requested = .ok b) :
    b.manual = a.manual ∧ b.state.template = a.state.template ∧
      PointTracks g journal b (ref.settle g o.verdict) (.deciding o requested) := by
  obtain ⟨hplace, htemplate, hpending, hadv, hmanual⟩ := releaseAttempt_place a o
  have hm' := hm.frame hplace
  have hg' : (releaseAttempt a o).state.template.dag = g := (congrArg ExperimentTemplate.dag htemplate).trans hg
  unfold applyStageOutcome at hok
  split at hok
  · rename_i hnone
    obtain rfl := Except.ok.inj hok
    have hcur := (hm'.node hg').symm.trans (visit_node hvisit).2.1
    refine ⟨hmanual, htemplate, .inr ⟨_, hm'.drop hg' hcur, ?_⟩⟩
    rw [StageOutcome.verdict, if_neg hlive, hnone]
    dsimp only
    split
    · rename_i hact
      exact .next hpending (hadv.trans (by rw [hact]; rfl))
    · rename_i hact
      exact .here hpending (hadv.trans (beq_false_of_ne hact))
  · cases hok
  · rename_i response requestId haccepted hid
    obtain ⟨decision, hdecision, hok⟩ := bind_ok.mp hok
    obtain ⟨hact, hrep⟩ := hr response haccepted (fun e => hlive (.inr e))
    obtain rfl := Option.some.inj (hid.symm.trans hrep.resultId)
    have hrep' : Reported journal (releaseAttempt a o).state o.attempt response := by
      refine ⟨hrep.resultId, hplace.used _ hrep.used, ?_, ?_, hrep.passed⟩
      · rw [hplace.experimentId]
        exact hrep.stored
      · rw [current_congr htemplate hplace.stagePosition]
        exact hrep.conditional
    obtain ⟨h1, h2, h3⟩ := acceptOutcome_tracks hm' hg' (hadv.trans (by rw [hact]; rfl)) hpending hvisit hrep' hlive
      haccepted hdecision hok
    exact ⟨h1.trans hmanual, h2.trans htemplate, h3⟩

namespace Machine

variable {t : ExperimentTemplate} {m m' : Machine} {ref : DagState}

theorem launch_tracks (h : Tracks t m ref) (hrest : AtRest t.dag m.journal m.runner ref)
    (hs : Saveable m.runner.state) (hpending : m.runner.state.pendingDagDecision = none)
    (hpause : m.runner.state.conditionalPause = false) (hend : atDagEnd m.runner = false) :
    Tracks t { m with runner := (launchNextStage m.runner).1, point := .started (launchNextStage m.runner).2 } ref := by
  obtain ⟨d, hm, hdue⟩ := hrest
  have hplace : ∀ {s : RunnerState}, (launchNextStage m.runner).1.state =
      { s with lastDagDecision := none, pauseRequested := false, phase := .stageRunning } →
      SamePlace s (launchNextStage m.runner).1.state := by
    intro s hstate
    rw [hstate]
    exact samePlace_of_eq rfl rfl rfl rfl rfl rfl rfl rfl
  cases hdue with
  | here hnone hadv =>
    have hstate : (launchNextStage m.runner).1.state = { m.runner.state with
        lastDagDecision := none
        pauseRequested := false
        phase := .stageRunning } := by
      simp [launchNextStage, hadv]
    refine ⟨rfl, ?_, h.manual, hm.frame (hplace hstate)⟩
    show (launchNextStage m.runner).1.state.template = t
    rw [hstate]
    exact h.template
  | next hnone hadv =>
    have hstate : (launchNextStage m.runner).1.state = { advanceCursor m.runner.state with
        lastDagDecision := none
        pauseRequested := false
        phase := .stageRunning } := by
      simp [launchNextStage, hadv]
    have hmore : ¬ (m.runner.state.stagePosition = m.runner.state.template.stages.length ∧
        m.runner.state.cycleNumber = m.runner.state.template.cycles) := by
      intro h'
      obtain ⟨hp, hc⟩ := h'
      simp [atDagEnd, hadv, hp, hc, hpause] at hend
    have hadvance := hm.advance (congrArg ExperimentTemplate.dag h.template) hs hmore
    refine ⟨rfl, ?_, h.manual, hadvance.frame (hplace hstate)⟩
    show (launchNextStage m.runner).1.state.template = t
    rw [hstate]
    exact (advanceCursor_template m.runner.state).trans h.template
  | deferred hsome => cases hpending.symm.trans hsome

/-- A new attempt of the visit that the reference run is at. -/
theorem startAttempt_tracks {s : RunnerState} {definition : StageDefinition} {inputData : Json} {ids : AttemptIds}
    (hmanual : m.runner.manual = false) (ht : s.template = t) (hm : Matches m.journal s ref)
    (hcur : s.current = some definition) (hinput : inputData = ref.input t.dag)
    (hok : m.startAttempt s definition inputData ids = .ok m') :
    Tracks t m' ref ∧ m'.point = .visiting ∧
      m'.runner.state.activeAttempt.map StageAttempt.visit = ref.visit t.dag := by
  obtain ⟨u, hu, hok⟩ := bind_ok.mp hok
  obtain rfl := Except.ok.inj hok
  obtain ⟨hfresh, hu⟩ := rejectIf_then.mp hu
  obtain rfl := Except.ok.inj hu
  have hvisit : ref.visit t.dag = some (newStageAttempt s definition inputData ids).visit := by
    have hnode := hm.node (congrArg ExperimentTemplate.dag ht)
    rw [hcur] at hnode
    rw [DagState.visit, hm.unfinished, hnode, ← hinput, hm.cycle]
    rfl
  have hunshared : Unshared s ids.requestId := by
    refine ⟨?_, ?_⟩
    · intro k hk
      exact hfresh (hm.current k _ hk).1
    · intro i hi he
      have hused := (hm.moved i hi).1
      rw [he] at hused
      exact hfresh hused
  split
  · refine ⟨⟨hmanual, ht, _, ⟨rfl, hm.frame ?_, hvisit⟩, hunshared⟩, rfl, hvisit.symm⟩
    exact ⟨rfl, rfl, rfl, rfl, rfl, rfl, rfl, fun id hid => RunnerState.mem_useRequest _ hid⟩
  · exact ⟨⟨hmanual, ht, _, ⟨rfl, hm.frame (samePlace_of_eq rfl rfl rfl rfl rfl rfl rfl rfl), hvisit⟩, hunshared⟩, rfl,
      hvisit.symm⟩

theorem beginVisit_tracks {manual : Bool} {ids : AttemptIds} (h : Tracks t m ref)
    (hp : PointTracks t.dag m.journal m.runner ref (.started manual)) (hs : Saveable m.runner.state)
    (hok : m.beginVisit manual ids = .ok m') :
    Tracks t m' ref ∧ m'.point = .visiting ∧
      m'.runner.state.activeAttempt.map StageAttempt.visit = ref.visit t.dag := by
  obtain ⟨hmanual, hm⟩ := hp
  obtain ⟨inputData, hinput, hok⟩ := bind_ok.mp hok
  have hselect := hm.selectInput (congrArg ExperimentTemplate.dag h.template) hs
  have hdata : inputData = ref.input t.dag := Except.ok.inj (hinput.symm.trans hselect)
  cases hcur : m.runner.state.current with
  | none =>
    rw [hcur] at hok
    cases hok
  | some definition =>
    rw [hcur, hmanual] at hok
    exact startAttempt_tracks h.manual h.template hm hcur hdata hok

/-- The node of an attempt is the node under the cursor. -/
theorem attempting_current {attempt : StageAttempt} (h : Tracks t m ref)
    (ha : Attempting t.dag m.journal m.runner attempt ref) :
    m.runner.state.current.map StageDefinition.stageId = some attempt.stageId := by
  have hnode := ha.place.node (congrArg ExperimentTemplate.dag h.template)
  exact hnode.symm.trans (visit_node ha.visit).2.1

theorem acceptReport_tracks {definition : StageDefinition} {attempt : StageAttempt} (h : Tracks t m ref)
    (hp : PointTracks t.dag m.journal m.runner ref .visiting) (hcur : m.runner.state.current = some definition)
    (hattempt : m.runner.state.activeAttempt = some attempt) (report : AttemptReport) (unconfirmed : Bool) :
    Tracks t (m.acceptReport definition attempt report unconfirmed) ref := by
  obtain ⟨other, ha, hu⟩ := hp
  obtain rfl := Option.some.inj (ha.active.symm.trans hattempt)
  refine ⟨h.manual, h.template, _, ⟨rfl, (ha.place.store hu.1 hu.2).frame ?_, ha.visit⟩, rfl,
    RunnerState.useRequest_mem m.runner.state other.requestId, ?_, ?_, ?_⟩
  · exact ⟨rfl, rfl, rfl, rfl, rfl, rfl, rfl, fun id hid => RunnerState.mem_useRequest _ hid⟩
  · intro hs
    exact acceptResult_stored (s := m.runner.state) hs
  · intro hs d hd
    obtain rfl := Option.some.inj (hcur.symm.trans hd)
    exact (normalizeAccepted_conditional hs).1
  · intro hs
    exact (normalizeAccepted_conditional hs).2

theorem concludeVisit_tracks {definition : StageDefinition} {attempt : StageAttempt} {response : StageResult}
    (artifacts : List String) (h : Tracks t m ref) (hp : PointTracks t.dag m.journal m.runner ref (.accepted response))
    (hcur : m.runner.state.current = some definition) (hattempt : m.runner.state.activeAttempt = some attempt) :
    Tracks t (m.concludeVisit definition attempt response artifacts) ref := by
  obtain ⟨other, ha, hr⟩ := hp
  obtain rfl := Option.some.inj (ha.active.symm.trans hattempt)
  have hstage : definition.stageId = other.stageId := by
    have := attempting_current h ha
    rw [hcur] at this
    exact Option.some.inj this
  unfold concludeVisit
  split
  · rename_i action hstep
    refine ⟨h.manual, h.template, ha.place, ha.visit, ?_⟩
    intro accepted haccepted hstop
    obtain ⟨hsome, hsuccess⟩ := Option.filter_eq_some_iff.mp haccepted
    obtain rfl := Option.some.inj hsome
    refine ⟨?_, hr⟩
    unfold concludeAttempt at hstep
    split at hstep
    · obtain rfl := AttemptStep.finished.inj hstep
      exact absurd rfl hstop
    · exact (AttemptStep.finished.inj hstep).symm
  · rename_i used hstep
    refine ⟨h.manual, h.template, _, ha, ?_⟩
    unfold concludeAttempt at hstep
    split at hstep
    · cases hstep
    · split at hstep
      · cases hstep
      · rename_i hfail
        split at hstep
        · cases hstep
        · split at hstep
          · cases hstep
          · exact ⟨hstage ▸ (AttemptStep.retry.inj hstep).symm, by simpa using hfail⟩

theorem retryVisit_tracks {definition : StageDefinition} {attempt : StageAttempt} {used : Nat} {ids : AttemptIds}
    {response : StageResult} (h : Tracks t m ref)
    (hp : PointTracks t.dag m.journal m.runner ref (.retrying used response))
    (hcur : m.runner.state.current = some definition) (hattempt : m.runner.state.activeAttempt = some attempt)
    (hok : m.retryVisit definition attempt used ids = .ok m') :
    Tracks t m' (ref.charge t.dag) ∧ m'.point = .visiting := by
  obtain ⟨other, ha, hused, -⟩ := hp
  obtain rfl := Option.some.inj (ha.active.symm.trans hattempt)
  have hcurrent := attempting_current h ha
  have hstage : definition.stageId = other.stageId := by
    rw [hcur] at hcurrent
    exact Option.some.inj hcurrent
  have hm := ha.place.charge (congrArg ExperimentTemplate.dag h.template) hcurrent
  rw [← hused, ← hstage] at hm
  have hinput : other.inputData = (ref.charge t.dag).input t.dag := (visit_node ha.visit).2.2.2.symm
  obtain ⟨htracks, hpoint, -⟩ := startAttempt_tracks (s := chargeRetry m.runner.state definition.stageId used)
    h.manual h.template hm hcur hinput hok
  exact ⟨htracks, hpoint⟩

theorem giveUp_tracks {attempt : StageAttempt} {used : Nat} {response : StageResult} (h : Tracks t m ref)
    (hp : PointTracks t.dag m.journal m.runner ref (.retrying used response))
    (hattempt : m.runner.state.activeAttempt = some attempt) (action : OutcomeAction) :
    Tracks t { m with point := .finished ⟨attempt, some response, action, []⟩ } ref := by
  obtain ⟨other, ha, -, hfail⟩ := hp
  obtain rfl := Option.some.inj (ha.active.symm.trans hattempt)
  refine ⟨h.manual, h.template, ha.place, ha.visit, ?_⟩
  intro accepted haccepted
  obtain ⟨hsome, hsuccess⟩ := Option.filter_eq_some_iff.mp haccepted
  obtain rfl := Option.some.inj hsome
  exact absurd (hfail.symm.trans hsuccess) (by simp)

theorem consume_tracks {o : StageOutcome} (h : Tracks t m ref)
    (hp : PointTracks t.dag m.journal m.runner ref (.finished o)) (hok : m.consume o = .ok m') :
    Tracks t m' (ref.settle t.dag o.verdict) ∧
      (m'.point = .ended ∨ ∃ requested, m'.point = .deciding o requested) := by
  obtain ⟨hm, hvisit, hr⟩ := hp
  unfold consume at hok
  dsimp only at hok
  split at hok
  · obtain rfl := Except.ok.inj hok
    exact ⟨⟨h.manual, h.template, trivial⟩, .inl rfl⟩
  · rename_i hunknown
    split at hok
    · obtain rfl := Except.ok.inj hok
      exact ⟨⟨h.manual, h.template, trivial⟩, .inl rfl⟩
    · rename_i hstop
      obtain ⟨a, ha, hok⟩ := bind_ok.mp hok
      obtain rfl := Except.ok.inj hok
      have hlive : ¬ (o.attempt.outcome = some .unknown ∨ o.action = .stop) := not_or.mpr ⟨hunknown, hstop⟩
      obtain ⟨hmanual, htemplate, hpoint⟩ := applyStageOutcome_tracks (a := { m.runner with stageTask := false }) hm
        (congrArg ExperimentTemplate.dag h.template) hvisit hr hlive ha
      have hrun : SameRun a (a.setPhase .waiting) := sameRun_of_saved (by constructor <;> rfl) rfl rfl rfl rfl
      exact ⟨⟨hmanual.trans h.manual, htemplate.trans h.template, hrun.point hpoint⟩, .inr ⟨_, rfl⟩⟩

theorem decide_tracks {o : StageOutcome} {requested : Bool} {snapshotId : String} (h : Tracks t m ref)
    (hp : PointTracks t.dag m.journal m.runner ref (.deciding o requested))
    (hok : m.decide o requested snapshotId = .ok m') :
    Tracks t m' ref ∧ (m'.point = .ended ∨ ∃ final, m'.point = .settling o final) := by
  obtain ⟨a, ha, hok⟩ := bind_ok.mp hok
  obtain rfl := Except.ok.inj hok
  have hfacts : a.manual = m.runner.manual ∧ a.state.template = m.runner.state.template ∧
      PointTracks t.dag m.journal a ref (.deciding o requested) := by
    cases requested with
    | false =>
      obtain rfl := Except.ok.inj ha
      exact ⟨rfl, rfl, hp⟩
    | true =>
      have hrun : SameRun m.runner (m.runner.setState { m.runner.state with stableSnapshotId := some snapshotId }) :=
        ⟨samePlace_of_eq rfl rfl rfl rfl rfl rfl rfl rfl, rfl, rfl, rfl, rfl, rfl, rfl⟩
      have hpending := applyPendingDagDecision_tracks (hrun.point hp) (congrArg ExperimentTemplate.dag h.template) ha
      exact hpending
  obtain ⟨hmanual, htemplate, hpoint⟩ := hfacts
  unfold followOutcome
  split
  · exact ⟨⟨hmanual.trans h.manual, htemplate.trans h.template, trivial⟩, .inl rfl⟩
  · rename_i hgo
    refine ⟨⟨hmanual.trans h.manual, htemplate.trans h.template, ?_⟩, .inr ⟨_, rfl⟩⟩
    obtain ⟨hs, -⟩ | hrest := hpoint
    · exact absurd hs hgo
    · exact hrest

end Machine

end ModularPipelines.Runner
