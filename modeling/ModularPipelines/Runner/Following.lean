import ModularPipelines.Runner.Runs
import ModularPipelines.Runner.Tracking

namespace ModularPipelines.Runner
open Library Services

def StageAttempt.visit (attempt : StageAttempt) : DagVisit :=
  ⟨attempt.cycleNumber, attempt.stageId, attempt.inputData⟩

/-- What an outcome means for the reference run. -/
def StageOutcome.verdict (o : StageOutcome) : Verdict :=
  if o.attempt.outcome = some .unknown ∨ o.action = .stop then .ended
  else
    match o.accepted with
    | none => if o.action = .advance then .skipped else .paused
    | some response =>
      match response.dagDecision with
      | none => .succeeded response.data
      | some none => .passed
      | some (some command) => .decided command response.data

/-- What the journal and an attempt say about a response that the runner has accepted. -/
structure Reported (journal : ResultTable) (s : RunnerState) (attempt : StageAttempt) (response : StageResult) :
    Prop where
  resultId : attempt.resultRequestId = some attempt.requestId
  used : attempt.requestId ∈ s.usedRequestIds
  stored : response.success = true → Accepted journal attempt.requestId s.experimentId attempt.stageId response
  conditional : response.success = true → ∀ definition, s.current = some definition →
    (definition.returnsData = none ↔ response.dagDecision = none)
  passed : response.success = true → response.dagDecision = some none → response.data = attempt.inputData

def OutcomeReported (journal : ResultTable) (s : RunnerState) (o : StageOutcome) : Prop :=
  ∀ response, o.accepted = some response → o.action ≠ .stop →
    o.action = .advance ∧ Reported journal s o.attempt response

/-- No result that the cursor refers to has this request ID. -/
def Unshared (s : RunnerState) (requestId : String) : Prop :=
  (∀ k, s.stageResultIds.get? k ≠ some requestId) ∧ ∀ i, s.pendingInput = some i → i.requestId ≠ requestId

/-- What is left to do before the next visit. -/
inductive Due (g : Dag) (journal : ResultTable) (a : ActiveRunner) (d : DagState) : DagState → Prop where
  | here (hpending : a.state.pendingDagDecision = none) (hadv : a.pendingAdvance = false) : Due g journal a d d
  | next (hpending : a.state.pendingDagDecision = none) (hadv : a.pendingAdvance = true) :
      Due g journal a d (d.advance g)
  | deferred {source : LastDecision} {response : StageResult} (hpending : a.state.pendingDagDecision = some source)
      (hadv : a.pendingAdvance = true) (hused : source.requestId ∈ a.state.usedRequestIds)
      (haccepted : Accepted journal source.requestId source.experimentId source.sourceStageId response)
      (hdec : response.dagDecision = some source.decision) :
      Due g journal a d (d.follow g response.data source.decision)

def AtRest (g : Dag) (journal : ResultTable) (a : ActiveRunner) (ref : DagState) : Prop :=
  ∃ d, Matches journal a.state d ∧ Due g journal a d ref

/-- An attempt of the visit that the reference run is at. -/
structure Attempting (g : Dag) (journal : ResultTable) (a : ActiveRunner) (attempt : StageAttempt) (ref : DagState) :
    Prop where
  active : a.state.activeAttempt = some attempt
  place : Matches journal a.state ref
  visit : ref.visit g = some attempt.visit

def PointTracks (g : Dag) (journal : ResultTable) (a : ActiveRunner) (ref : DagState) : Point → Prop
  | .waiting | .settling _ _ => AtRest g journal a ref
  | .deciding _ _ => (lastIsStop a.state = true ∧ a.state.pendingDagDecision = none) ∨ AtRest g journal a ref
  | .started manual => manual = false ∧ Matches journal a.state ref
  | .visiting => ∃ attempt, Attempting g journal a attempt ref ∧ Unshared a.state attempt.requestId
  | .accepted response => ∃ attempt, Attempting g journal a attempt ref ∧ Reported journal a.state attempt response
  | .retrying used response => ∃ attempt, Attempting g journal a attempt ref ∧
      used = a.state.retriesUsed attempt.stageId ∧ response.success = false
  | .finished o => Matches journal a.state ref ∧ ref.visit g = some o.attempt.visit ∧
      OutcomeReported journal a.state o
  | .reloading _ => False
  | .ended => True

/-- The reference run that a machine follows. -/
structure Tracks (t : ExperimentTemplate) (m : Machine) (ref : DagState) : Prop where
  manual : m.runner.manual = false
  template : m.runner.state.template = t
  point : PointTracks t.dag m.journal m.runner ref m.point

/-- Two runners that visit the same nodes from here on. -/
structure SameRun (a b : ActiveRunner) : Prop where
  place : SamePlace a.state b.state
  template : b.state.template = a.state.template
  activeAttempt : b.state.activeAttempt = a.state.activeAttempt
  pendingDagDecision : b.state.pendingDagDecision = a.state.pendingDagDecision
  stop : lastIsStop b.state = lastIsStop a.state
  pendingAdvance : b.pendingAdvance = a.pendingAdvance
  manual : b.manual = a.manual

namespace SameRun

variable {a b : ActiveRunner} {g : Dag} {journal : ResultTable} {ref : DagState}

theorem trans {c : ActiveRunner} (h : SameRun a b) (k : SameRun b c) : SameRun a c :=
  ⟨h.place.trans k.place, k.template.trans h.template, k.activeAttempt.trans h.activeAttempt,
    k.pendingDagDecision.trans h.pendingDagDecision, k.stop.trans h.stop, k.pendingAdvance.trans h.pendingAdvance,
    k.manual.trans h.manual⟩

theorem current (h : SameRun a b) : b.state.current = a.state.current :=
  current_congr h.template h.place.stagePosition

theorem reported (h : SameRun a b) {attempt : StageAttempt} {response : StageResult}
    (hr : Reported journal a.state attempt response) : Reported journal b.state attempt response := by
  refine ⟨hr.resultId, h.place.used _ hr.used, ?_, ?_, hr.passed⟩
  · intro hs
    rw [h.place.experimentId]
    exact hr.stored hs
  · intro hs
    rw [h.current]
    exact hr.conditional hs

theorem attempting (h : SameRun a b) {attempt : StageAttempt} (ha : Attempting g journal a attempt ref) :
    Attempting g journal b attempt ref :=
  ⟨h.activeAttempt.trans ha.active, ha.place.frame h.place, ha.visit⟩

theorem unshared (h : SameRun a b) {requestId : String} (hu : Unshared a.state requestId) :
    Unshared b.state requestId := by
  refine ⟨?_, ?_⟩
  · rw [h.place.stageResultIds]
    exact hu.1
  · rw [h.place.pendingInput]
    exact hu.2

theorem due (h : SameRun a b) {d : DagState} (hd : Due g journal a d ref) : Due g journal b d ref := by
  cases hd with
  | here hpending hadv =>
    exact .here (h.pendingDagDecision.trans hpending) (h.pendingAdvance.trans hadv)
  | next hpending hadv =>
    exact .next (h.pendingDagDecision.trans hpending) (h.pendingAdvance.trans hadv)
  | deferred hpending hadv hused haccepted hdec =>
    exact .deferred (h.pendingDagDecision.trans hpending) (h.pendingAdvance.trans hadv)
      (h.place.used _ hused) haccepted hdec

theorem atRest (h : SameRun a b) (hr : AtRest g journal a ref) : AtRest g journal b ref := by
  obtain ⟨d, hm, hd⟩ := hr
  exact ⟨d, hm.frame h.place, h.due hd⟩

theorem point (h : SameRun a b) {p : Point} (hp : PointTracks g journal a ref p) : PointTracks g journal b ref p := by
  cases p with
  | waiting => exact h.atRest hp
  | settling o final => exact h.atRest hp
  | deciding o requested =>
    obtain ⟨hs, hn⟩ | hr := hp
    · exact .inl ⟨h.stop.trans hs, h.pendingDagDecision.trans hn⟩
    · exact .inr (h.atRest hr)
  | started manual => exact ⟨hp.1, hp.2.frame h.place⟩
  | visiting =>
    obtain ⟨attempt, ha, hu⟩ := hp
    exact ⟨attempt, h.attempting ha, h.unshared hu⟩
  | accepted response =>
    obtain ⟨attempt, ha, hr⟩ := hp
    exact ⟨attempt, h.attempting ha, h.reported hr⟩
  | retrying used response =>
    obtain ⟨attempt, ha, hu, hs⟩ := hp
    refine ⟨attempt, h.attempting ha, ?_, hs⟩
    rw [RunnerState.retriesUsed, h.place.stageRetryCounts]
    exact hu
  | finished o =>
    refine ⟨hp.1.frame h.place, hp.2.1, ?_⟩
    intro response hresponse hstop
    obtain ⟨hadv, hr⟩ := hp.2.2 response hresponse hstop
    exact ⟨hadv, h.reported hr⟩
  | reloading progress => exact hp
  | ended => trivial

theorem tracks {t : ExperimentTemplate} {m : Machine} {ref : DagState} {b : ActiveRunner} (h : SameRun m.runner b)
    (ht : Tracks t m ref) : Tracks t { m with runner := b } ref :=
  ⟨h.manual.trans ht.manual, h.template.trans ht.template, h.point ht.point⟩

end SameRun

theorem lastIsStop_congr {s t : RunnerState} (h : t.lastDagDecision = s.lastDagDecision) :
    lastIsStop t = lastIsStop s := by
  rw [lastIsStop, lastIsStop, h]

/-- An update of the fields that no visit depends on. -/
theorem sameRun_of_saved {a b : ActiveRunner} (h : SameSaved a.state b.state)
    (hexp : b.state.experimentId = a.state.experimentId)
    (hretries : b.state.stageRetryCounts = a.state.stageRetryCounts)
    (hadv : b.pendingAdvance = a.pendingAdvance) (hmanual : b.manual = a.manual) : SameRun a b :=
  ⟨samePlace_of_eq hexp h.cycleNumber h.stagePosition hretries h.stageResultIds h.stageResultOrigins h.pendingInput
    h.usedRequestIds, h.template, h.activeAttempt, h.pendingDagDecision, lastIsStop_congr h.lastDagDecision, hadv,
    hmanual⟩

/-- Ending a conditional pause is not ending a conditional stop. -/
theorem clearPauseDecision_stop (s : RunnerState) : lastIsStop s.clearPauseDecision = lastIsStop s := by
  cases hc : s.conditionalPause with
  | false => simp [RunnerState.clearPauseDecision, lastIsStop, hc]
  | true =>
    obtain ⟨d, hd, hpause⟩ := (Option.any_eq_true _ _).mp hc
    have hdec : d.decision = some .pause := beq_iff_eq.mp hpause
    simp [RunnerState.clearPauseDecision, lastIsStop, hc, hd, hdec]

theorem clearPauseDecision_run {a b : ActiveRunner} (h : SameSaved a.state.clearPauseDecision b.state)
    (hexp : b.state.experimentId = a.state.experimentId)
    (hretries : b.state.stageRetryCounts = a.state.stageRetryCounts)
    (hadv : b.pendingAdvance = a.pendingAdvance) (hmanual : b.manual = a.manual) : SameRun a b :=
  ⟨samePlace_of_eq hexp h.cycleNumber h.stagePosition hretries h.stageResultIds h.stageResultOrigins h.pendingInput
    h.usedRequestIds, h.template, h.activeAttempt, h.pendingDagDecision,
    (lastIsStop_congr h.lastDagDecision).trans (clearPauseDecision_stop a.state), hadv, hmanual⟩

theorem updateJournalPause_run (a : ActiveRunner) : SameRun a (updateJournalPause a) := by
  apply sameRun_of_saved (updateJournalPause_saved a)
  all_goals obtain h | ⟨reason, h⟩ | h := updateJournalPause_cases a <;> rw [h] <;> rfl

theorem useRequests_run (a : ActiveRunner) (services : Dict ServiceInstance) (requestIds : List String) :
    let s := requestIds.foldl RunnerState.useRequest a.state
    SameRun a (a.setState { s with services := services }) := by
  intro s
  have hs : ∃ used, (∀ id ∈ a.state.usedRequestIds, id ∈ used) ∧ s = { a.state with usedRequestIds := used } := by
    have hfold : ∀ (ids : List String) (r : RunnerState), ∃ used, (∀ id ∈ r.usedRequestIds, id ∈ used) ∧
        ids.foldl RunnerState.useRequest r = { r with usedRequestIds := used } := by
      intro ids
      induction ids with
      | nil => exact fun r => ⟨r.usedRequestIds, fun _ hid => hid, rfl⟩
      | cons first rest ih =>
        intro r
        obtain ⟨used, hused, heq⟩ := ih (r.useRequest first)
        exact ⟨used, fun id hid => hused id (RunnerState.mem_useRequest first hid), heq⟩
    exact hfold requestIds a.state
  obtain ⟨used, hused, heq⟩ := hs
  rw [heq]
  exact ⟨⟨rfl, rfl, rfl, rfl, rfl, rfl, rfl, hused⟩, rfl, rfl, rfl, rfl, rfl, rfl⟩

theorem endSnapshot_run (a : ActiveRunner) (created : Option String) : SameRun a (a.endSnapshot created) := by
  cases created <;> exact ⟨samePlace_of_eq rfl rfl rfl rfl rfl rfl rfl rfl, rfl, rfl, rfl, rfl, rfl, rfl⟩

/-- A command that does not redirect the DAG leaves every later visit as it was. -/
theorem Issued.sameRun {a b : ActiveRunner} {c : Command} (h : Issued a c b) (hc : c.redirects = false) :
    SameRun a b := by
  have hno : ∀ {P : Prop}, c.redirects = true → P := fun hr => absurd (hc.symm.trans hr) (by simp)
  cases h with
  | same => exact sameRun_of_saved (by constructor <;> rfl) rfl rfl rfl rfl
  | marked hr hidle => exact hno hr
  | rerun hr hidle hrebuild => exact hno hr
  | moved hr hidle hpos hlen => exact hno hr
  | retries hr counts => exact hno hr
  | stepped hidle hrebuild => exact clearPauseDecision_run (by constructor <;> rfl) rfl rfl rfl rfl
  | observed => exact updateJournalPause_run a
  | resumed =>
    exact (updateJournalPause_run a).trans (clearPauseDecision_run (by constructor <;> rfl) rfl rfl rfl rfl)
  | services retrying services => exact sameRun_of_saved (by constructor <;> rfl) rfl rfl rfl rfl
  | snapshot hidle hmaintenance hrebuild => exact sameRun_of_saved (by constructor <;> rfl) rfl rfl rfl rfl

end ModularPipelines.Runner
