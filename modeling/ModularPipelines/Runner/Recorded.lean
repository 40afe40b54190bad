import ModularPipelines.Runner.ReloadSound
import ModularPipelines.Runner.Tracking
import ModularPipelines.Runner.Transitions

namespace ModularPipelines.Runner
open Library Services

/-- The journal has the accepted result that a decision belongs to. -/
def Decides (journal : ResultTable) (d : LastDecision) : Prop :=
  ∃ response, Accepted journal d.requestId d.experimentId d.sourceStageId response ∧
    response.dagDecision = some d.decision

/-- The journal has the accepted move that a transferred input comes from. -/
def Transfers (journal : ResultTable) (i : PendingInput) : Prop :=
  ∃ response, Accepted journal i.requestId i.experimentId i.sourceStageId response ∧
    response.dagDecision = some (some (.move i.stageId))

/-- Every result that a state refers to is an accepted success in the journal. -/
structure Recorded (journal : ResultTable) (s : RunnerState) : Prop where
  results : ∀ k id, s.stageResultIds.get? k = some id → k ∈ s.template.stageIds ∧
    ∃ response, Accepted journal id (s.origin k) k response
  input : ∀ i, s.pendingInput = some i → Transfers journal i
  last : ∀ d, s.lastDagDecision = some d → Decides journal d
  pending : ∀ d, s.pendingDagDecision = some d → Decides journal d
  data : ∀ id, s.lastResultId = some id → ∃ experimentId stageId response,
    Accepted journal id experimentId stageId response ∧ response.data = s.lastResult
  empty : s.lastResultId = none → s.lastResult = .null
  reference : ∀ id, s.lastResultId = some id →
    id ∈ s.stageResultIds.values ∨ s.pendingInput.map PendingInput.requestId = some id

/-- The last result is the current one of some node. -/
def Kept (s : RunnerState) : Prop := ∀ id, s.lastResultId = some id → id ∈ s.stageResultIds.values

/-- Two states with the same references; a decision may be gone. -/
structure SameRecord (s t : RunnerState) : Prop where
  template : t.template = s.template
  experimentId : t.experimentId = s.experimentId
  stageResultIds : t.stageResultIds = s.stageResultIds
  stageResultOrigins : t.stageResultOrigins = s.stageResultOrigins
  pendingInput : t.pendingInput = s.pendingInput
  lastResult : t.lastResult = s.lastResult
  lastResultId : t.lastResultId = s.lastResultId
  last : t.lastDagDecision = none ∨ t.lastDagDecision = s.lastDagDecision
  pending : t.pendingDagDecision = none ∨ t.pendingDagDecision = s.pendingDagDecision

theorem kept_of_none {s : RunnerState} (h : s.lastResultId = none) : Kept s := by
  intro id hid
  cases h.symm.trans hid

theorem SameRecord.kept {s t : RunnerState} (h : SameRecord s t) (hk : Kept s) : Kept t := by
  intro id hid
  rw [h.stageResultIds]
  exact hk id (h.lastResultId ▸ hid)

theorem SameRecord.trans {s t u : RunnerState} (h : SameRecord s t) (g : SameRecord t u) : SameRecord s u := by
  refine ⟨g.template.trans h.template, g.experimentId.trans h.experimentId, g.stageResultIds.trans h.stageResultIds,
    g.stageResultOrigins.trans h.stageResultOrigins, g.pendingInput.trans h.pendingInput,
    g.lastResult.trans h.lastResult, g.lastResultId.trans h.lastResultId, ?_, ?_⟩
  · obtain hnone | hsame := g.last
    · exact .inl hnone
    · rw [hsame]
      exact h.last
  · obtain hnone | hsame := g.pending
    · exact .inl hnone
    · rw [hsame]
      exact h.pending

namespace Recorded

variable {journal : ResultTable} {s t : RunnerState}

theorem frame (h : Recorded journal s) (hs : SameRecord s t) : Recorded journal t := by
  refine ⟨?_, ?_, ?_, ?_, ?_, ?_, ?_⟩
  · intro k id hk
    rw [RunnerState.origin, hs.stageResultOrigins, hs.experimentId, hs.template]
    exact h.results k id (hs.stageResultIds ▸ hk)
  · rw [hs.pendingInput]
    exact h.input
  · intro d hd
    obtain hnone | hsame := hs.last
    · cases hnone.symm.trans hd
    · exact h.last d (hsame ▸ hd)
  · intro d hd
    obtain hnone | hsame := hs.pending
    · cases hnone.symm.trans hd
    · exact h.pending d (hsame ▸ hd)
  · rw [hs.lastResultId, hs.lastResult]
    exact h.data
  · rw [hs.lastResultId, hs.lastResult]
    exact h.empty
  · rw [hs.lastResultId, hs.stageResultIds, hs.pendingInput]
    exact h.reference

/-- A result that nothing refers to yet may enter the journal. -/
theorem store (h : Recorded journal s) {key : String} (hnew : journal.get? key = none) (value : JournalResult) :
    Recorded (journal.set key value) s := by
  have hset : ∀ {id experimentId stageId response}, Accepted journal id experimentId stageId response →
      Accepted (journal.set key value) id experimentId stageId response := by
    intro id experimentId stageId response hr
    apply hr.set
    intro he
    cases hnew.symm.trans (he ▸ hr.stored)
  refine ⟨?_, ?_, ?_, ?_, ?_, h.empty, h.reference⟩
  · intro k id hk
    obtain ⟨hmem, response, hr⟩ := h.results k id hk
    exact ⟨hmem, response, hset hr⟩
  · intro i hi
    obtain ⟨response, hr, hdec⟩ := h.input i hi
    exact ⟨response, hset hr, hdec⟩
  · intro d hd
    obtain ⟨response, hr, hdec⟩ := h.last d hd
    exact ⟨response, hset hr, hdec⟩
  · intro d hd
    obtain ⟨response, hr, hdec⟩ := h.pending d hd
    exact ⟨response, hset hr, hdec⟩
  · intro id hid
    obtain ⟨experimentId, stageId, response, hr, hdata⟩ := h.data id hid
    exact ⟨experimentId, stageId, response, hset hr, hdata⟩

/-- Results may go when the last result goes with them. -/
theorem forget (h : Recorded journal s) (p : String → Bool) : Recorded journal (s.clearLastResult.keepResults p) := by
  refine ⟨?_, h.input, h.last, h.pending, ?_, fun _ => rfl, ?_⟩
  · intro k id hk
    have hkeep : (if p k then s.stageResultIds.get? k else none) = some id := by simpa [RunnerState.keepResults,
      RunnerState.clearLastResult] using hk
    obtain ⟨hp, hk⟩ := Option.ite_none_right_eq_some.mp hkeep
    obtain ⟨hmem, response, hr⟩ := h.results k id hk
    refine ⟨hmem, response, ?_⟩
    simpa [RunnerState.origin, RunnerState.keepResults, RunnerState.clearLastResult, hp] using hr
  · intro id hid
    cases hid
  · intro id hid
    cases hid

theorem retain (h : Recorded journal s) {stageId requestId : String} {response : StageResult}
    (hstage : stageId ∈ s.template.stageIds) (hr : Accepted journal requestId s.experimentId stageId response) :
    Recorded journal { s with
      lastResult := response.data
      lastResultId := some requestId
      stageResultIds := s.stageResultIds.set stageId requestId
      stageResultOrigins := s.stageResultOrigins.set stageId s.experimentId } := by
  refine ⟨?_, h.input, h.last, h.pending, ?_, ?_, ?_⟩
  · intro k id hk
    by_cases hks : k = stageId
    · subst hks
      obtain rfl : requestId = id := by simpa using hk
      exact ⟨hstage, response, by simpa [RunnerState.origin] using hr⟩
    · have hk' : s.stageResultIds.get? k = some id := by simpa [hks] using hk
      obtain ⟨hmem, other, ho⟩ := h.results k id hk'
      exact ⟨hmem, other, by simpa [RunnerState.origin, hks] using ho⟩
  · intro id hid
    obtain rfl := Option.some.inj hid
    exact ⟨_, _, response, hr, rfl⟩
  · intro hnone
    cases hnone
  · intro id hid
    obtain rfl := Option.some.inj hid
    apply Or.inl
    exact Dict.mem_values_of_get? ((Dict.get?_set _ _ _ _).trans (if_pos rfl))

/-- The transferred input may go once the last result is a current one. -/
theorem consumeInput (h : Recorded journal s) (hk : Kept s) (position : Nat) :
    Recorded journal { s with pendingInput := none, stagePosition := position } := by
  refine ⟨h.results, ?_, h.last, h.pending, h.data, h.empty, fun id hid => .inl (hk id hid)⟩
  intro i hi
  cases hi

theorem restart (h : Recorded journal s) (hinput : s.pendingInput = none) : Recorded journal (startCycle s) := by
  refine ⟨?_, ?_, h.last, h.pending, ?_, fun _ => rfl, ?_⟩
  · intro k id hk
    cases hk
  · intro i hi
    cases hinput.symm.trans hi
  · intro id hid
    cases hid
  · intro id hid
    cases hid

theorem advance (h : Recorded journal s) (hk : Kept s) : Recorded journal (advanceCursor s) ∧ Kept (advanceCursor s) := by
  have hnext := h.consumeInput hk (s.stagePosition + 1)
  unfold advanceCursor
  dsimp only
  split
  · exact ⟨hnext.restart rfl, kept_of_none rfl⟩
  · exact ⟨hnext, hk⟩

/-- A move names its source, whose result may be forgotten with the others. -/
theorem transfer (h : Recorded journal s) {i : PendingInput} (hi : Transfers journal i)
    (hlast : s.lastResultId = some i.requestId) (p : String → Bool) (counts : Dict Nat) (position : Nat) :
    Recorded journal { s.keepResults p with
      pendingInput := some i
      stageRetryCounts := counts
      stagePosition := position } := by
  refine ⟨?_, ?_, h.last, h.pending, h.data, h.empty, ?_⟩
  · intro k id hk
    have hkeep : (if p k then s.stageResultIds.get? k else none) = some id := by simpa [RunnerState.keepResults] using hk
    obtain ⟨hp, hk⟩ := Option.ite_none_right_eq_some.mp hkeep
    obtain ⟨hmem, response, hr⟩ := h.results k id hk
    refine ⟨hmem, response, ?_⟩
    simpa [RunnerState.origin, RunnerState.keepResults, hp] using hr
  · intro other hother
    obtain rfl := Option.some.inj hother
    exact hi
  · intro id hid
    exact .inr (hlast.symm.trans hid)

theorem relocate (h : Recorded journal s) (position : Nat) :
    Recorded journal (dropStaleResult (s.relocate position)) ∧ Kept (dropStaleResult (s.relocate position)) := by
  have hnone : ∀ {i}, (s.relocate position).pendingInput = some i → Transfers journal i := by
    intro i hi
    cases hi
  unfold dropStaleResult
  split
  · rename_i hany
    obtain ⟨id, hid, hmem⟩ := (Option.any_eq_true _ _).mp hany
    have hkept : Kept (s.relocate position) := by
      intro other hother
      obtain rfl := Option.some.inj (hid.symm.trans hother)
      exact List.contains_iff_mem.mp hmem
    refine ⟨⟨h.results, fun i hi => hnone hi, ?_, ?_, h.data, h.empty, fun id hid => .inl (hkept id hid)⟩, hkept⟩
    · intro d hd
      cases hd
    · intro d hd
      cases hd
  · refine ⟨⟨h.results, fun i hi => hnone hi, ?_, ?_, ?_, fun _ => rfl, ?_⟩, kept_of_none rfl⟩
    all_goals
      intro x hx
      cases hx

/-- A state whose results have their origins written out refers to the same results. -/
theorem originate (h : Recorded journal s) (experimentId : String) (origins : Dict String)
    (horigins : ∀ k id, s.stageResultIds.get? k = some id → origins.get? k = some (s.origin k)) :
    Recorded journal { s with experimentId := experimentId, stageResultOrigins := origins } := by
  refine ⟨?_, h.input, h.last, h.pending, h.data, h.empty, h.reference⟩
  intro k id hk
  obtain ⟨hmem, response, hr⟩ := h.results k id hk
  refine ⟨hmem, response, ?_⟩
  rw [RunnerState.origin, horigins k id hk]
  exact hr

end Recorded

section Decisions

variable {journal : ResultTable} {a b : ActiveRunner} {source : LastDecision}

/-- An applied decision keeps every reference, and a later advance may drop the transferred input. -/
theorem applyDagDecision_recorded (h : Recorded journal a.state) (hk : Kept a.state) (hd : Decides journal source)
    (hlast : a.state.lastResultId = some source.requestId) (hok : applyDagDecision a source = .ok b) :
    Recorded journal b.state ∧ (b.pendingAdvance = true → Kept b.state) := by
  have hdecided : Recorded journal (a.decided source).state := by
    refine ⟨h.results, h.input, ?_, h.pending, h.data, h.empty, h.reference⟩
    intro d hd'
    obtain rfl := Option.some.inj hd'
    exact hd
  unfold applyDagDecision at hok
  split at hok
  · obtain rfl := Except.ok.inj hok
    exact ⟨hdecided.frame ⟨rfl, rfl, rfl, rfl, rfl, rfl, rfl, .inr rfl, .inr rfl⟩, fun _ => hk⟩
  · rename_i target hmove
    obtain ⟨position, -, rfl⟩ := applyConditionalMove_ok hok
    obtain ⟨response, hr, hdec⟩ := hd
    have hi : Transfers journal ⟨source.requestId, source.sourceStageId, source.experimentId, target⟩ :=
      ⟨response, hr, hdec.trans (congrArg some hmove)⟩
    refine ⟨hdecided.transfer hi hlast _ _ position, ?_⟩
    intro hadv
    cases hadv
  · obtain rfl := Except.ok.inj hok
    exact ⟨hdecided, fun _ => hk⟩
  · obtain rfl := Except.ok.inj hok
    exact ⟨hdecided, fun _ => hk⟩

theorem applyPendingDagDecision_recorded (h : Recorded journal a.state) (hs : Saveable a.state)
    (hk : a.pendingAdvance = true → Kept a.state) (hok : applyPendingDagDecision a = .ok b) :
    Recorded journal b.state ∧ (b.pendingAdvance = true → Kept b.state) := by
  unfold applyPendingDagDecision at hok
  split at hok
  · obtain rfl := Except.ok.inj hok
    exact ⟨h, hk⟩
  · rename_i source hsource
    have hp := hs.pending source hsource
    have hnone : Recorded journal (a.deferred none).state :=
      h.frame ⟨rfl, rfl, rfl, rfl, rfl, rfl, rfl, .inr rfl, .inl rfl⟩
    have hkept : Kept (a.deferred none).state := by
      intro id hid
      obtain rfl := Option.some.inj (hp.lastResult.symm.trans hid)
      exact Dict.mem_values_of_get? hp.result
    exact applyDagDecision_recorded hnone hkept (h.pending source hsource) hp.lastResult hok

theorem releaseAttempt_record (a : ActiveRunner) (o : StageOutcome) :
    SameRecord a.state (releaseAttempt a o).state := by
  unfold releaseAttempt
  split <;> exact ⟨rfl, rfl, rfl, rfl, rfl, rfl, rfl, .inl rfl, .inl rfl⟩

/-- What the journal must say about the success of an outcome. -/
def OutcomeRecorded (journal : ResultTable) (s : RunnerState) (o : StageOutcome) : Prop :=
  ∀ response requestId, o.accepted = some response → o.attempt.resultRequestId = some requestId →
    Accepted journal requestId s.experimentId o.attempt.stageId response

theorem applyStageOutcome_recorded {o : StageOutcome} {requested : Bool} (h : Recorded journal a.state)
    (hstage : o.attempt.stageId ∈ a.state.template.stageIds) (ho : OutcomeRecorded journal a.state o)
    (hok : applyStageOutcome a o requested = .ok b) :
    Recorded journal b.state ∧ (b.pendingAdvance = true → Kept b.state) := by
  have hsame := releaseAttempt_record a o
  have hrel := h.frame hsame
  unfold applyStageOutcome at hok
  split at hok
  · obtain rfl := Except.ok.inj hok
    exact ⟨hrel.forget _, fun _ => kept_of_none rfl⟩
  · cases hok
  · rename_i response requestId hacc hid
    obtain ⟨decision, hdecision, hok⟩ := bind_ok.mp hok
    have hr : Accepted journal requestId (releaseAttempt a o).state.experimentId o.attempt.stageId response := by
      rw [hsame.experimentId]
      exact ho response requestId hacc hid
    have hkept : Kept (retainResult (releaseAttempt a o) o response requestId).state := by
      intro id hid
      obtain rfl := Option.some.inj hid
      exact Dict.mem_values_of_get? ((Dict.get?_set _ _ _ _).trans (if_pos rfl))
    have hretain : Recorded journal (retainResult (releaseAttempt a o) o response requestId).state :=
      hrel.retain (hsame.template ▸ hstage) hr
    cases decision with
    | none =>
      obtain rfl := Except.ok.inj hok
      exact ⟨hretain, fun _ => hkept⟩
    | some source =>
      obtain ⟨command, hcommand, rfl⟩ := acceptedDecision_some hdecision
      have hdecides : Decides journal ⟨requestId, o.attempt.stageId,
          (retainResult (releaseAttempt a o) o response requestId).state.experimentId, command⟩ :=
        ⟨response, hr, hcommand⟩
      have hart : Recorded journal
          (retainInputArtifacts (retainResult (releaseAttempt a o) o response requestId) o.artifacts).state :=
        hretain.frame ⟨rfl, rfl, rfl, rfl, rfl, rfl, rfl, .inr rfl, .inr rfl⟩
      cases requested with
      | true =>
        obtain rfl := Except.ok.inj hok
        refine ⟨⟨hart.results, hart.input, hart.last, ?_, hart.data, hart.empty, hart.reference⟩, fun _ => hkept⟩
        intro d hd
        obtain rfl := Option.some.inj hd
        exact hdecides
      | false => exact applyDagDecision_recorded hart hkept hdecides rfl hok

end Decisions

section Reloads

variable {journal : ResultTable} {a b : ActiveRunner} {plan : ReloadPlan}

/-- A published reload refers to results of nodes that the new DAG keeps, and to no others. -/
theorem publishReload_recorded (h : Recorded journal a.state) (hplan : PlanSound a.state plan)
    (hok : publishReload journal a plan = .ok b) : Recorded journal b.state ∧ Kept b.state := by
  obtain ⟨last, hlast, hok⟩ := bind_ok.mp hok
  obtain rfl := Except.ok.inj hok
  have hresults : ∀ k id, (a.publish plan last).state.stageResultIds.get? k = some id →
      k ∈ plan.candidate.stageIds ∧ ∃ response, Accepted journal id ((a.publish plan last).state.origin k) k response := by
    intro k id hk
    have hkeep : (if plan.cursor.preserved.contains k then a.state.stageResultIds.get? k else none) = some id := by
      simpa [ActiveRunner.publish, RunnerState.keepResults] using hk
    obtain ⟨hp, hk⟩ := Option.ite_none_right_eq_some.mp hkeep
    obtain ⟨-, response, hr⟩ := h.results k id hk
    refine ⟨hplan.preserved k (List.contains_iff_mem.mp hp), response, ?_⟩
    have hp' : k ∈ plan.cursor.preserved := List.contains_iff_mem.mp hp
    simpa [RunnerState.origin, ActiveRunner.publish, RunnerState.keepResults, hp'] using hr
  have hread : ∀ id data, last = some (id, data) → id ∈ (a.publish plan last).state.stageResultIds.values ∧
      ∃ experimentId stageId response, Accepted journal id experimentId stageId response ∧ response.data = data := by
    intro id data hsome
    subst hsome
    unfold predecessorResult at hlast
    split at hlast
    · cases hlast
    · rename_i requestId hbind
      split at hlast
      · cases hlast
      · rename_i record hrecord
        obtain ⟨rfl, rfl⟩ := Prod.mk.inj (Option.some.inj (Except.ok.inj hlast))
        obtain ⟨d, -, hid⟩ := Option.bind_eq_some_iff.mp hbind
        obtain ⟨-, response, hr⟩ := hresults d.stageId requestId hid
        obtain ⟨hstored, -⟩ := Option.filter_eq_some_iff.mp hrecord
        have hresponse := congrArg JournalResult.response (Option.some.inj (hr.stored.symm.trans hstored))
        exact ⟨Dict.mem_values_of_get? hid, _, _, response, hr, congrArg StageResult.data hresponse⟩
  have hkept : Kept (a.publish plan last).state := by
    intro id hid
    obtain ⟨⟨other, data⟩, hsome, rfl⟩ := Option.map_eq_some_iff.mp hid
    exact (hread other data hsome).1
  refine ⟨⟨hresults, ?_, ?_, h.pending, ?_, ?_, fun id hid => .inl (hkept id hid)⟩, hkept⟩
  · intro i hi
    exact h.input i (Option.filter_eq_some_iff.mp hi).1
  · intro d hd
    exact h.last d (Option.filter_eq_some_iff.mp hd).1
  · intro id hid
    obtain ⟨⟨other, data⟩, rfl, rfl⟩ := Option.map_eq_some_iff.mp hid
    exact (hread other data rfl).2
  · intro hnone
    obtain rfl := Option.map_eq_none_iff.mp hnone
    rfl

/-- Naming the origin of every kept result names the one that it has. -/
theorem origins_named (experimentId : String) (keys : List String) (origins : Dict String) (k : String) (hk : k ∈ keys) :
    (keys.foldl (fun o key => if o.contains key then o else o.set key experimentId) origins).get? k =
      some ((origins.get? k).getD experimentId) := by
  have hstable : ∀ (rest : List String) (o : Dict String) (value : String), o.get? k = some value →
      (rest.foldl (fun o key => if o.contains key then o else o.set key experimentId) o).get? k = some value := by
    intro rest
    induction rest with
    | nil => exact fun o value h => h
    | cons key rest ih =>
      intro o value h
      apply ih
      dsimp only
      split
      · exact h
      · rename_i hmissing
        have hne : k ≠ key := by
          intro he
          rw [he] at h
          simp [Dict.contains, h] at hmissing
        simpa [hne] using h
  induction keys generalizing origins with
  | nil => cases hk
  | cons key rest ih =>
    by_cases hkey : k = key
    · subst hkey
      rw [List.foldl_cons]
      apply hstable
      cases hget : origins.get? k with
      | some value => simp [Dict.contains, hget]
      | none => simp [Dict.contains, hget]
    · have hrest := List.mem_of_ne_of_mem hkey hk
      rw [List.foldl_cons, ih _ hrest]
      split
      · rfl
      · simp [hkey]

theorem restoreProtective_recorded {saved : RunnerState} (h : Recorded journal saved)
    (services : Dict ServiceInstance) : Recorded journal (restoreProtective a saved services).state := by
  have hnamed := h.originate saved.experimentId (saved.stageResultIds.keys.foldl
      (fun o key => if o.contains key then o else o.set key saved.experimentId) saved.stageResultOrigins) (by
    intro k id hk
    apply origins_named
    exact Dict.mem_keys.mpr (Option.isSome_iff_exists.mpr ⟨id, hk⟩))
  exact hnamed.frame ⟨rfl, rfl, rfl, rfl, rfl, rfl, rfl, .inr rfl, .inr rfl⟩

end Reloads

end ModularPipelines.Runner
