import ModularPipelines.Runner.Saveable
import ModularPipelines.Runner.Semantics

namespace ModularPipelines.Runner
open Library Services

def ExperimentTemplate.dag (t : ExperimentTemplate) : Dag := ⟨t.stageIds, t.cycles⟩

theorem dag_nodeAt (t : ExperimentTemplate) (position : Nat) :
    t.dag.nodeAt position = (t.stageAt position).map StageDefinition.stageId := by
  unfold Dag.nodeAt ExperimentTemplate.stageAt
  split
  · rfl
  · exact List.getElem?_map

theorem dag_positionOf (t : ExperimentTemplate) (stageId : String) :
    t.dag.positionOf stageId = t.positionOf stageId := by
  have hfind : t.stageIds.findIdx? (· == stageId) = t.stages.findIdx? (fun s => s.stageId == stageId) :=
    List.findIdx?_map
  rw [Dag.positionOf, ExperimentTemplate.positionOf, ← hfind]
  rfl

def RunnerState.origin (s : RunnerState) (stageId : String) : String :=
  (s.stageResultOrigins.get? stageId).getD s.experimentId

/-- An accepted successful result in the journal. -/
structure Accepted (journal : ResultTable) (requestId experimentId stageId : String) (response : StageResult) :
    Prop where
  stored : journal.get? requestId = some ⟨experimentId, stageId, true, true, response⟩
  success : response.success = true

theorem Accepted.read {journal : ResultTable} {requestId experimentId stageId : String} {response : StageResult}
    (h : Accepted journal requestId experimentId stageId response) :
    readResult journal requestId experimentId stageId =
      .ok (some ⟨experimentId, stageId, true, true, response⟩) := by
  simp [readResult, h.stored, rejectIf]

theorem Accepted.moveInput {journal : ResultTable} {s : RunnerState} {i : PendingInput} {response : StageResult}
    (h : Accepted journal i.requestId i.experimentId i.sourceStageId response)
    (hcur : s.current.map StageDefinition.stageId = some i.stageId)
    (hdec : response.dagDecision = some (some (.move i.stageId))) : readMoveInput journal s i = .ok response.data := by
  rw [readMoveInput, rejectIf_of_not (not_not.mpr hcur), ok_bind, h.read, ok_bind]
  simp [Option.filter, h.success, hdec]

theorem Accepted.predecessor {journal : ResultTable} {s : RunnerState} {previous requestId : String}
    {response : StageResult} (hid : s.stageResultIds.get? previous = some requestId)
    (h : Accepted journal requestId (s.origin previous) previous response) :
    predecessorInput journal s previous = .ok response.data := by
  have hread := h.read
  rw [RunnerState.origin] at hread
  rw [predecessorInput, hid]
  dsimp only
  rw [hread, ok_bind]
  simp [h.success]

theorem Accepted.set {journal : ResultTable} {requestId experimentId stageId key : String} {response : StageResult}
    {record : JournalResult} (h : Accepted journal requestId experimentId stageId response) (hne : requestId ≠ key) :
    Accepted (journal.set key record) requestId experimentId stageId response :=
  ⟨by rw [Dict.get?_set, if_neg hne]; exact h.stored, h.success⟩

/-- The runner state and the journal stand for a place in the reference run. -/
structure Matches (journal : ResultTable) (s : RunnerState) (d : DagState) : Prop where
  cycle : d.cycle = s.cycleNumber
  position : d.position = s.stagePosition
  unfinished : d.finished = false
  retries : ∀ k, d.retries k = s.retriesUsed k
  absent : ∀ k, s.stageResultIds.get? k = none → d.results k = none
  current : ∀ k id, s.stageResultIds.get? k = some id → id ∈ s.usedRequestIds ∧
    ∃ response, Accepted journal id (s.origin k) k response ∧ d.results k = some response.data
  unmoved : s.pendingInput = none → d.moved = none
  moved : ∀ i, s.pendingInput = some i → i.requestId ∈ s.usedRequestIds ∧
    ∃ response, Accepted journal i.requestId i.experimentId i.sourceStageId response ∧
      response.dagDecision = some (some (.move i.stageId)) ∧ d.moved = some response.data

/-- Two states that stand for the same place; request IDs are only ever added. -/
structure SamePlace (s t : RunnerState) : Prop where
  experimentId : t.experimentId = s.experimentId
  cycleNumber : t.cycleNumber = s.cycleNumber
  stagePosition : t.stagePosition = s.stagePosition
  stageRetryCounts : t.stageRetryCounts = s.stageRetryCounts
  stageResultIds : t.stageResultIds = s.stageResultIds
  stageResultOrigins : t.stageResultOrigins = s.stageResultOrigins
  pendingInput : t.pendingInput = s.pendingInput
  used : ∀ id ∈ s.usedRequestIds, id ∈ t.usedRequestIds

theorem SamePlace.trans {s t u : RunnerState} (h : SamePlace s t) (g : SamePlace t u) : SamePlace s u :=
  ⟨g.experimentId.trans h.experimentId, g.cycleNumber.trans h.cycleNumber, g.stagePosition.trans h.stagePosition,
    g.stageRetryCounts.trans h.stageRetryCounts, g.stageResultIds.trans h.stageResultIds,
    g.stageResultOrigins.trans h.stageResultOrigins, g.pendingInput.trans h.pendingInput,
    fun id hid => g.used id (h.used id hid)⟩

/-- An update of the fields that say nothing about the place. -/
theorem samePlace_of_eq {s t : RunnerState} (he : t.experimentId = s.experimentId)
    (hc : t.cycleNumber = s.cycleNumber) (hp : t.stagePosition = s.stagePosition)
    (hr : t.stageRetryCounts = s.stageRetryCounts) (hi : t.stageResultIds = s.stageResultIds)
    (ho : t.stageResultOrigins = s.stageResultOrigins) (hm : t.pendingInput = s.pendingInput)
    (hu : t.usedRequestIds = s.usedRequestIds) : SamePlace s t :=
  ⟨he, hc, hp, hr, hi, ho, hm, fun _ hid => hu ▸ hid⟩

theorem RunnerState.useRequest_mem (s : RunnerState) (requestId : String) :
    requestId ∈ (s.useRequest requestId).usedRequestIds := by
  simp only [RunnerState.useRequest]
  split
  · assumption
  · simp

theorem RunnerState.mem_useRequest {s : RunnerState} {id : String} (requestId : String) (h : id ∈ s.usedRequestIds) :
    id ∈ (s.useRequest requestId).usedRequestIds := by
  simp only [RunnerState.useRequest]
  split
  · exact h
  · exact List.mem_append_left _ h

namespace Matches

variable {journal : ResultTable} {s t : RunnerState} {d : DagState} {g : Dag}

theorem frame (h : Matches journal s d) (hs : SamePlace s t) : Matches journal t d := by
  have horigin : ∀ k, t.origin k = s.origin k := by
    intro k
    rw [RunnerState.origin, RunnerState.origin, hs.stageResultOrigins, hs.experimentId]
  refine ⟨h.cycle.trans hs.cycleNumber.symm, h.position.trans hs.stagePosition.symm, h.unfinished, ?_, ?_, ?_, ?_, ?_⟩
  · intro k
    rw [RunnerState.retriesUsed, hs.stageRetryCounts]
    exact h.retries k
  · intro k hk
    exact h.absent k (hs.stageResultIds ▸ hk)
  · intro k id hk
    obtain ⟨hid, response, hr, hd⟩ := h.current k id (hs.stageResultIds ▸ hk)
    exact ⟨hs.used id hid, response, by rw [horigin]; exact hr, hd⟩
  · intro hi
    exact h.unmoved (hs.pendingInput ▸ hi)
  · intro i hi
    obtain ⟨hid, hrest⟩ := h.moved i (hs.pendingInput ▸ hi)
    exact ⟨hs.used _ hid, hrest⟩

theorem node (h : Matches journal s d) (hg : s.template.dag = g) :
    d.node g = s.current.map StageDefinition.stageId := by
  subst hg
  rw [DagState.node, h.position, dag_nodeAt]
  rfl

/-- The input that the runner reads from the journal is the one of the reference run. -/
theorem selectInput (h : Matches journal s d) (hg : s.template.dag = g) (hs : Saveable s) :
    selectInput journal s = .ok (d.input g) := by
  subst hg
  unfold Runner.selectInput
  cases hi : s.pendingInput with
  | some i =>
    obtain ⟨-, response, hr, hdec, hd⟩ := h.moved i hi
    have hcur := (hs.input i hi).2
    have hinput : d.input s.template.dag = response.data := by rw [DagState.input, hd]; rfl
    rw [hinput]
    exact hr.moveInput hcur hdec
  | none =>
    have hinput : d.input s.template.dag = d.handed s.template.dag := by rw [DagState.input, h.unmoved hi]; rfl
    rw [hinput, DagState.handed, h.position, dag_nodeAt]
    dsimp only
    by_cases hfirst : s.stagePosition = 1
    · rw [if_pos hfirst, hfirst]
      rfl
    · rw [if_neg hfirst]
      obtain ⟨previous, hprev⟩ : ∃ previous, s.template.stageAt (s.stagePosition - 1) = some previous := by
        apply ExperimentTemplate.stageAt_exists <;> have := hs.position <;> omega
      rw [hprev]
      show predecessorInput journal s previous.stageId = .ok ((d.results previous.stageId).getD .null)
      cases hid : s.stageResultIds.get? previous.stageId with
      | none =>
        rw [predecessorInput, hid, h.absent previous.stageId hid]
        rfl
      | some requestId =>
        obtain ⟨-, response, hr, hd⟩ := h.current previous.stageId requestId hid
        rw [hr.predecessor hid, hd]
        rfl

/-- Accepting a result makes it the current one of the node under the cursor. -/
theorem record (h : Matches journal s d) (hg : s.template.dag = g) {stageId requestId : String} {response : StageResult} {data : Json}
    (hcur : s.current.map StageDefinition.stageId = some stageId) (hused : requestId ∈ s.usedRequestIds)
    (hr : Accepted journal requestId s.experimentId stageId response) (last : Option String) :
    Matches journal
      { s with
        lastResult := data
        lastResultId := last
        stageResultIds := s.stageResultIds.set stageId requestId
        stageResultOrigins := s.stageResultOrigins.set stageId s.experimentId }
      (d.record g (some response.data)) := by
  have hnode : d.node g = some stageId := (h.node hg).trans hcur
  refine ⟨h.cycle, h.position, h.unfinished, h.retries, ?_, ?_, h.unmoved, h.moved⟩
  · intro k hk
    by_cases hks : k = stageId
    · simp [hks] at hk
    · have hne : ¬ stageId = k := fun e => hks e.symm
      simp only [Dict.get?_set, if_neg hks] at hk
      simpa [DagState.record, hnode, hne] using h.absent k hk
  · intro k id hk
    by_cases hks : k = stageId
    · subst hks
      simp only [Dict.get?_set, if_true, Option.some.injEq] at hk
      subst hk
      exact ⟨hused, response, by simpa [RunnerState.origin] using hr, by simp [DagState.record, hnode]⟩
    · have hne : ¬ stageId = k := fun e => hks e.symm
      simp only [Dict.get?_set, if_neg hks] at hk
      simpa [DagState.record, hnode, hne, RunnerState.origin, hks] using h.current k id hk

/-- Keeping only some results is what invalidates the others. -/
theorem keepResults (h : Matches journal s d) (p : String → Bool) :
    Matches journal (s.keepResults p) { d with results := fun k => if p k then d.results k else none } := by
  refine ⟨h.cycle, h.position, h.unfinished, h.retries, ?_, ?_, h.unmoved, h.moved⟩
  · intro k hk
    simp only [RunnerState.keepResults, Dict.get?_keep] at hk
    cases hp : p k with
    | true => simpa [hp] using h.absent k (by simpa [hp] using hk)
    | false => simp [hp]
  · intro k id hk
    simp only [RunnerState.keepResults, Dict.get?_keep] at hk
    cases hp : p k with
    | true => simpa [hp, RunnerState.origin, RunnerState.keepResults] using h.current k id (by simpa [hp] using hk)
    | false => simp [hp] at hk

/-- Forgetting the result of the node under the cursor. -/
theorem drop (h : Matches journal s d) (hg : s.template.dag = g) {stageId : String}
    (hcur : s.current.map StageDefinition.stageId = some stageId) :
    Matches journal (s.clearLastResult.popResult stageId) (d.record g none) := by
  have hnode : d.node g = some stageId := (h.node hg).trans hcur
  have hkeep := (h.frame (t := s.clearLastResult) (samePlace_of_eq rfl rfl rfl rfl rfl rfl rfl rfl)).keepResults
    (fun k => k != stageId)
  have hsame : { d with results := fun k => if (fun k => k != stageId) k then d.results k else none } =
      d.record g none := by
    rw [DagState.record, hnode]
    congr 1
    funext k
    by_cases hk : k = stageId
    · simp [hk]
    · have hne : ¬ stageId = k := fun e => hk e.symm
      simp [hk, hne]
  rw [hsame] at hkeep
  exact hkeep

theorem charge (h : Matches journal s d) (hg : s.template.dag = g) {stageId : String}
    (hcur : s.current.map StageDefinition.stageId = some stageId) :
    Matches journal (chargeRetry s stageId (s.retriesUsed stageId)) (d.charge g) := by
  have hnode : d.node g = some stageId := (h.node hg).trans hcur
  refine ⟨h.cycle, h.position, h.unfinished, ?_, h.absent, h.current, h.unmoved, h.moved⟩
  intro k
  by_cases hk : k = stageId
  · subst hk
    simp [DagState.charge, hnode, chargeRetry, RunnerState.retriesUsed, h.retries]
  · have hne : ¬ stageId = k := fun e => hk e.symm
    simpa [DagState.charge, hnode, hne, chargeRetry, RunnerState.retriesUsed, hk] using h.retries k

/-- The cursor advances as the reference run does, unless the run is over. -/
theorem advance (h : Matches journal s d) (hg : s.template.dag = g) (hs : Saveable s)
    (hend : ¬ (s.stagePosition = s.template.stages.length ∧ s.cycleNumber = s.template.cycles)) :
    Matches journal (advanceCursor s) (d.advance g) := by
  subst hg
  have hlen : s.template.dag.nodes.length = s.template.stages.length := List.length_map ..
  have hpos := hs.position
  have hcycle := hs.cycle
  by_cases hlast : s.stagePosition + 1 > s.template.stages.length
  · have hcur : advanceCursor s = startCycle { s with
        pendingInput := none
        stagePosition := s.stagePosition + 1 } := if_pos hlast
    have hadv : d.advance s.template.dag = { d with
        cycle := d.cycle + 1
        position := 1
        moved := none
        results := fun _ => none } := by
      rw [DagState.advance, if_neg (by rw [h.position, hlen]; omega),
        if_pos (by rw [h.cycle]; show s.cycleNumber < s.template.cycles; omega)]
    rw [hcur, hadv]
    refine ⟨?_, rfl, h.unfinished, h.retries, fun _ _ => rfl, ?_, fun _ => rfl, ?_⟩
    · exact congrArg (· + 1) h.cycle
    · intro k id hk
      cases hk
    · intro i hi
      cases hi
  · have hcur : advanceCursor s = { s with
        pendingInput := none
        stagePosition := s.stagePosition + 1 } := if_neg hlast
    have hadv : d.advance s.template.dag = { d with position := d.position + 1, moved := none } := by
      rw [DagState.advance, if_pos (by rw [h.position, hlen]; omega)]
    rw [hcur, hadv]
    refine ⟨h.cycle, congrArg (· + 1) h.position, h.unfinished, h.retries, h.absent, h.current, fun _ => rfl, ?_⟩
    intro i hi
    cases hi

/-- A move assigns the output of its source and invalidates its target and what follows. -/
theorem jump (h : Matches journal s d) (hg : s.template.dag = g) {source : LastDecision} {target : String} {position : Nat}
    {response : StageResult} (hpos : s.template.positionOf target = some position)
    (hused : source.requestId ∈ s.usedRequestIds)
    (hr : Accepted journal source.requestId source.experimentId source.sourceStageId response)
    (hdec : response.dagDecision = some (some (.move target))) :
    let suffix := s.template.stageIds.drop (position - 1)
    Matches journal
      { s.keepResults (fun k => k ∉ suffix) with
        pendingInput := some ⟨source.requestId, source.sourceStageId, source.experimentId, target⟩
        stageRetryCounts := s.stageRetryCounts.keep (fun k => k ∉ suffix)
        stagePosition := position }
      (d.jump g target response.data) := by
  intro suffix
  subst hg
  have hkeep := h.keepResults (fun k => k ∉ suffix)
  have hjump : d.jump s.template.dag target response.data = { d with
      position := position
      moved := some response.data
      results := fun k => if k ∈ suffix then none else d.results k
      retries := fun k => if k ∈ suffix then 0 else d.retries k } := by
    rw [DagState.jump, dag_positionOf, hpos]
    rfl
  have hresults : (fun k => if (fun k => decide (k ∉ suffix)) k then d.results k else none) =
      fun k => if k ∈ suffix then none else d.results k := by
    funext k
    by_cases hk : k ∈ suffix <;> simp [hk]
  rw [hresults] at hkeep
  rw [hjump]
  refine ⟨h.cycle, rfl, h.unfinished, ?_, hkeep.absent, hkeep.current, ?_, ?_⟩
  · intro k
    by_cases hk : k ∈ suffix
    · simp [RunnerState.retriesUsed, hk]
    · simpa [RunnerState.retriesUsed, hk] using h.retries k
  · intro hi
    cases hi
  · intro i hi
    obtain rfl := Option.some.inj hi
    exact ⟨hused, response, hr, hdec, rfl⟩

/-- A result that no cursor refers to may enter the journal. -/
theorem store (h : Matches journal s d) {key : String} {value : JournalResult}
    (hresults : ∀ k, s.stageResultIds.get? k ≠ some key) (hinput : ∀ i, s.pendingInput = some i → i.requestId ≠ key) :
    Matches (journal.set key value) s d := by
  refine ⟨h.cycle, h.position, h.unfinished, h.retries, h.absent, ?_, h.unmoved, ?_⟩
  · intro k id hk
    obtain ⟨hid, response, hr, hd⟩ := h.current k id hk
    exact ⟨hid, response, hr.set (fun e => hresults k (e ▸ hk)), hd⟩
  · intro i hi
    obtain ⟨hid, response, hr, hrest⟩ := h.moved i hi
    exact ⟨hid, response, hr.set (hinput i hi), hrest⟩

end Matches

end ModularPipelines.Runner
