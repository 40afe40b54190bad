import ModularPipelines.Runner.Reload
import ModularPipelines.Runner.Execute
import ModularPipelines.Runner.Saved

namespace ModularPipelines.Runner
open Library Services

/-- The deferred decision belongs to the accepted result of the node under the cursor. -/
structure PendingSound (s : RunnerState) (d : LastDecision) : Prop where
  noAttempt : s.activeAttempt = none
  noDecision : s.lastDagDecision = none
  lastResult : s.lastResultId = some d.requestId
  result : s.stageResultIds.get? d.sourceStageId = some d.requestId
  current : s.current.map StageDefinition.stageId = some d.sourceStageId
  target : ∀ target, d.decision = some (.move target) → target ∈ s.template.stageIds

/-- What every saved state satisfies, whatever the scheduler does next. -/
structure Saveable (s : RunnerState) : Prop where
  position : 1 ≤ s.stagePosition ∧ s.stagePosition ≤ s.template.stages.length
  cycle : 1 ≤ s.cycleNumber ∧ s.cycleNumber ≤ s.template.cycles
  origins : s.stageResultOrigins.Within s.stageResultIds
  input : ∀ i, s.pendingInput = some i →
    i.sourceStageId ∈ s.template.stageIds ∧ s.current.map StageDefinition.stageId = some i.stageId
  last : ∀ d, s.lastDagDecision = some d → d.sourceStageId ∈ s.template.stageIds ∧
    ∀ target, d.decision = some (.move target) → s.pendingInput.map PendingInput.stageId = some target
  pending : ∀ d, s.pendingDagDecision = some d → PendingSound s d
  rebuild : ∀ r, s.pendingRebuild = some r → s.stableSnapshotId = some r.snapshotId
  used : s.usedRequestIds.Nodup
  retained : s.retainedArtifacts.Nodup

/-- Two states that the decode check of a checkpoint does not tell apart. -/
structure SameSaved (s t : RunnerState) : Prop where
  template : t.template = s.template
  stagePosition : t.stagePosition = s.stagePosition
  cycleNumber : t.cycleNumber = s.cycleNumber
  stageResultIds : t.stageResultIds = s.stageResultIds
  stageResultOrigins : t.stageResultOrigins = s.stageResultOrigins
  pendingInput : t.pendingInput = s.pendingInput
  lastDagDecision : t.lastDagDecision = s.lastDagDecision
  pendingDagDecision : t.pendingDagDecision = s.pendingDagDecision
  activeAttempt : t.activeAttempt = s.activeAttempt
  lastResultId : t.lastResultId = s.lastResultId
  pendingRebuild : t.pendingRebuild = s.pendingRebuild
  stableSnapshotId : t.stableSnapshotId = s.stableSnapshotId
  usedRequestIds : t.usedRequestIds = s.usedRequestIds
  retainedArtifacts : t.retainedArtifacts = s.retainedArtifacts

theorem current_congr {s t : RunnerState} (ht : t.template = s.template)
    (hp : t.stagePosition = s.stagePosition) : t.current = s.current := by
  rw [RunnerState.current, RunnerState.current, ht, hp]

theorem SameSaved.saveable {s t : RunnerState} (h : SameSaved s t) (hs : Saveable s) : Saveable t := by
  have hcur := current_congr h.template h.stagePosition
  constructor
  · rw [h.stagePosition, h.template]
    exact hs.position
  · rw [h.cycleNumber, h.template]
    exact hs.cycle
  · rw [h.stageResultOrigins, h.stageResultIds]
    exact hs.origins
  · rw [h.pendingInput, h.template, hcur]
    exact hs.input
  · rw [h.lastDagDecision, h.template, h.pendingInput]
    exact hs.last
  · intro d hd
    rw [h.pendingDagDecision] at hd
    obtain ⟨h1, h2, h3, h4, h5, h6⟩ := hs.pending d hd
    exact ⟨h.activeAttempt.trans h1, h.lastDagDecision.trans h2, h.lastResultId.trans h3,
      by rw [h.stageResultIds]; exact h4, by rw [hcur]; exact h5, by rw [h.template]; exact h6⟩
  · rw [h.pendingRebuild, h.stableSnapshotId]
    exact hs.rebuild
  · rw [h.usedRequestIds]
    exact hs.used
  · rw [h.retainedArtifacts]
    exact hs.retained

namespace Saveable

variable {s : RunnerState}

theorem current_mem {d : StageDefinition} (h : s.current = some d) : d.stageId ∈ s.template.stageIds :=
  List.mem_map_of_mem (ExperimentTemplate.stageAt_mem h)

theorem stage_mem {stageId : String} (h : s.current.map StageDefinition.stageId = some stageId) :
    stageId ∈ s.template.stageIds := by
  obtain ⟨d, hd, rfl⟩ := Option.map_eq_some_iff.mp h
  exact current_mem hd

theorem move_target (h : Saveable s) {d : LastDecision} {target : String} (hd : s.lastDagDecision = some d)
    (ht : d.decision = some (.move target)) : target ∈ s.template.stageIds := by
  obtain ⟨i, hi, rfl⟩ := Option.map_eq_some_iff.mp ((h.last d hd).2 target ht)
  exact stage_mem (h.input i hi).2

theorem bind_target {decision : Option DagCommand} {target : String}
    (h : decision.bind DagCommand.target? = some target) : decision = some (.move target) := by
  obtain ⟨c, rfl, hc⟩ := Option.bind_eq_some_iff.mp h
  cases c with
  | move t => exact congrArg (some ∘ DagCommand.move) (Option.some.inj hc)
  | pause => cases hc
  | stop => cases hc

theorem validateTransitions (h : Saveable s) : validateTransitions s = .ok () := by
  unfold Runner.validateTransitions
  simp only [rejectIf_then, rejectIf_ok]
  refine ⟨?_, ?_, ?_, ?_, ?_, ?_, ?_, ?_⟩
  · intro h'
    obtain ⟨i, hi, hn⟩ := h'
    exact hn (h.input i hi).1
  · intro h'
    obtain ⟨d, hd, hn⟩ := h'
    exact hn (h.last d hd).1
  · intro h'
    obtain ⟨d, hd, hn⟩ := h'
    exact hn (stage_mem (h.pending d hd).current)
  · intro h'
    obtain ⟨i, hi, hn⟩ := h'
    exact hn (stage_mem (h.input i hi).2)
  · intro h'
    obtain ⟨i, hi, hn⟩ := h'
    exact hn (h.input i hi).2
  · intro h'
    obtain ⟨d, hd, target, ht, hn⟩ := h'
    exact hn (h.move_target hd (bind_target ht))
  · intro h'
    obtain ⟨d, hd, hn⟩ := h'
    obtain ⟨h1, h2, h3, h4, h5, -⟩ := h.pending d hd
    simp [h1, h2, h3, h4, h5] at hn
  · intro h'
    obtain ⟨d, hd, target, ht, hn⟩ := h'
    exact hn ((h.pending d hd).target target (bind_target ht))

/-- The decode check of a checkpoint is the one of its service requests. -/
theorem validateReferences (h : Saveable s) :
    validateReferences s = checkServices s.usedRequestIds [] s.services.entries := by
  have hrebuild : ¬ ∃ r ∈ s.pendingRebuild, s.stableSnapshotId ≠ some r.snapshotId := by
    intro ⟨r, hr, hn⟩
    exact hn (h.rebuild r hr)
  have horigins : ¬ ∃ key ∈ s.stageResultOrigins.keys, s.stageResultIds.contains key = false := by
    intro ⟨key, hkey, hn⟩
    have := h.origins key (Dict.mem_keys.mp hkey)
    rw [Dict.contains, this] at hn
    cases hn
  rw [Runner.validateReferences, rejectIf_of_not hrebuild, ok_bind, rejectIf_of_not (not_not.mpr h.used), ok_bind,
    rejectIf_of_not horigins, ok_bind, rejectIf_of_not (not_not.mpr h.retained), ok_bind, h.validateTransitions]
  cases checkServices s.usedRequestIds [] s.services.entries <;> rfl

/-- A state without a deferred decision may change its attempt and its last result. -/
theorem withAttempt (h : Saveable s) (hp : s.pendingDagDecision = none) (attempt : Option StageAttempt)
    (numbers : Dict Nat) (data : Json) (resultId : Option String) :
    Saveable { s with
      activeAttempt := attempt
      stageAttemptNumbers := numbers
      lastResult := data
      lastResultId := resultId } := by
  refine ⟨h.position, h.cycle, h.origins, h.input, h.last, ?_, h.rebuild, h.used, h.retained⟩
  intro d hd
  cases hp.symm.trans hd

theorem noDecision (h : Saveable s) : Saveable { s with lastDagDecision := none } := by
  refine ⟨h.position, h.cycle, h.origins, h.input, ?_, ?_, h.rebuild, h.used, h.retained⟩
  · intro d hd
    cases hd
  · intro d hd
    obtain ⟨h1, -, h3, h4, h5, h6⟩ := h.pending d hd
    exact ⟨h1, rfl, h3, h4, h5, h6⟩

theorem noPending (h : Saveable s) : Saveable { s with pendingDagDecision := none } := by
  refine ⟨h.position, h.cycle, h.origins, h.input, h.last, ?_, h.rebuild, h.used, h.retained⟩
  intro d hd
  cases hd

theorem keepResults (h : Saveable s) (hp : s.pendingDagDecision = none) (p : String → Bool) :
    Saveable (s.keepResults p) := by
  refine ⟨h.position, h.cycle, h.origins.keep p, h.input, h.last, ?_, h.rebuild, h.used, h.retained⟩
  intro d hd
  cases hp.symm.trans hd

theorem setResult (h : Saveable s) (hp : s.pendingDagDecision = none) (stageId requestId : String) :
    Saveable { s with
      stageResultIds := s.stageResultIds.set stageId requestId
      stageResultOrigins := s.stageResultOrigins.set stageId s.experimentId } := by
  refine ⟨h.position, h.cycle, h.origins.set stageId s.experimentId requestId, h.input, h.last, ?_, h.rebuild,
    h.used, h.retained⟩
  intro d hd
  cases hp.symm.trans hd

theorem withSnapshot (h : Saveable s) (hr : s.pendingRebuild = none) (snapshotId : Option String) :
    Saveable { s with stableSnapshotId := snapshotId } := by
  refine ⟨h.position, h.cycle, h.origins, h.input, h.last, ?_, ?_, h.used, h.retained⟩
  · intro d hd
    obtain ⟨h1, h2, h3, h4, h5, h6⟩ := h.pending d hd
    exact ⟨h1, h2, h3, h4, h5, h6⟩
  · intro r hr'
    cases hr.symm.trans hr'

theorem withRequests (h : Saveable s) {used : List String} (hu : used.Nodup) :
    Saveable { s with usedRequestIds := used } := by
  refine ⟨h.position, h.cycle, h.origins, h.input, h.last, ?_, h.rebuild, hu, h.retained⟩
  intro d hd
  obtain ⟨h1, h2, h3, h4, h5, h6⟩ := h.pending d hd
  exact ⟨h1, h2, h3, h4, h5, h6⟩

theorem useRequest (h : Saveable s) (requestId : String) : Saveable (s.useRequest requestId) := by
  apply h.withRequests
  split
  · exact h.used
  · rename_i hn
    exact List.nodup_append.mpr ⟨h.used, List.nodup_singleton requestId, by
      intro x hx y hy hxy
      exact hn (List.mem_singleton.mp hy ▸ hxy ▸ hx)⟩

theorem retainArtifacts (h : Saveable s) (found : List String) :
    Saveable { s with
      retainedArtifacts := (s.retainedArtifacts ++ found).dedup.mergeSort (fun x y => decide (x ≤ y)) } := by
  refine ⟨h.position, h.cycle, h.origins, h.input, h.last, ?_, h.rebuild, h.used, ?_⟩
  · intro d hd
    obtain ⟨h1, h2, h3, h4, h5, h6⟩ := h.pending d hd
    exact ⟨h1, h2, h3, h4, h5, h6⟩
  · exact (List.mergeSort_perm _ _).nodup_iff.mpr (List.nodup_dedup _)

/-- Moving the cursor by command forgets the transferred input and the decisions. -/
theorem relocate (h : Saveable s) {position : Nat} (hp : 1 ≤ position)
    (hl : position ≤ s.template.stages.length) : Saveable (s.relocate position) := by
  refine ⟨⟨hp, hl⟩, h.cycle, h.origins, ?_, ?_, ?_, h.rebuild, h.used, h.retained⟩
  all_goals
    intro d hd
    cases hd

theorem dropStaleResult (h : Saveable s) (hp : s.pendingDagDecision = none) : Saveable (dropStaleResult s) := by
  unfold Runner.dropStaleResult
  split
  · exact h
  · exact h.withAttempt hp s.activeAttempt s.stageAttemptNumbers .null none

end Saveable

end ModularPipelines.Runner
