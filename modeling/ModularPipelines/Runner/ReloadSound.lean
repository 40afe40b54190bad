import ModularPipelines.Runner.Transitions

namespace ModularPipelines.Runner
open Library Services

/-- What a plan promises about the state that it will publish. -/
structure PlanSound (s : RunnerState) (plan : ReloadPlan) : Prop where
  cycles : plan.candidate.cycles = s.template.cycles
  position : 1 ≤ plan.cursor.stagePosition ∧ plan.cursor.stagePosition ≤ plan.candidate.stages.length
  preserved : ∀ id ∈ plan.cursor.preserved, id ∈ plan.candidate.stageIds

theorem reloadCursor_position (layout : ReloadLayout) (completed : List String) :
    1 ≤ (reloadCursor layout completed).stagePosition ∧
      (reloadCursor layout completed).stagePosition ≤ layout.candidate.stages.length := by
  have hpos := layout.candidate.stages_length_pos
  have hclamp : ∀ n size : Nat, 0 < size → 1 ≤ (if min n size == size then size else min n size + 1) ∧
      (if min n size == size then size else min n size + 1) ≤ size := by
    intro n size hsize
    split
    · omega
    · rename_i hend
      have hne := mt beq_iff_eq.mpr hend
      omega
  exact hclamp _ _ hpos

theorem planReload_sound {a : ActiveRunner} {candidate : ExperimentTemplate} {completed : List String}
    {revision run operationId : String} {plan : ReloadPlan}
    (hok : planReload a candidate completed revision run operationId = .ok plan) : PlanSound a.state plan := by
  obtain ⟨u, hcheck, hok⟩ := bind_ok.mp hok
  obtain ⟨layout, hlayout, hok⟩ := bind_ok.mp hok
  obtain rfl := Except.ok.inj hok
  have hcycles : candidate.cycles = a.state.template.cycles := by
    unfold checkReloadCandidate at hcheck
    exact not_not.mp (rejectIf_then.mp hcheck).1
  have hcandidate : layout.candidate = candidate := by
    unfold reloadLayout at hlayout
    obtain ⟨-, hl⟩ := rejectIf_then.mp hlayout
    exact congrArg ReloadLayout.candidate (Except.ok.inj hl).symm
  have hpos := reloadCursor_position layout completed
  rw [hcandidate] at hpos
  refine ⟨hcycles, hpos, ?_⟩
  intro id hid
  obtain ⟨d, hd, rfl⟩ := List.mem_map.mp hid
  rw [hcandidate] at hd
  exact List.mem_map_of_mem (List.mem_of_mem_take hd)

theorem publishReload_ok {journal : ResultTable} {a b : ActiveRunner} {plan : ReloadPlan}
    (hok : publishReload journal a plan = .ok b) :
    ∃ last, b = a.publish plan last := by
  obtain ⟨last, -, hok⟩ := bind_ok.mp hok
  exact ⟨last, (Except.ok.inj hok).symm⟩

/-- A published reload keeps only transitions whose nodes the new DAG still has. -/
theorem publish_saveable {a : ActiveRunner} {plan : ReloadPlan} (h : Saveable a.state)
    (hp : a.state.pendingDagDecision = none) (hplan : PlanSound a.state plan) (last : Option (String × Json)) :
    Saveable (a.publish plan last).state := by
  have hcycle := hplan.cycles ▸ h.cycle
  refine ⟨hplan.position, hcycle, h.origins.keep _, ?_, ?_, ?_, h.rebuild, h.used, h.retained⟩
  · intro i hi
    obtain ⟨hi, hcond⟩ := Option.filter_eq_some_iff.mp hi
    simp only [Bool.and_eq_true, beq_iff_eq, List.contains_iff_mem] at hcond
    exact ⟨hplan.preserved _ hcond.1.1, hcond.2⟩
  · intro d hd
    obtain ⟨hd, hcond⟩ := Option.filter_eq_some_iff.mp hd
    simp only [Bool.and_eq_true, List.contains_iff_mem, Bool.not_eq_true', Bool.and_eq_false_iff] at hcond
    refine ⟨hplan.preserved _ hcond.1, ?_⟩
    intro target ht
    obtain hbad | hsome := hcond.2
    · simp [ht, DagCommand.target?] at hbad
    · have htarget := (h.last d hd).2 target ht
      obtain ⟨i, hi⟩ := Option.isSome_iff_exists.mp (by simpa using hsome)
      have hi' := (Option.filter_eq_some_iff.mp hi).1
      rw [hi'] at htarget
      exact (congrArg (Option.map PendingInput.stageId) hi).trans htarget
  · intro d hd
    cases hp.symm.trans hd

/-- Naming the origin of every kept result leaves no origin without a result. -/
theorem origins_within {ids : Dict String} (experimentId : String) (keys : List String) (origins : Dict String)
    (h : origins.Within ids) (hkeys : ∀ key ∈ keys, (ids.get? key).isSome) :
    (keys.foldl (fun o key => if o.contains key then o else o.set key experimentId) origins).Within ids := by
  induction keys generalizing origins with
  | nil => exact h
  | cons key rest ih =>
    apply ih
    · dsimp only
      split
      · exact h
      · intro other hother
        by_cases hk : other = key
        · rw [hk]
          exact hkeys key List.mem_cons_self
        · exact h other (by simpa [hk] using hother)
    · intro other hother
      exact hkeys other (List.mem_cons_of_mem _ hother)

theorem restoreProtective_saveable {a : ActiveRunner} {saved : RunnerState} (h : Saveable saved)
    (services : Dict ServiceInstance) : Saveable (restoreProtective a saved services).state := by
  have horigins := origins_within saved.experimentId saved.stageResultIds.keys saved.stageResultOrigins h.origins
    (fun key hkey => Dict.mem_keys.mp hkey)
  have hused : ((saved.usedRequestIds ++ a.state.usedRequestIds).dedup.mergeSort
      (fun x y => decide (x ≤ y))).Nodup := (List.mergeSort_perm _ _).nodup_iff.mpr (List.nodup_dedup _)
  refine ⟨h.position, h.cycle, horigins, h.input, h.last, ?_, h.rebuild, hused, h.retained⟩
  intro d hd
  obtain ⟨h1, h2, h3, h4, h5, h6⟩ := h.pending d hd
  exact ⟨h1, h2, h3, h4, h5, h6⟩

/-- What a scheduler that starts again leaves, on a state without a deferred decision. -/
theorem restartScheduler_ok {a b : ActiveRunner} (hp : a.state.pendingDagDecision = none)
    (hok : restartScheduler a = .ok b) :
    SameSaved a.state b.state ∧ b.state.mode = .paused ∧ b.desiredMode = .paused ∧ b.stepFuture = a.stepFuture ∧
      b.maintenance = false := by
  unfold restartScheduler at hok
  obtain ⟨c, hc, hok⟩ := bind_ok.mp hok
  unfold applyPendingDagDecision at hc
  rw [show _ = none from hp] at hc
  obtain rfl := Except.ok.inj hc
  obtain rfl := Except.ok.inj hok
  refine ⟨?_, rfl, rfl, rfl, rfl⟩
  constructor <;> rfl

end ModularPipelines.Runner
