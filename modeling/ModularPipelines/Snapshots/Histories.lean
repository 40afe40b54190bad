import ModularPipelines.Snapshots.Boundary
import ModularPipelines.Snapshots.Restored

namespace ModularPipelines.Snapshots
open Library Services Runner

/-- A pause that the restored run starts with, or applies when it starts. -/
def restoresPause (s : RunnerState) : Bool := s.conditionalPause || s.pendingDagDecision.any LastDecision.isPause

/-- What a run can go on from: its own references are in its journal. -/
structure Resumable (journal : ResultTable) (s : RunnerState) (paths : List String) : Prop where
  saveable : Saveable s
  attempt : s.activeAttempt = none
  rebuild : s.pendingRebuild = none
  recorded : Recorded journal s
  stored : ∀ id, (journal.get? id).isSome → id ∈ s.usedRequestIds
  retained : Retains s paths
  kept : s.pendingAdvance = true → Runner.Kept s

theorem useRequests_used (s : RunnerState) (ids : List String) :
    ∃ used, (∀ id ∈ s.usedRequestIds, id ∈ used) ∧ (s.usedRequestIds.Nodup → used.Nodup) ∧
      ids.foldl RunnerState.useRequest s = { s with usedRequestIds := used } := by
  induction ids generalizing s with
  | nil => exact ⟨s.usedRequestIds, fun _ hid => hid, id, rfl⟩
  | cons first rest ih =>
    obtain ⟨used, hused, hnodup, heq⟩ := ih (s.useRequest first)
    refine ⟨used, fun id hid => hused id (RunnerState.mem_useRequest first hid), ?_, heq⟩
    intro h
    apply hnodup
    unfold RunnerState.useRequest
    split
    · exact h
    · rename_i hnew
      exact List.nodup_append.mpr ⟨h, List.nodup_singleton first, fun a ha b hb he =>
        hnew (List.mem_singleton.mp hb ▸ he ▸ ha)⟩

theorem applyPendingDagDecision_pause {a b : ActiveRunner} (h : Saveable a.state)
    (hok : applyPendingDagDecision a = .ok b) (hpause : b.state.conditionalPause = true) :
    restoresPause a.state = true := by
  unfold applyPendingDagDecision at hok
  split at hok
  · obtain rfl := Except.ok.inj hok
    simp [restoresPause, hpause]
  · rename_i source hsome
    have hp := h.pending source hsome
    have hd := applyDagDecision_decided (a := a.deferred none) h.noPending rfl (Saveable.stage_mem hp.current) hok
    have hsource : source.isPause = true := by simpa [RunnerState.conditionalPause, hd.decision] using hpause
    simp [restoresPause, hsome, hsource]

theorem applyPendingDagDecision_frame {a b : ActiveRunner} (h : Saveable a.state)
    (hok : applyPendingDagDecision a = .ok b) :
    Saveable b.state ∧ DagFrame a b ∧ b.state.pendingDagDecision = none := by
  cases hpending : a.state.pendingDagDecision with
  | none =>
    unfold applyPendingDagDecision at hok
    rw [hpending] at hok
    obtain rfl := Except.ok.inj hok
    exact ⟨h, .refl a, hpending⟩
  | some source =>
    have hpause : PauseSound a := pauseSound_of_none (h.pending source hpending).noDecision
    obtain ⟨hsave, -, hframe, hnone⟩ := applyPendingDagDecision_sound h hpause hok
    exact ⟨hsave, hframe, hnone⟩

theorem startScheduler_record (b : ActiveRunner) : SameRecord b.state (startScheduler b).state := by
  refine ⟨rfl, rfl, rfl, rfl, rfl, rfl, rfl, ?_, .inr rfl⟩
  unfold startScheduler
  dsimp only
  split
  · exact .inl rfl
  · exact .inr rfl

theorem startScheduler_saveable {b : ActiveRunner} (h : Saveable b.state) : Saveable (startScheduler b).state := by
  obtain hnone | hsame := (startScheduler_record b).last
  · exact SameSaved.saveable (s := { b.state with lastDagDecision := none })
      ⟨rfl, rfl, rfl, rfl, rfl, rfl, hnone, rfl, rfl, rfl, rfl, rfl, rfl, rfl⟩ h.noDecision
  · exact SameSaved.saveable (s := b.state) ⟨rfl, rfl, rfl, rfl, rfl, rfl, hsame, rfl, rfl, rfl, rfl, rfl, rfl, rfl⟩ h

theorem startScheduler_pause {b : ActiveRunner} (h : (startScheduler b).state.conditionalPause = true) :
    b.state.conditionalPause = true ∧ b.desiredMode = .paused := by
  unfold startScheduler RunnerState.conditionalPause at h
  dsimp only at h
  split at h
  · cases h
  · rename_i hnot
    refine ⟨h, ?_⟩
    cases hmode : b.desiredMode with
    | paused => rfl
    | running => exact (hnot ⟨hmode, h⟩).elim

theorem synced_sound {m : Machine} (h : Sound m) : Sound m.synced :=
  h.frame (SameSaved.saveable (by constructor <;> rfl) h.saveable) (by constructor <;> rfl) rfl id

theorem saveable_released {s : RunnerState} (h : Saveable s) : Saveable { s with activeAttempt := none } := by
  refine ⟨h.position, h.cycle, h.origins, h.input, h.last, ?_, h.rebuild, h.used, h.retained⟩
  intro d hd
  obtain ⟨-, h2, h3, h4, h5, h6⟩ := h.pending d hd
  exact ⟨rfl, h2, h3, h4, h5, h6⟩

/-- A restored run starts with no pause that its snapshot does not have. -/
theorem restored_pause {p : PublishedPayload} {stopped : RunnerState} {experimentId runId : String}
    {services : Dict ServiceInstance} {requestIds : List String}
    (h : restoresPause (serveRestored (restoredSavedState p stopped experimentId runId) services requestIds) = true) :
    restoresPause p.state = true := by
  obtain ⟨used, -, -, heq⟩ := useRequests_used (restoredSavedState p stopped experimentId runId) requestIds
  rw [serveRestored, heq] at h
  unfold restoresPause RunnerState.conditionalPause restoredSavedState restoredDecision at h
  dsimp only at h
  split at h
  · exact Bool.or_eq_true_iff.mpr (.inr (by simpa using h))
  · exact h

namespace Resumable

variable {journal : ResultTable} {a : ActiveRunner} {paths : List String} {desired : Mode} {m : Machine}

/-- A run that is prepared again refers to what its state refers to. -/
theorem grounded {b : ActiveRunner} {p : Point} (h : Resumable journal a.state paths) (hrec : Recorded journal b.state)
    (hkept : b.pendingAdvance = true → Runner.Kept b.state) (hused : b.state.usedRequestIds = a.state.usedRequestIds)
    (hretained : b.state.retainedArtifacts = a.state.retainedArtifacts)
    (hpoint : PointGrounded journal b.state paths p) : Grounded (Machine.synced ⟨b, p, journal, false⟩) paths :=
  ⟨hrec.frame ⟨rfl, rfl, rfl, rfl, rfl, rfl, rfl, .inr rfl, .inr rfl⟩, fun id hid => hused ▸ h.stored id hid,
    fun path => hretained ▸ h.retained path, hkept, hkept, hpoint.frame rfl rfl⟩

theorem prepare (h : Resumable journal a.state paths) (hstep : restoresPause a.state = true → a.stepFuture = false)
    (hok : prepareDagState a desired journal = .ok m) : Sound m ∧ Grounded m paths := by
  obtain ⟨b, hb, hok⟩ := bind_ok.mp hok
  obtain ⟨hsave, hframe, hnone⟩ := applyPendingDagDecision_frame
    (a := { a with desiredMode := desired, pendingAdvance := a.state.pendingAdvance }) h.saveable hb
  obtain ⟨hrec, hkept⟩ := applyPendingDagDecision_recorded
    (a := { a with desiredMode := desired, pendingAdvance := a.state.pendingAdvance }) h.recorded h.saveable h.kept hb
  obtain ⟨hused, hretained⟩ := applyPendingDagDecision_kept hb
  have hattempt : b.state.activeAttempt = none := hframe.activeAttempt.trans h.attempt
  split at hok
  · obtain rfl := Except.ok.inj hok
    have hstopped : Saveable (b.stop .stopped).state := SameSaved.saveable (by constructor <;> rfl)
      (hsave.withAttempt hnone none b.state.stageAttemptNumbers b.state.lastResult b.state.lastResultId)
    have hsame : SameRecord b.state (b.stop .stopped).state := ⟨rfl, rfl, rfl, rfl, rfl, rfl, rfl, .inr rfl, .inr rfl⟩
    have hground : Grounded (Machine.synced ⟨b.stop .stopped, .ended, journal, false⟩) paths :=
      h.grounded (hrec.frame hsame) (fun hadv => hsame.kept (hkept hadv)) hused hretained trivial
    refine ⟨synced_sound ⟨hstopped, fun hp => absurd rfl hp, ?_, ?_, trivial⟩, hground⟩
    · intro hs
      cases hs
    · intro progress hp
      cases hp
  · obtain rfl := Except.ok.inj hok
    have hsame := startScheduler_record b
    have hground : Grounded (Machine.synced ⟨startScheduler b, .waiting, journal, false⟩) paths :=
      h.grounded (hrec.frame hsame) (fun hadv => hsame.kept (hkept hadv)) hused hretained trivial
    refine ⟨synced_sound ⟨startScheduler_saveable hsave, ?_, ?_, ?_, ⟨hattempt, hnone,
      hframe.pendingRebuild.trans h.rebuild⟩, ?_⟩, hground⟩
    · intro _ hpause
      obtain ⟨-, hdesired⟩ := startScheduler_pause hpause
      exact ⟨hdesired, hdesired⟩
    · intro hs
      cases hs
    · intro progress hp
      cases hp
    · intro hpause
      obtain ⟨hpause, -⟩ := startScheduler_pause hpause
      exact hframe.stepFuture.trans (hstep (applyPendingDagDecision_pause
        (a := { a with desiredMode := desired, pendingAdvance := a.state.pendingAdvance }) h.saveable hb hpause))

/-- A snapshot of a stage-free boundary. -/
theorem of_boundary (hs : Sound m) (hg : Grounded m paths) (hattempt : m.runner.state.activeAttempt = none)
    (hrebuild : m.runner.state.pendingRebuild = none) (phase : Phase) (snapshotId : String) (kind : SnapshotKind) :
    Resumable m.journal (snapshotState (m.runner.setPhase phase) snapshotId kind) paths := by
  have hsave : Saveable (snapshotState (m.runner.setPhase phase) snapshotId kind) := SameSaved.saveable
    (s := { m.runner.state with stableSnapshotId := some snapshotId }) (by constructor <;> rfl)
    (hs.saveable.withSnapshot hrebuild (some snapshotId))
  exact ⟨hsave, hattempt, hrebuild, hg.recorded.frame ⟨rfl, rfl, rfl, rfl, rfl, rfl, rfl, .inr rfl, .inr rfl⟩, hg.stored,
    hg.retained, hg.advancing⟩

theorem restored {p : PublishedPayload} (h : Resumable p.journal p.state paths)
    (hexperiment : p.experimentId = p.state.experimentId) (stopped : RunnerState) (experimentId runId : String) :
    Resumable p.journal (restoredSavedState p stopped experimentId runId) paths := by
  have hs := h.saveable
  have hused : (p.state.usedRequestIds ++ stopped.usedRequestIds).dedup.mergeSort (fun x y => decide (x ≤ y)) |>.Nodup :=
    (List.mergeSort_perm _ _).nodup_iff.mpr (List.nodup_dedup _)
  have hlast : restoredDecision p.state = none ∨ restoredDecision p.state = p.state.lastDagDecision := by
    unfold restoredDecision
    split
    · exact .inl rfl
    · exact .inr rfl
  have horigins := origins_within p.experimentId p.state.stageResultIds.keys p.state.stageResultOrigins hs.origins
    (fun key hkey => Dict.mem_keys.mp hkey)
  have hnamed := h.recorded.originate experimentId (restoredSavedState p stopped experimentId runId).stageResultOrigins (by
    intro k id hk
    rw [RunnerState.origin, ← hexperiment]
    exact origins_named _ _ _ _ (Dict.mem_keys.mpr (Option.isSome_iff_exists.mpr ⟨id, hk⟩)))
  refine ⟨⟨hs.position, hs.cycle, horigins, hs.input, ?_, ?_, hs.rebuild, hused, hs.retained⟩, h.attempt, h.rebuild,
    hnamed.frame ⟨rfl, rfl, rfl, rfl, rfl, rfl, rfl, hlast, .inr rfl⟩, ?_, h.retained, h.kept⟩
  · intro d hd
    obtain hnone | hsame := hlast
    · cases hnone.symm.trans hd
    · exact hs.last d (hsame ▸ hd)
  · intro d hd
    obtain ⟨h1, h2, h3, h4, h5, h6⟩ := hs.pending d hd
    refine ⟨h1, ?_, h3, h4, h5, h6⟩
    obtain hnone | hsame := hlast
    · exact hnone
    · exact hsame.trans h2
  · intro id hid
    show id ∈ (p.state.usedRequestIds ++ stopped.usedRequestIds).dedup.mergeSort _
    rw [List.mem_mergeSort, List.mem_dedup]
    exact List.mem_append_left _ (h.stored id hid)

theorem served {s : RunnerState} (h : Resumable journal s paths) (services : Dict ServiceInstance)
    (requestIds : List String) : Resumable journal (serveRestored s services requestIds) paths := by
  obtain ⟨used, hused, hnodup, heq⟩ := useRequests_used s requestIds
  unfold serveRestored
  rw [heq]
  exact ⟨SameSaved.saveable (s := { s with usedRequestIds := used }) (by constructor <;> rfl)
      (h.saveable.withRequests (hnodup h.saveable.used)), h.attempt, h.rebuild,
    h.recorded.frame ⟨rfl, rfl, rfl, rfl, rfl, rfl, rfl, .inr rfl, .inr rfl⟩, fun id hid => hused id (h.stored id hid),
    h.retained, h.kept⟩

theorem activate {s : RunnerState} (h : Resumable journal s paths) (hstep : restoresPause s = true → a.stepFuture = false)
    (hok : activateRestored a s journal = .ok m) : Sound m ∧ Grounded m paths := by
  unfold activateRestored at hok
  dsimp only at hok
  split at hok
  · obtain rfl := Except.ok.inj hok
    have hsave : Saveable { s with activeAttempt := none, phase := .stopped } :=
      SameSaved.saveable (by constructor <;> rfl) (saveable_released h.saveable)
    have hsame : SameRecord s { s with activeAttempt := none, phase := .stopped } :=
      ⟨rfl, rfl, rfl, rfl, rfl, rfl, rfl, .inr rfl, .inr rfl⟩
    refine ⟨⟨hsave, fun hp => absurd rfl hp, ?_, ?_, trivial⟩,
      ⟨h.recorded.frame hsame, h.stored, h.retained, fun hadv => hsame.kept (h.kept hadv),
        fun hadv => hsame.kept (h.kept hadv), trivial⟩⟩
    · intro hs
      cases hs
    · intro progress hp
      cases hp
  · exact prepare (a := { a with
      stopRequested := false, stageTask := false, maintenance := false, pendingAdvance := s.pendingAdvance,
      desiredMode := .paused, state := s })
      h hstep hok

end Resumable

/-- A snapshot that a run publishes; an unfinished template reload keeps its own. -/
inductive Publishes (m : Machine) (p : PublishedPayload) : Prop where
  | regular (w : Surroundings) (tree : FileTree) (exports : Dict String) (snapshotId : String)
      (rebuild : m.runner.state.pendingRebuild = none)
      (created : createSnapshot w tree m.journal m.runner exports snapshotId = .ok p)
  | final (w : Surroundings) (tree : FileTree) (exports : Dict String) (snapshotId : String) (phase : Phase)
      (rebuild : m.runner.state.pendingRebuild = none)
      (created : finalizeSnapshot w tree m.journal m.runner exports snapshotId phase = .ok p)

section Published
variable {w : Surroundings} {tree : FileTree} {journal : ResultTable} {a : ActiveRunner} {exports : Dict String}
  {snapshotId : String} {p : PublishedPayload}

theorem publishSnapshot_ok {kind : SnapshotKind} (h : publishSnapshot w tree journal a exports snapshotId kind = .ok p) :
    p = snapshotPayload tree journal a exports snapshotId kind := by
  unfold publishSnapshot at h
  obtain ⟨-, -, h⟩ := bind_ok.mp h
  obtain ⟨-, -, h⟩ := bind_ok.mp h
  obtain ⟨-, -, h⟩ := bind_ok.mp h
  obtain ⟨files, -, h⟩ := bind_ok.mp h
  obtain ⟨-, h⟩ := rejectIf_then.mp h
  obtain ⟨-, -, h⟩ := bind_ok.mp h
  obtain ⟨-, -, h⟩ := bind_ok.mp h
  exact (Except.ok.inj h).symm

theorem createSnapshot_ok (h : createSnapshot w tree journal a exports snapshotId = .ok p) :
    a.state.activeAttempt = none ∧ ∃ saved, p = snapshotPayload tree journal a saved snapshotId .regular := by
  obtain ⟨hattempt, h⟩ := rejectIf_then.mp h
  obtain ⟨-, -, h⟩ := bind_ok.mp h
  obtain ⟨-, h⟩ := rejectIf_then.mp h
  obtain ⟨-, -, h⟩ := bind_ok.mp h
  obtain ⟨saved, -, h⟩ := bind_ok.mp h
  exact ⟨not_not.mp hattempt, saved, publishSnapshot_ok h⟩

theorem finalizeSnapshot_ok {phase : Phase} (h : finalizeSnapshot w tree journal a exports snapshotId phase = .ok p) :
    a.state.activeAttempt = none ∧ ∃ saved, p = snapshotPayload tree journal (a.setPhase phase) saved snapshotId .final := by
  obtain ⟨hattempt, h⟩ := rejectIf_then.mp h
  obtain ⟨saved, -, h⟩ := bind_ok.mp h
  obtain ⟨-, -, h⟩ := bind_ok.mp h
  obtain ⟨-, -, h⟩ := bind_ok.mp h
  obtain ⟨-, -, h⟩ := bind_ok.mp h
  exact ⟨not_not.mp hattempt, saved, publishSnapshot_ok h⟩

end Published

theorem Publishes.resumable {m : Machine} {p : PublishedPayload} {paths : List String} (h : Publishes m p) (hs : Sound m)
    (hg : Grounded m paths) : Resumable p.journal p.state paths ∧ p.experimentId = p.state.experimentId := by
  cases h with
  | regular w tree exports snapshotId rebuild created =>
    obtain ⟨hattempt, saved, rfl⟩ := createSnapshot_ok created
    exact ⟨Resumable.of_boundary hs hg hattempt rebuild m.runner.state.phase snapshotId .regular, rfl⟩
  | final w tree exports snapshotId phase rebuild created =>
    obtain ⟨hattempt, saved, rfl⟩ := finalizeSnapshot_ok created
    exact ⟨Resumable.of_boundary hs hg hattempt rebuild phase snapshotId .final, rfl⟩

/-- The runs of a project and the artifacts that each of them has retained. No snapshot of a
conditional pause is restored while a step waits for its visit. -/
inductive History : Machine → List String → Prop where
  | fresh (experimentId runId revision : String) (template : ExperimentTemplate) (services : Dict ServiceInstance)
      (desired : Mode) : History (Machine.fresh experimentId runId revision template services desired) []
  | step {m m' : Machine} {paths : List String} (action : Action) (before : History m paths)
      (inside : ∀ path ∈ Machine.retaining m action, insideArtifacts path) (step : m.transition action = some m') :
      History m' (paths ++ Machine.retaining m action)
  | stop {m : Machine} {paths : List String} (before : History m paths) : History (interruptRun m) paths
  | rollback {m source m' : Machine} {paths retained : List String} {p : PublishedPayload} (runId : String)
      (services : Dict ServiceInstance) (stopIds startIds : List String) (replaced : History m paths)
      (saved : History source retained) (published : Publishes source p)
      (waiting : restoresPause p.state = true → m.runner.stepFuture = false)
      (step : rollbackTo m p runId services stopIds startIds = .ok m') : History m' retained
  | continuation {source m' : Machine} {retained : List String} {p : PublishedPayload} (experimentId runId : String)
      (desired : Mode) (services : Dict ServiceInstance) (startIds : List String) (saved : History source retained)
      (published : Publishes source p)
      (step : continueFrom p experimentId runId desired services startIds = .ok m') : History m' retained

theorem interruptRun_sound {m : Machine} (h : Sound m) : Sound (interruptRun m) :=
  synced_sound (Machine.ends_sound (SameSaved.saveable (by constructor <;> rfl) (saveable_released h.saveable)))

theorem interruptRun_grounded {m : Machine} {paths : List String} (h : Grounded m paths) :
    Grounded (interruptRun m) paths := by
  apply Grounded.synced
  refine ⟨h.recorded.frame ⟨rfl, rfl, rfl, rfl, rfl, rfl, rfl, .inr rfl, .inr rfl⟩, h.stored, h.retained, ?_,
    h.checkpointed, trivial⟩
  intro hadv
  exact h.advancing ((Bool.and_eq_true _ _).mp hadv).1

theorem rollbackTo_kept {m source m' : Machine} {paths : List String} {p : PublishedPayload} {runId : String}
    {services : Dict ServiceInstance} {stopIds startIds : List String} (hs : Sound source) (hg : Grounded source paths)
    (hp : Publishes source p) (hwaiting : restoresPause p.state = true → m.runner.stepFuture = false)
    (hok : rollbackTo m p runId services stopIds startIds = .ok m') : Sound m' ∧ Grounded m' paths := by
  obtain ⟨hres, hexp⟩ := hp.resumable hs hg
  obtain ⟨-, hok⟩ := rejectIf_then.mp hok
  refine ((hres.restored hexp _ _ _).served services startIds).activate ?_ hok
  intro hpause
  exact hwaiting (restored_pause hpause)

theorem continueFrom_kept {source m' : Machine} {paths : List String} {p : PublishedPayload} {experimentId runId : String}
    {desired : Mode} {services : Dict ServiceInstance} {startIds : List String} (hs : Sound source)
    (hg : Grounded source paths) (hp : Publishes source p)
    (hok : continueFrom p experimentId runId desired services startIds = .ok m') : Sound m' ∧ Grounded m' paths := by
  obtain ⟨hres, hexp⟩ := hp.resumable hs hg
  obtain ⟨-, hok⟩ := rejectIf_then.mp hok
  exact ((hres.restored hexp _ _ _).served services startIds).prepare (fun _ => rfl) hok

/-- Every run of a project keeps its invariant and its references. -/
theorem History.kept {m : Machine} {paths : List String} (h : History m paths) : Sound m ∧ Grounded m paths := by
  induction h with
  | fresh experimentId runId revision template services desired =>
    exact ⟨Machine.fresh_sound experimentId runId revision template services desired,
      Machine.fresh_grounded experimentId runId revision template services desired⟩
  | step action before inside hstep ih => exact ⟨Machine.transition_sound ih.1 hstep, ih.2.transition ih.1 hstep⟩
  | stop before ih => exact ⟨interruptRun_sound ih.1, interruptRun_grounded ih.2⟩
  | rollback runId services stopIds startIds replaced saved published waiting hstep _ ih =>
    exact rollbackTo_kept ih.1 ih.2 published waiting hstep
  | continuation experimentId runId desired services startIds saved published hstep ih =>
    exact continueFrom_kept ih.1 ih.2 published hstep

/-- A run retains artifacts of its experiment only. -/
theorem History.inside {m : Machine} {paths : List String} (h : History m paths) : ∀ path ∈ paths, insideArtifacts path := by
  induction h with
  | fresh experimentId runId revision template services desired =>
    intro path hpath
    cases hpath
  | step action before inside hstep ih =>
    intro path hpath
    obtain hpath | hpath := List.mem_append.mp hpath
    · exact ih path hpath
    · exact inside path hpath
  | stop before ih => exact ih
  | rollback runId services stopIds startIds replaced saved published waiting hstep _ ih => exact ih
  | continuation experimentId runId desired services startIds saved published hstep ih => exact ih

end ModularPipelines.Snapshots
