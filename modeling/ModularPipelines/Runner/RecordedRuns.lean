import ModularPipelines.Runner.Recorded
import ModularPipelines.Runner.Refinement

namespace ModularPipelines.Runner
open Library Services

namespace Machine

def synced (m : Machine) : Machine :=
  { m with runner := m.runner.setState { m.runner.state with pendingAdvance := m.runner.pendingAdvance } }

/-- An accepted outcome and an applied decision are saved before anything else happens. -/
def saves : Action → Bool
  | .consume | .decide _ => true
  | _ => false

def transition (m : Machine) (action : Action) : Option Machine :=
  (m.advance action).map (fun next => if saves action then next.synced else next)

/-- The artifacts that an outcome adds to the retained ones: those of a conditional success. -/
def retainedBy (s : RunnerState) (o : StageOutcome) : List String :=
  if ¬ (o.attempt.outcome = some .unknown ∨ o.action = .stop) ∧ o.accepted.isSome = true ∧
      (s.current.bind StageDefinition.returnsData).isSome = true then o.artifacts
  else []

/-- What a step adds to the retained artifacts. -/
def retaining (m : Machine) : Action → List String
  | .consume =>
    match m.point with
    | .finished o => retainedBy m.runner.state o
    | _ => []
  | _ => []

theorem retaining_outside {m : Machine} {action : Action} (h : outside action = true) : retaining m action = [] := by
  cases action <;> first | rfl | cases h

theorem retaining_point {m : Machine} {action : Action} (h : ∀ o, m.point ≠ .finished o) : retaining m action = [] := by
  unfold retaining
  split
  · split
    · rename_i o hpoint
      exact absurd hpoint (h o)
    · rfl
  · rfl

end Machine

def ReloadProgress.saved? : ReloadProgress → Option RunnerState
  | .begun | .planned _ => none
  | .protecting _ saved | .published _ saved => some saved

def Retains (s : RunnerState) (paths : List String) : Prop := ∀ path, path ∈ s.retainedArtifacts ↔ path ∈ paths

/-- What the scheduler knows of the journal at each of its suspension points. -/
def PointGrounded (journal : ResultTable) (s : RunnerState) (paths : List String) : Point → Prop
  | .visiting => ∀ attempt, s.activeAttempt = some attempt → journal.get? attempt.requestId = none
  | .accepted response | .retrying _ response => ∀ attempt requestId, s.activeAttempt = some attempt →
      attempt.resultRequestId = some requestId → response.success = true →
        Accepted journal requestId s.experimentId attempt.stageId response
  | .finished o => OutcomeRecorded journal s o
  | .reloading progress => ∀ saved, progress.saved? = some saved →
      Recorded journal saved ∧ Retains saved paths ∧ (saved.pendingAdvance = true → Kept saved)
  | _ => True

/-- Every reference of a run is in its journal, and it retains the artifacts `paths`. -/
structure Grounded (m : Machine) (paths : List String) : Prop where
  recorded : Recorded m.journal m.runner.state
  stored : ∀ id, (m.journal.get? id).isSome → id ∈ m.runner.state.usedRequestIds
  retained : Retains m.runner.state paths
  advancing : m.runner.pendingAdvance = true → Kept m.runner.state
  checkpointed : m.runner.state.pendingAdvance = true → Kept m.runner.state
  point : PointGrounded m.journal m.runner.state paths m.point

theorem PointGrounded.frame {journal : ResultTable} {s t : RunnerState} {paths : List String} {p : Point}
    (hattempt : t.activeAttempt = s.activeAttempt) (hexp : t.experimentId = s.experimentId)
    (h : PointGrounded journal s paths p) : PointGrounded journal t paths p := by
  cases p with
  | visiting =>
    intro attempt ha
    exact h attempt (hattempt ▸ ha)
  | accepted response =>
    intro attempt requestId ha hid hs
    rw [hexp]
    exact h attempt requestId (hattempt ▸ ha) hid hs
  | retrying used response =>
    intro attempt requestId ha hid hs
    rw [hexp]
    exact h attempt requestId (hattempt ▸ ha) hid hs
  | finished o =>
    intro response requestId hacc hid
    rw [hexp]
    exact h response requestId hacc hid
  | reloading progress => exact h
  | waiting => trivial
  | started manual => trivial
  | deciding o requested => trivial
  | settling o final => trivial
  | ended => trivial

/-- Two runners with the same references; an advance may be given up, or be saved. -/
structure SameGround (a b : ActiveRunner) : Prop where
  record : SameRecord a.state b.state
  used : ∀ id ∈ a.state.usedRequestIds, id ∈ b.state.usedRequestIds
  retained : b.state.retainedArtifacts = a.state.retainedArtifacts
  activeAttempt : b.state.activeAttempt = a.state.activeAttempt
  advance : b.pendingAdvance = true → a.pendingAdvance = true
  checkpoint : b.state.pendingAdvance = true → a.state.pendingAdvance = true ∨ a.pendingAdvance = true

theorem SameGround.trans {a b c : ActiveRunner} (h : SameGround a b) (g : SameGround b c) : SameGround a c := by
  refine ⟨h.record.trans g.record, fun id hid => g.used id (h.used id hid), g.retained.trans h.retained,
    g.activeAttempt.trans h.activeAttempt, fun hc => h.advance (g.advance hc), ?_⟩
  intro hc
  obtain hb | hb := g.checkpoint hc
  · exact h.checkpoint hb
  · exact .inr (h.advance hb)

theorem clearPauseDecision_record (s : RunnerState) : SameRecord s s.clearPauseDecision := by
  refine ⟨rfl, rfl, rfl, rfl, rfl, rfl, rfl, ?_, .inr rfl⟩
  obtain hnone | ⟨-, hsame⟩ := clearPauseDecision_last s
  · exact .inl hnone
  · exact .inr hsame

/-- An update of the fields that refer to no result. -/
theorem sameGround_of_eq {a b : ActiveRunner} (h : SameRecord a.state b.state)
    (hused : b.state.usedRequestIds = a.state.usedRequestIds)
    (hretained : b.state.retainedArtifacts = a.state.retainedArtifacts)
    (hattempt : b.state.activeAttempt = a.state.activeAttempt)
    (hadv : b.pendingAdvance = true → a.pendingAdvance = true)
    (hsaved : b.state.pendingAdvance = a.state.pendingAdvance) : SameGround a b :=
  ⟨h, fun _ hid => hused ▸ hid, hretained, hattempt, hadv, fun hb => .inl (hsaved ▸ hb)⟩

theorem updateJournalPause_ground (a : ActiveRunner) : SameGround a (updateJournalPause a) := by
  obtain h | ⟨reason, h⟩ | h := updateJournalPause_cases a
  all_goals
    rw [h]
    exact sameGround_of_eq ⟨rfl, rfl, rfl, rfl, rfl, rfl, rfl, .inr rfl, .inr rfl⟩ rfl rfl rfl id rfl

theorem beginStep_ground (a : ActiveRunner) : SameGround a (beginStep a) :=
  sameGround_of_eq (clearPauseDecision_record a.state) rfl rfl rfl id rfl

theorem beginResume_ground (a : ActiveRunner) : SameGround a (beginResume a) := by
  have hclear := clearPauseDecision_record a.state
  exact sameGround_of_eq
    ⟨rfl, rfl, rfl, rfl, rfl, rfl, rfl, hclear.last, .inr rfl⟩ rfl rfl rfl id rfl

theorem markRerun_ground (a : ActiveRunner) : SameGround a a.markRerun :=
  sameGround_of_eq ⟨rfl, rfl, rfl, rfl, rfl, rfl, rfl, .inr rfl, .inr rfl⟩ rfl rfl rfl (fun hb => by cases hb) rfl

theorem dropStaleResult_ground (s : RunnerState) :
    (dropStaleResult s).usedRequestIds = s.usedRequestIds ∧
      (dropStaleResult s).retainedArtifacts = s.retainedArtifacts ∧ (dropStaleResult s).experimentId = s.experimentId := by
  unfold dropStaleResult
  split <;> exact ⟨rfl, rfl, rfl⟩

theorem restartScheduler_ground {a b : ActiveRunner} (hp : a.state.pendingDagDecision = none)
    (hok : restartScheduler a = .ok b) :
    SameRecord a.state b.state ∧ b.state.usedRequestIds = a.state.usedRequestIds ∧
      b.state.retainedArtifacts = a.state.retainedArtifacts ∧ b.pendingAdvance = a.state.pendingAdvance ∧
      b.state.pendingAdvance = a.state.pendingAdvance := by
  unfold restartScheduler at hok
  obtain ⟨c, hc, hok⟩ := bind_ok.mp hok
  unfold applyPendingDagDecision at hc
  rw [show _ = none from hp] at hc
  obtain rfl := Except.ok.inj hc
  obtain rfl := Except.ok.inj hok
  exact ⟨⟨rfl, rfl, rfl, rfl, rfl, rfl, rfl, .inr rfl, .inr rfl⟩, rfl, rfl, rfl, rfl⟩

/-- A decision uses no request ID and retains nothing. -/
theorem applyDagDecision_kept {a b : ActiveRunner} {source : LastDecision} (hok : applyDagDecision a source = .ok b) :
    b.state.usedRequestIds = a.state.usedRequestIds ∧ b.state.retainedArtifacts = a.state.retainedArtifacts := by
  unfold applyDagDecision at hok
  split at hok
  · obtain rfl := Except.ok.inj hok
    exact ⟨rfl, rfl⟩
  · obtain ⟨position, -, rfl⟩ := applyConditionalMove_ok hok
    exact ⟨rfl, rfl⟩
  · obtain rfl := Except.ok.inj hok
    exact ⟨rfl, rfl⟩
  · obtain rfl := Except.ok.inj hok
    exact ⟨rfl, rfl⟩

theorem applyPendingDagDecision_kept {a b : ActiveRunner} (hok : applyPendingDagDecision a = .ok b) :
    b.state.usedRequestIds = a.state.usedRequestIds ∧ b.state.retainedArtifacts = a.state.retainedArtifacts := by
  unfold applyPendingDagDecision at hok
  split at hok
  · obtain rfl := Except.ok.inj hok
    exact ⟨rfl, rfl⟩
  · exact applyDagDecision_kept (a := a.deferred none) hok

theorem releaseAttempt_kept (a : ActiveRunner) (o : StageOutcome) :
    (releaseAttempt a o).state.usedRequestIds = a.state.usedRequestIds ∧
      (releaseAttempt a o).state.retainedArtifacts = a.state.retainedArtifacts ∧
      (releaseAttempt a o).state.current = a.state.current := by
  unfold releaseAttempt
  split <;> exact ⟨rfl, rfl, rfl⟩

theorem applyStageOutcome_used {a b : ActiveRunner} {o : StageOutcome} {requested : Bool}
    (hok : applyStageOutcome a o requested = .ok b) : b.state.usedRequestIds = a.state.usedRequestIds := by
  obtain ⟨hrel, -⟩ := releaseAttempt_kept a o
  unfold applyStageOutcome at hok
  split at hok
  · obtain rfl := Except.ok.inj hok
    exact hrel
  · cases hok
  · obtain ⟨decision, -, hok⟩ := bind_ok.mp hok
    cases decision with
    | none =>
      obtain rfl := Except.ok.inj hok
      exact hrel
    | some source =>
      cases requested with
      | true =>
        obtain rfl := Except.ok.inj hok
        exact hrel
      | false => exact (applyDagDecision_kept hok).1.trans hrel

/-- A decision is retained exactly for the success of a conditional node. -/
theorem acceptedDecision_isSome {s : RunnerState} {o : StageOutcome} {response : StageResult} {requestId : String}
    {decision : Option LastDecision} (h : acceptedDecision s o response requestId = .ok decision) :
    decision.isSome = (s.current.bind StageDefinition.returnsData).isSome := by
  unfold acceptedDecision at h
  split at h
  · cases h
  · rename_i definition hcur
    split at h
    · rename_i hnone
      obtain rfl := Except.ok.inj h
      simp [hcur, hnone]
    · cases h
    · rename_i hsome hdec
      obtain rfl := Except.ok.inj h
      simp [hcur, hsome]

theorem retainInputArtifacts_retains {a : ActiveRunner} {paths : List String} (h : Retains a.state paths)
    (found : List String) : Retains (retainInputArtifacts a found).state (paths ++ found) := by
  intro path
  show path ∈ (a.state.retainedArtifacts ++ found).dedup.mergeSort _ ↔ _
  rw [List.mem_mergeSort, List.mem_dedup, List.mem_append, List.mem_append, h path]

theorem applyStageOutcome_retained {a b : ActiveRunner} {o : StageOutcome} {requested : Bool} {paths : List String}
    (h : Retains a.state paths) (hlive : ¬ (o.attempt.outcome = some .unknown ∨ o.action = .stop))
    (hok : applyStageOutcome a o requested = .ok b) :
    Retains b.state (paths ++ Machine.retainedBy a.state o) := by
  obtain ⟨-, hrel, hcur⟩ := releaseAttempt_kept a o
  have hbase : Retains (releaseAttempt a o).state paths := fun path => hrel ▸ h path
  unfold applyStageOutcome at hok
  split at hok
  · rename_i hnone
    obtain rfl := Except.ok.inj hok
    rw [Machine.retainedBy, if_neg (fun hc => by simp [hnone] at hc), List.append_nil]
    exact hbase
  · cases hok
  · rename_i response requestId hacc hid
    obtain ⟨decision, hdecision, hok⟩ := bind_ok.mp hok
    have hsome : decision.isSome = (a.state.current.bind StageDefinition.returnsData).isSome :=
      (acceptedDecision_isSome hdecision).trans (congrArg (fun c => (Option.bind c StageDefinition.returnsData).isSome) hcur)
    cases decision with
    | none =>
      obtain rfl := Except.ok.inj hok
      rw [Machine.retainedBy, if_neg (fun hc => by simp [← hsome] at hc), List.append_nil]
      exact hbase
    | some source =>
      rw [Machine.retainedBy, if_pos ⟨hlive, by simp [hacc], hsome.symm⟩]
      have hart := retainInputArtifacts_retains (a := retainResult (releaseAttempt a o) o response requestId) hbase
        o.artifacts
      cases requested with
      | true =>
        obtain rfl := Except.ok.inj hok
        exact hart
      | false => exact fun path => (applyDagDecision_kept hok).2 ▸ hart path

namespace Grounded

variable {m m' : Machine} {paths : List String}

theorem frame (h : Grounded m paths) {b : ActiveRunner} (hs : SameGround m.runner b) (snapshotting : Bool) :
    Grounded { m with runner := b, snapshotting := snapshotting } paths := by
  refine ⟨h.recorded.frame hs.record, fun id hid => hs.used id (h.stored id hid), ?_, ?_, ?_,
    h.point.frame hs.activeAttempt hs.record.experimentId⟩
  · intro path
    rw [hs.retained]
    exact h.retained path
  · intro hadv
    exact hs.record.kept (h.advancing (hs.advance hadv))
  · intro hadv
    apply hs.record.kept
    obtain hsaved | hrunner := hs.checkpoint hadv
    · exact h.checkpointed hsaved
    · exact h.advancing hrunner

/-- A suspension point at which the scheduler needs nothing of the journal. -/
theorem moveTo (h : Grounded m paths) {p : Point} (hp : PointGrounded m.journal m.runner.state paths p) : Grounded { m with point := p } paths :=
  ⟨h.recorded, h.stored, h.retained, h.advancing, h.checkpointed, hp⟩

/-- A run that ends refers to what it referred to. -/
theorem ends (h : Grounded m paths) {b : ActiveRunner} (hs : SameRecord m.runner.state b.state)
    (hused : b.state.usedRequestIds = m.runner.state.usedRequestIds)
    (hretained : b.state.retainedArtifacts = m.runner.state.retainedArtifacts)
    (hadv : b.pendingAdvance = true → m.runner.pendingAdvance = true)
    (hsaved : b.state.pendingAdvance = true → m.runner.state.pendingAdvance = true ∨ m.runner.pendingAdvance = true) :
    Grounded (m.ends b) paths := by
  refine ⟨h.recorded.frame hs, fun id hid => hused ▸ h.stored id hid, fun path => hretained ▸ h.retained path,
    fun hb => hs.kept (h.advancing (hadv hb)), ?_, trivial⟩
  intro hb
  apply hs.kept
  obtain hsaved | hrunner := hsaved hb
  · exact h.checkpointed hsaved
  · exact h.advancing hrunner

theorem synced (h : Grounded m paths) : Grounded m.synced paths := by
  have hsame : SameGround m.runner m.synced.runner :=
    ⟨⟨rfl, rfl, rfl, rfl, rfl, rfl, rfl, .inr rfl, .inr rfl⟩, fun _ hid => hid, rfl, rfl, id, .inr⟩
  exact h.frame hsame m.snapshotting

theorem issued (h : Grounded m paths) {c : Command} {b : ActiveRunner} (hi : Issued m.runner c b) (snapshotting : Bool) :
    Grounded { m with runner := b, snapshotting := snapshotting } paths := by
  cases hi with
  | same => exact h.frame (sameGround_of_eq ⟨rfl, rfl, rfl, rfl, rfl, rfl, rfl, .inr rfl, .inr rfl⟩ rfl rfl rfl id rfl) _
  | marked => exact h.frame (markRerun_ground m.runner) _
  | stepped => exact h.frame (beginStep_ground m.runner) _
  | rerun => exact h.frame ((markRerun_ground m.runner).trans (beginStep_ground _)) _
  | observed => exact h.frame (updateJournalPause_ground m.runner) _
  | resumed => exact h.frame ((updateJournalPause_ground m.runner).trans (beginResume_ground _)) _
  | @moved position hc hidle hpos hlen =>
    obtain ⟨hrec, hkept⟩ := h.recorded.relocate position
    obtain ⟨-, hattempt, -⟩ := dropStaleResult_frame (m.runner.state.relocate position)
    obtain ⟨hused, hretained, hexp⟩ := dropStaleResult_ground (m.runner.state.relocate position)
    refine ⟨hrec, ?_, ?_, fun _ => hkept, fun _ => hkept, h.point.frame hattempt hexp⟩
    · intro id hid
      exact hused ▸ h.stored id hid
    · intro path
      exact hretained ▸ h.retained path
  | retries hc counts =>
    have hsame : SameGround m.runner (m.runner.withRetries counts) :=
      sameGround_of_eq ⟨rfl, rfl, rfl, rfl, rfl, rfl, rfl, .inr rfl, .inr rfl⟩ rfl rfl rfl id rfl
    exact h.frame hsame _
  | services retrying services =>
    have hsame : SameGround m.runner (m.runner.withServices retrying services) :=
      sameGround_of_eq ⟨rfl, rfl, rfl, rfl, rfl, rfl, rfl, .inr rfl, .inr rfl⟩ rfl rfl rfl id rfl
    exact h.frame hsame _
  | snapshot =>
    have hsame : SameGround m.runner (beginSnapshot m.runner) :=
      sameGround_of_eq ⟨rfl, rfl, rfl, rfl, rfl, rfl, rfl, .inr rfl, .inr rfl⟩ rfl rfl rfl id rfl
    exact h.frame hsame _

theorem useRequests_state (s : RunnerState) (ids : List String) :
    ∃ used, (∀ id ∈ s.usedRequestIds, id ∈ used) ∧
      ids.foldl RunnerState.useRequest s = { s with usedRequestIds := used } := by
  induction ids generalizing s with
  | nil => exact ⟨s.usedRequestIds, fun _ hid => hid, rfl⟩
  | cons first rest ih =>
    obtain ⟨used, hused, heq⟩ := ih (s.useRequest first)
    exact ⟨used, fun id hid => hused id (RunnerState.mem_useRequest first hid), heq⟩

/-- Work outside the scheduler leaves every reference where it is. -/
theorem outside {action : Action} (h : Grounded m paths) (hout : Machine.outside action = true)
    (hok : m.advance action = some m') : Grounded m' paths := by
  cases action with
  | command c =>
    obtain ⟨b, hb, hi⟩ := issue_issued m.runner c
    change (issue m.runner.toRunner c).2.select.map _ = some m' at hok
    rw [hb, ExperimentRunner.select_toRunner] at hok
    obtain rfl := Option.some.inj hok
    exact h.issued hi _
  | requestPause =>
    obtain ⟨-, hok⟩ := Option.ite_none_right_eq_some.mp hok
    obtain rfl := Option.some.inj hok
    have hsame : SameGround m.runner m.runner.requestPause :=
      sameGround_of_eq ⟨rfl, rfl, rfl, rfl, rfl, rfl, rfl, .inr rfl, .inr rfl⟩ rfl rfl rfl id rfl
    exact h.frame hsame m.snapshotting
  | settlePause =>
    obtain ⟨-, hok⟩ := Option.ite_none_right_eq_some.mp hok
    obtain ⟨a, ha, rfl⟩ := Machine.map_toOption hok
    obtain ⟨rfl, -⟩ := requireActive_toRunner ha
    have hsame : SameGround m.runner m.runner.settlePause :=
      sameGround_of_eq ⟨rfl, rfl, rfl, rfl, rfl, rfl, rfl, .inr rfl, .inr rfl⟩ rfl rfl rfl id rfl
    exact h.frame hsame m.snapshotting
  | observeJournal status =>
    obtain rfl := Option.some.inj hok
    have hstatus : SameGround m.runner { m.runner with journal := status } :=
      sameGround_of_eq ⟨rfl, rfl, rfl, rfl, rfl, rfl, rfl, .inr rfl, .inr rfl⟩ rfl rfl rfl id rfl
    exact h.frame (hstatus.trans (updateJournalPause_ground _)) m.snapshotting
  | serviceWork services requestIds =>
    obtain rfl := Option.some.inj hok
    obtain ⟨used, hused, heq⟩ := useRequests_state m.runner.state requestIds
    rw [heq]
    have hsame : SameGround m.runner
        (m.runner.setState { m.runner.state with usedRequestIds := used, services := services }) :=
      ⟨⟨rfl, rfl, rfl, rfl, rfl, rfl, rfl, .inr rfl, .inr rfl⟩, hused, rfl, rfl, id, .inl⟩
    exact h.frame hsame m.snapshotting
  | endServiceControl =>
    obtain rfl := Option.some.inj hok
    have hsame : SameGround m.runner { m.runner with serviceRetrying := false } :=
      sameGround_of_eq ⟨rfl, rfl, rfl, rfl, rfl, rfl, rfl, .inr rfl, .inr rfl⟩ rfl rfl rfl id rfl
    exact h.frame hsame m.snapshotting
  | endSnapshot created =>
    obtain ⟨-, hok⟩ := Option.ite_none_right_eq_some.mp hok
    obtain rfl := Option.some.inj hok
    have hsame : SameGround m.runner (m.runner.endSnapshot created) := by
      cases created <;>
        exact sameGround_of_eq ⟨rfl, rfl, rfl, rfl, rfl, rfl, rfl, .inr rfl, .inr rfl⟩ rfl rfl rfl id rfl
    exact h.frame hsame false
  | save checkpointId =>
    obtain ⟨s, hs, rfl⟩ := Machine.map_toOption hok
    obtain ⟨u, -, hs⟩ := bind_ok.mp hs
    obtain rfl := Except.ok.inj hs
    have hsame : SameGround m.runner (m.runner.setState (m.runner.checkpoint checkpointId)) :=
      ⟨⟨rfl, rfl, rfl, rfl, rfl, rfl, rfl, .inr rfl, .inr rfl⟩, fun _ hid => hid, rfl, rfl, id, .inr⟩
    exact h.frame hsame m.snapshotting
  | fail =>
    obtain rfl := Option.some.inj hok
    exact h.ends ⟨rfl, rfl, rfl, rfl, rfl, rfl, rfl, .inr rfl, .inr rfl⟩ rfl rfl id .inl
  | _ => exact nomatch hout

theorem pausePolicy (h : Grounded m paths) : Grounded { m with runner := m.runner.pausePolicy } paths := by
  have hsame : SameGround m.runner m.runner.pausePolicy :=
    sameGround_of_eq ⟨rfl, rfl, rfl, rfl, rfl, rfl, rfl, .inr rfl, .inr rfl⟩ rfl rfl rfl id rfl
  exact h.frame hsame m.snapshotting

theorem pauseWaiting (h : Grounded m paths) : Grounded { m with runner := m.runner.pausePolicy.setPhase .waiting } paths := by
  have hsame : SameGround m.runner (m.runner.pausePolicy.setPhase .waiting) :=
    sameGround_of_eq ⟨rfl, rfl, rfl, rfl, rfl, rfl, rfl, .inr rfl, .inr rfl⟩ rfl rfl rfl id rfl
  exact h.frame hsame m.snapshotting

theorem launch (h : Grounded m paths) :
    Grounded { m with runner := (launchNextStage m.runner).1, point := .started (launchNextStage m.runner).2 } paths := by
  have hnext : ∀ s : RunnerState, (launchNextStage m.runner).1.state = { s with
      lastDagDecision := none
      pauseRequested := false
      phase := .stageRunning } → Recorded m.journal s → Kept s ∨ s.pendingAdvance = m.runner.state.pendingAdvance →
      (Kept m.runner.state → Kept s) → s.usedRequestIds = m.runner.state.usedRequestIds →
      s.retainedArtifacts = m.runner.state.retainedArtifacts →
      Grounded { m with runner := (launchNextStage m.runner).1, point := .started (launchNextStage m.runner).2 }
        paths := by
    intro s hstate hrec hsaved hkept hused hretained
    have hsame : SameRecord s (launchNextStage m.runner).1.state := by
      rw [hstate]
      exact ⟨rfl, rfl, rfl, rfl, rfl, rfl, rfl, .inl rfl, .inr rfl⟩
    refine ⟨hrec.frame hsame, ?_, ?_, fun hb => (by cases hb), ?_, trivial⟩
    · intro id hid
      show id ∈ (launchNextStage m.runner).1.state.usedRequestIds
      rw [hstate]
      exact hused ▸ h.stored id hid
    · show Retains (launchNextStage m.runner).1.state paths
      intro path
      rw [hstate]
      exact hretained ▸ h.retained path
    · show (launchNextStage m.runner).1.state.pendingAdvance = true → _
      intro hadv
      rw [hstate] at hadv
      apply hsame.kept
      obtain hk | hsync := hsaved
      · exact hk
      · exact hkept (h.checkpointed (hsync ▸ hadv))
  cases hadv : m.runner.pendingAdvance with
  | true =>
    obtain ⟨hrec, hkept⟩ := h.recorded.advance (h.advancing hadv)
    have hframe : (advanceCursor m.runner.state).usedRequestIds = m.runner.state.usedRequestIds ∧
        (advanceCursor m.runner.state).retainedArtifacts = m.runner.state.retainedArtifacts := by
      unfold advanceCursor
      dsimp only
      split <;> exact ⟨rfl, rfl⟩
    exact hnext _ (by simp [launchNextStage, hadv]) hrec (.inl hkept) (fun _ => hkept) hframe.1 hframe.2
  | false => exact hnext m.runner.state (by simp [launchNextStage, hadv]) h.recorded (.inr rfl) id rfl rfl

/-- A new attempt has a request ID that the journal does not know. -/
theorem startAttempt {s : RunnerState} {definition : StageDefinition} {inputData : Json} {ids : AttemptIds}
    (hrec : Recorded m.journal s) (hstored : ∀ id, (m.journal.get? id).isSome → id ∈ s.usedRequestIds)
    (hretained : Retains s paths) (hadv : m.runner.pendingAdvance = true → Kept s)
    (hsaved : s.pendingAdvance = true → Kept s) (hok : m.startAttempt s definition inputData ids = .ok m') :
    Grounded m' paths := by
  obtain ⟨u, hu, hok⟩ := bind_ok.mp hok
  obtain rfl := Except.ok.inj hok
  obtain ⟨hfresh, hu⟩ := rejectIf_then.mp hu
  obtain rfl := Except.ok.inj hu
  have hnew : m.journal.get? ids.requestId = none := by
    rw [← Option.not_isSome_iff_eq_none]
    exact fun hsome => hfresh (hstored _ hsome)
  have hpoint : ∀ attempt, some (newStageAttempt s definition inputData ids) = some attempt →
      m.journal.get? attempt.requestId = none := by
    intro attempt ha
    obtain rfl := Option.some.inj ha
    exact hnew
  split
  · refine ⟨hrec.frame ⟨rfl, rfl, rfl, rfl, rfl, rfl, rfl, .inr rfl, .inr rfl⟩, ?_, hretained, hadv, hsaved, hpoint⟩
    intro id hid
    exact RunnerState.mem_useRequest _ (hstored id hid)
  · exact ⟨hrec.frame ⟨rfl, rfl, rfl, rfl, rfl, rfl, rfl, .inr rfl, .inr rfl⟩, hstored, hretained, hadv, hsaved, hpoint⟩

theorem beginVisit {manual : Bool} {ids : AttemptIds} (h : Grounded m paths) (hok : m.beginVisit manual ids = .ok m') :
    Grounded m' paths := by
  obtain ⟨inputData, -, hok⟩ := bind_ok.mp hok
  cases hcur : m.runner.state.current with
  | none =>
    rw [hcur] at hok
    cases hok
  | some definition =>
    rw [hcur] at hok
    cases manual with
    | false => exact startAttempt h.recorded h.stored h.retained h.advancing h.checkpointed hok
    | true =>
      have hrec : Recorded m.journal (enterVisit m.runner.state definition true) :=
        h.recorded.forget (fun k => k != definition.stageId)
      exact startAttempt hrec h.stored h.retained (fun _ => kept_of_none rfl) (fun _ => kept_of_none rfl) hok

theorem acceptReport {definition : StageDefinition} {attempt : StageAttempt} (h : Grounded m paths)
    (hp : PointGrounded m.journal m.runner.state paths .visiting) (hattempt : m.runner.state.activeAttempt = some attempt)
    (report : AttemptReport) (unconfirmed : Bool) :
    Grounded (m.acceptReport definition attempt report unconfirmed) paths := by
  have hnew := hp attempt hattempt
  refine ⟨(h.recorded.store hnew _).frame ⟨rfl, rfl, rfl, rfl, rfl, rfl, rfl, .inr rfl, .inr rfl⟩, ?_, h.retained,
    h.advancing, h.checkpointed, ?_⟩
  · intro id hid
    show id ∈ (m.runner.state.useRequest attempt.requestId).usedRequestIds
    by_cases heq : id = attempt.requestId
    · rw [heq]
      exact RunnerState.useRequest_mem m.runner.state attempt.requestId
    · apply RunnerState.mem_useRequest
      apply h.stored
      simpa [Machine.acceptReport, acceptResult, heq] using hid
  · intro other requestId hother hid hs
    obtain rfl := Option.some.inj hother
    obtain rfl := Option.some.inj hid
    exact acceptResult_stored (s := m.runner.state) hs

theorem concludeVisit {definition : StageDefinition} {attempt : StageAttempt} {response : StageResult}
    {artifacts : List String} (h : Grounded m paths) (hp : PointGrounded m.journal m.runner.state paths (.accepted response))
    (hattempt : m.runner.state.activeAttempt = some attempt) :
    Grounded (m.concludeVisit definition attempt response artifacts) paths := by
  unfold Machine.concludeVisit
  split
  · apply h.moveTo
    intro accepted requestId hacc hid
    obtain ⟨hsome, hs⟩ := Option.filter_eq_some_iff.mp hacc
    obtain rfl := Option.some.inj hsome
    exact hp attempt requestId hattempt hid hs
  · exact h.moveTo hp

theorem giveUp {attempt : StageAttempt} {response : StageResult} {used : Nat} (h : Grounded m paths)
    (hp : PointGrounded m.journal m.runner.state paths (.retrying used response))
    (hattempt : m.runner.state.activeAttempt = some attempt) (action : OutcomeAction) :
    Grounded { m with point := .finished ⟨attempt, some response, action, []⟩ } paths := by
  apply h.moveTo
  intro accepted requestId hacc hid
  obtain ⟨hsome, hs⟩ := Option.filter_eq_some_iff.mp hacc
  obtain rfl := Option.some.inj hsome
  exact hp attempt requestId hattempt hid hs

/-- An accepted conditional success retains the artifacts that its data names, and nothing else does. -/
theorem consume {o : StageOutcome} (h : Grounded m paths) (hpoint : m.point = .finished o)
    (hs : OutcomeSound m.runner.state o) (hp : OutcomeRecorded m.journal m.runner.state o)
    (hok : m.consume o = .ok m') : Grounded m'.synced (paths ++ Machine.retaining m .consume) := by
  have hretaining : Machine.retaining m .consume = Machine.retainedBy m.runner.state o := by
    simp only [Machine.retaining, hpoint]
  rw [hretaining]
  unfold Machine.consume at hok
  dsimp only at hok
  split at hok
  · rename_i hunknown
    obtain rfl := Except.ok.inj hok
    have hend : Grounded (m.ends { ({ m.runner with stageTask := false } : ActiveRunner).requestPause.release with
        pendingAdvance := false }) paths :=
      h.ends ⟨rfl, rfl, rfl, rfl, rfl, rfl, rfl, .inr rfl, .inr rfl⟩ rfl rfl (fun hb => by cases hb) .inl
    rw [Machine.retainedBy, if_neg (fun hc => hc.1 (.inl hunknown)), List.append_nil]
    exact hend.synced
  · rename_i hknown
    split at hok
    · rename_i hstop
      obtain rfl := Except.ok.inj hok
      have hend : Grounded (m.ends (forgetResult { m.runner with stageTask := false } o).release) paths :=
        ⟨h.recorded.forget _, h.stored, h.retained, fun _ => kept_of_none rfl, fun _ => kept_of_none rfl, trivial⟩
      rw [Machine.retainedBy, if_neg (fun hc => hc.1 (.inr hstop)), List.append_nil]
      exact hend.synced
    · rename_i hgo
      obtain ⟨a, ha, hok⟩ := bind_ok.mp hok
      obtain rfl := Except.ok.inj hok
      obtain ⟨hrec, hkept⟩ := applyStageOutcome_recorded (a := { m.runner with stageTask := false }) h.recorded
        (Saveable.stage_mem hs.current) hp ha
      have hused := applyStageOutcome_used ha
      have hretained := applyStageOutcome_retained (a := { m.runner with stageTask := false }) h.retained
        (not_or.mpr ⟨hknown, hgo⟩) ha
      refine ⟨hrec.frame ⟨rfl, rfl, rfl, rfl, rfl, rfl, rfl, .inr rfl, .inr rfl⟩, ?_, hretained, hkept, hkept, trivial⟩
      intro id hid
      exact hused ▸ h.stored id hid

theorem decide {o : StageOutcome} {requested : Bool} {snapshotId : String} (h : Grounded m paths)
    (hs : Saveable m.runner.state) (hrebuild : m.runner.state.pendingRebuild = none)
    (hok : m.decide o requested snapshotId = .ok m') : Grounded m'.synced paths := by
  obtain ⟨a, ha, hok⟩ := bind_ok.mp hok
  obtain rfl := Except.ok.inj hok
  have hfacts : Recorded m.journal a.state ∧ (a.pendingAdvance = true → Kept a.state) ∧
      a.state.usedRequestIds = m.runner.state.usedRequestIds ∧ Retains a.state paths := by
    cases requested with
    | false =>
      obtain rfl := Except.ok.inj ha
      exact ⟨h.recorded, h.advancing, rfl, h.retained⟩
    | true =>
      have hrec : Recorded m.journal { m.runner.state with stableSnapshotId := some snapshotId } :=
        h.recorded.frame ⟨rfl, rfl, rfl, rfl, rfl, rfl, rfl, .inr rfl, .inr rfl⟩
      obtain ⟨h1, h2⟩ := applyPendingDagDecision_recorded
        (a := m.runner.setState { m.runner.state with stableSnapshotId := some snapshotId }) hrec
        (hs.withSnapshot hrebuild _) h.advancing ha
      obtain ⟨hused, hretained⟩ := applyPendingDagDecision_kept
        (a := m.runner.setState { m.runner.state with stableSnapshotId := some snapshotId }) ha
      exact ⟨h1, h2, hused, fun path => hretained ▸ h.retained path⟩
  obtain ⟨hrec, hkept, hused, hretained⟩ := hfacts
  have hstored : ∀ id, (m.journal.get? id).isSome → id ∈ a.state.usedRequestIds := fun id hid => hused ▸ h.stored id hid
  unfold Machine.followOutcome
  split
  · exact ⟨hrec.frame ⟨rfl, rfl, rfl, rfl, rfl, rfl, rfl, .inr rfl, .inr rfl⟩, hstored, hretained, hkept, hkept, trivial⟩
  · exact ⟨hrec.frame ⟨rfl, rfl, rfl, rfl, rfl, rfl, rfl, .inr rfl, .inr rfl⟩, hstored, hretained, hkept, hkept, trivial⟩

/-- A scheduler that starts again on a grounded state is grounded. -/
theorem restart {a b : ActiveRunner} (hrec : Recorded m.journal a.state)
    (hstored : ∀ id, (m.journal.get? id).isSome → id ∈ a.state.usedRequestIds) (hretained : Retains a.state paths)
    (hsaved : a.state.pendingAdvance = true → Kept a.state) (hp : a.state.pendingDagDecision = none)
    (hok : restartScheduler a = .ok b) : Grounded { m with runner := b, point := .waiting } paths := by
  obtain ⟨hsame, hused, hkeep, hadv, hcheck⟩ := restartScheduler_ground hp hok
  refine ⟨hrec.frame hsame, fun id hid => hused ▸ hstored id hid, fun path => hkeep ▸ hretained path, ?_, ?_, trivial⟩
  · intro hb
    exact hsame.kept (hsaved (hadv ▸ hb))
  · intro hb
    exact hsame.kept (hsaved (hcheck ▸ hb))

theorem rollbackReload {b : ActiveRunner} {saved : RunnerState} {services : Dict ServiceInstance} (h : Grounded m paths)
    (hsaved : Recorded m.journal saved ∧ Retains saved paths ∧ (saved.pendingAdvance = true → Kept saved))
    (hp : saved.pendingDagDecision = none)
    (hok : restartScheduler (restoreProtective m.runner saved services) = .ok b) :
    Grounded { m with runner := b, point := .waiting } paths := by
  have hrec := restoreProtective_recorded (a := m.runner) hsaved.1 services
  refine restart hrec ?_ hsaved.2.1 hsaved.2.2 hp hok
  intro id hid
  show id ∈ (saved.usedRequestIds ++ m.runner.state.usedRequestIds).dedup.mergeSort _
  rw [List.mem_mergeSort, List.mem_dedup]
  exact List.mem_append_right _ (h.stored id hid)

theorem reload {action : Action} {progress : ReloadProgress} (h : Grounded m paths) (hs : Sound m)
    (hpoint : m.point = .reloading progress) (hin : Machine.outside action = false)
    (hok : m.advance action = some m') : Grounded m' paths := by
  obtain ⟨runner, point, journal, snapshotting⟩ := m
  subst hpoint
  have hp := h.point
  have hsp := hs.point
  cases progress with
  | begun =>
    cases action with
    | planReload candidate completed revision run operationId =>
      obtain ⟨plan, -, rfl⟩ := Machine.map_toOption hok
      exact h.moveTo (fun saved hsaved => by cases hsaved)
    | abandonReload =>
      obtain rfl := Option.some.inj hok
      have hsame : SameGround runner { runner with maintenance := false } :=
        sameGround_of_eq ⟨rfl, rfl, rfl, rfl, rfl, rfl, rfl, .inr rfl, .inr rfl⟩ rfl rfl rfl id rfl
      exact (h.frame hsame snapshotting).moveTo trivial
    | _ => first | exact (Option.some_ne_none _ hok.symm).elim | exact (Bool.eq_false_iff.mp hin rfl).elim
  | planned plan =>
    cases action with
    | protectReload snapshotId =>
      obtain rfl := Option.some.inj hok
      have hsame : SameGround runner (beginRebuild runner plan snapshotId) :=
        sameGround_of_eq ⟨rfl, rfl, rfl, rfl, rfl, rfl, rfl, .inr rfl, .inr rfl⟩ rfl rfl rfl id rfl
      apply (h.frame hsame snapshotting).moveTo
      intro saved hsaved
      obtain rfl := Option.some.inj hsaved
      exact ⟨h.recorded.frame ⟨rfl, rfl, rfl, rfl, rfl, rfl, rfl, .inr rfl, .inr rfl⟩, h.retained, h.checkpointed⟩
    | abandonReload =>
      obtain ⟨a, ha, rfl⟩ := Machine.map_toOption hok
      exact restart h.recorded h.stored h.retained h.checkpointed hsp.2.1 ha
    | _ => first | exact (Option.some_ne_none _ hok.symm).elim | exact (Bool.eq_false_iff.mp hin rfl).elim
  | protecting plan saved =>
    cases action with
    | publishReload =>
      obtain ⟨a, ha, rfl⟩ := Machine.map_toOption hok
      obtain ⟨hrec, hkept⟩ := publishReload_recorded h.recorded hsp.2.2.2.1 ha
      obtain ⟨last, rfl⟩ := publishReload_ok ha
      exact ⟨hrec, h.stored, h.retained, fun _ => hkept, fun _ => hkept, hp⟩
    | rollbackReload services =>
      obtain ⟨a, ha, rfl⟩ := Machine.map_toOption hok
      exact h.rollbackReload (hp saved rfl) hsp.2.2.2.2.quiet.noPending ha
    | _ => first | exact (Option.some_ne_none _ hok.symm).elim | exact (Bool.eq_false_iff.mp hin rfl).elim
  | published plan saved =>
    cases action with
    | commitReload =>
      obtain ⟨a, ha, rfl⟩ := Machine.map_toOption hok
      have hrec : Recorded journal (commitReload runner).state :=
        h.recorded.frame ⟨rfl, rfl, rfl, rfl, rfl, rfl, rfl, .inr rfl, .inr rfl⟩
      exact restart hrec h.stored h.retained h.checkpointed hsp.2.1 ha
    | rollbackReload services =>
      obtain ⟨a, ha, rfl⟩ := Machine.map_toOption hok
      exact h.rollbackReload (hp saved rfl) hsp.2.2.2.quiet.noPending ha
    | _ => first | exact (Option.some_ne_none _ hok.symm).elim | exact (Bool.eq_false_iff.mp hin rfl).elim

theorem waiting {action : Action} (h : Grounded m paths) (hpoint : m.point = .waiting) (hin : Machine.outside action = false)
    (hok : m.advance action = some m') : Grounded m' paths := by
  obtain ⟨runner, point, journal, snapshotting⟩ := m
  subst hpoint
  cases action with
  | supervise =>
    obtain rfl := Option.some.inj hok
    exact h.pauseWaiting
  | refuseReadiness =>
    obtain rfl := Option.some.inj hok
    exact h.pauseWaiting
  | launch =>
    obtain ⟨-, hok⟩ := Option.ite_none_right_eq_some.mp hok
    obtain rfl := Option.some.inj hok
    exact h.launch
  | complete snapshotId =>
    obtain ⟨-, hok⟩ := Option.ite_none_right_eq_some.mp hok
    obtain rfl := Option.some.inj hok
    exact h.ends ⟨rfl, rfl, rfl, rfl, rfl, rfl, rfl, .inr rfl, .inr rfl⟩ rfl rfl id .inr
  | beginReload =>
    obtain ⟨a, ha, rfl⟩ := Machine.map_toOption hok
    obtain ⟨b, hb, hallowed⟩ := bind_ok.mp ha
    obtain ⟨rfl, -⟩ := requireActive_toRunner hb
    obtain ⟨-, hallowed⟩ := rejectIf_then.mp hallowed
    obtain rfl := Except.ok.inj hallowed
    have hsame : SameGround b { b with maintenance := true } :=
      sameGround_of_eq ⟨rfl, rfl, rfl, rfl, rfl, rfl, rfl, .inr rfl, .inr rfl⟩ rfl rfl rfl id rfl
    exact (h.frame hsame snapshotting).moveTo (fun saved hsaved => by cases hsaved)
  | _ => first | exact (Option.some_ne_none _ hok.symm).elim | exact (Bool.eq_false_iff.mp hin rfl).elim

theorem started {action : Action} {manual : Bool} (h : Grounded m paths) (hpoint : m.point = .started manual)
    (hin : Machine.outside action = false) (hok : m.advance action = some m') : Grounded m' paths := by
  obtain ⟨runner, point, journal, snapshotting⟩ := m
  subst hpoint
  cases action with
  | supervise =>
    obtain rfl := Option.some.inj hok
    exact h.pausePolicy
  | beginAttempt ids => exact h.beginVisit (toOption_some.mp hok)
  | _ => first | exact (Option.some_ne_none _ hok.symm).elim | exact (Bool.eq_false_iff.mp hin rfl).elim

theorem visiting {action : Action} (h : Grounded m paths) (hpoint : m.point = .visiting)
    (hin : Machine.outside action = false) (hok : m.advance action = some m') : Grounded m' paths := by
  obtain ⟨runner, point, journal, snapshotting⟩ := m
  subst hpoint
  cases action with
  | supervise =>
    obtain rfl := Option.some.inj hok
    exact h.pausePolicy
  | acceptReport report unconfirmed =>
    unfold Machine.advance at hok
    dsimp only at hok
    split at hok
    · rename_i hattempt
      obtain rfl := Option.some.inj hok
      exact h.acceptReport h.point hattempt report unconfirmed
    · cases hok
  | _ => first | exact (Option.some_ne_none _ hok.symm).elim | exact (Bool.eq_false_iff.mp hin rfl).elim

theorem accepted {action : Action} {response : StageResult} (h : Grounded m paths) (hpoint : m.point = .accepted response)
    (hin : Machine.outside action = false) (hok : m.advance action = some m') : Grounded m' paths := by
  obtain ⟨runner, point, journal, snapshotting⟩ := m
  subst hpoint
  cases action with
  | supervise =>
    obtain rfl := Option.some.inj hok
    exact h.pausePolicy
  | conclude artifacts =>
    unfold Machine.advance at hok
    dsimp only at hok
    split at hok
    · rename_i hattempt
      obtain rfl := Option.some.inj hok
      exact h.concludeVisit h.point hattempt
    · cases hok
  | _ => first | exact (Option.some_ne_none _ hok.symm).elim | exact (Bool.eq_false_iff.mp hin rfl).elim

theorem retrying {action : Action} {used : Nat} {response : StageResult} (h : Grounded m paths)
    (hpoint : m.point = .retrying used response) (hin : Machine.outside action = false)
    (hok : m.advance action = some m') : Grounded m' paths := by
  obtain ⟨runner, point, journal, snapshotting⟩ := m
  subst hpoint
  cases action with
  | supervise =>
    obtain rfl := Option.some.inj hok
    exact h.pausePolicy
  | retry ids =>
    unfold Machine.advance at hok
    dsimp only at hok
    split at hok
    · rename_i definition attempt hcur hattempt
      obtain ⟨-, hok⟩ := Option.ite_none_left_eq_some.mp hok
      have hrec : Recorded journal (chargeRetry runner.state definition.stageId used) :=
        h.recorded.frame ⟨rfl, rfl, rfl, rfl, rfl, rfl, rfl, .inr rfl, .inr rfl⟩
      exact startAttempt (s := chargeRetry runner.state definition.stageId used) hrec h.stored h.retained
        h.advancing h.checkpointed (toOption_some.mp hok)
    · cases hok
  | giveUp exhausted =>
    unfold Machine.advance at hok
    dsimp only at hok
    split at hok
    · rename_i hattempt
      obtain ⟨-, hok⟩ := Option.ite_none_left_eq_some.mp hok
      obtain rfl := Option.some.inj hok
      exact h.giveUp h.point hattempt exhausted
    · cases hok
  | _ => first | exact (Option.some_ne_none _ hok.symm).elim | exact (Bool.eq_false_iff.mp hin rfl).elim

/-- The steps after an accepted outcome. -/
theorem settle {action : Action} {o : StageOutcome} {final : Bool} (h : Grounded m paths)
    (hpoint : m.point = .settling o final) (hin : Machine.outside action = false)
    (hok : m.advance action = some m') : Grounded m' paths := by
  obtain ⟨runner, point, journal, snapshotting⟩ := m
  subst hpoint
  cases action with
  | boundary snapshotId =>
    obtain rfl := Option.some.inj hok
    have hsame : SameGround runner (runner.setState { runner.state with stableSnapshotId := some snapshotId }) :=
      sameGround_of_eq ⟨rfl, rfl, rfl, rfl, rfl, rfl, rfl, .inr rfl, .inr rfl⟩ rfl rfl rfl id rfl
    exact h.frame hsame snapshotting
  | settle =>
    obtain rfl := Option.some.inj hok
    have hsame : SameGround runner (finishStep runner final) :=
      sameGround_of_eq ⟨rfl, rfl, rfl, rfl, rfl, rfl, rfl, .inr rfl, .inr rfl⟩ rfl rfl rfl id rfl
    exact (h.frame hsame snapshotting).moveTo trivial
  | _ => first | exact (Option.some_ne_none _ hok.symm).elim | exact (Bool.eq_false_iff.mp hin rfl).elim

theorem ended {action : Action} (h : Grounded m paths) (hpoint : m.point = .ended) (hin : Machine.outside action = false)
    (hok : m.advance action = some m') : Grounded m' paths := by
  obtain ⟨runner, point, journal, snapshotting⟩ := m
  subst hpoint
  cases action with
  | failed =>
    obtain rfl := Option.some.inj hok
    have hsame : SameGround runner
        { runner with stepFuture := false, state := { runner.state with phase := .failed } } :=
      sameGround_of_eq ⟨rfl, rfl, rfl, rfl, rfl, rfl, rfl, .inr rfl, .inr rfl⟩ rfl rfl rfl id rfl
    exact h.frame hsame snapshotting
  | _ => first | exact (Option.some_ne_none _ hok.symm).elim | exact (Bool.eq_false_iff.mp hin rfl).elim

theorem afterSave (h : Grounded m paths) (action : Action) :
    Grounded (if Machine.saves action then m.synced else m) paths := by
  split
  · exact h.synced
  · exact h

theorem finished {action : Action} {o : StageOutcome} (h : Grounded m paths) (hs : Sound m) (hpoint : m.point = .finished o)
    (hin : Machine.outside action = false) (hok : m.advance action = some m') :
    Grounded (if Machine.saves action then m'.synced else m') (paths ++ Machine.retaining m action) := by
  obtain ⟨runner, point, journal, snapshotting⟩ := m
  subst hpoint
  cases action with
  | consume => exact h.consume rfl hs.point.2 h.point (toOption_some.mp hok)
  | _ => first | exact (Option.some_ne_none _ hok.symm).elim | exact (Bool.eq_false_iff.mp hin rfl).elim

theorem deciding {action : Action} {o : StageOutcome} {requested : Bool} (h : Grounded m paths) (hs : Sound m)
    (hpoint : m.point = .deciding o requested) (hin : Machine.outside action = false)
    (hok : m.advance action = some m') : Grounded (if Machine.saves action then m'.synced else m') paths := by
  obtain ⟨runner, point, journal, snapshotting⟩ := m
  subst hpoint
  cases action with
  | decide snapshotId => exact h.decide hs.saveable hs.point.1.noRebuild (toOption_some.mp hok)
  | _ => first | exact (Option.some_ne_none _ hok.symm).elim | exact (Bool.eq_false_iff.mp hin rfl).elim

/-- Every step keeps the references of the run in its journal. -/
theorem transition {action : Action} (h : Grounded m paths) (hs : Sound m) (hok : m.transition action = some m') :
    Grounded m' (paths ++ Machine.retaining m action) := by
  obtain ⟨next, hnext, rfl⟩ := Option.map_eq_some_iff.mp hok
  have hplain : Machine.retaining m action = [] → Grounded (if Machine.saves action then next.synced else next) paths →
      Grounded (if Machine.saves action then next.synced else next) (paths ++ Machine.retaining m action) := by
    intro hnone hg
    rw [hnone, List.append_nil]
    exact hg
  cases hout : Machine.outside action with
  | true => exact hplain (Machine.retaining_outside hout) ((h.outside hout hnext).afterSave action)
  | false =>
    cases hpoint : m.point with
    | finished o => exact h.finished hs hpoint hout hnext
    | waiting =>
      exact hplain (Machine.retaining_point (by simp [hpoint])) ((h.waiting hpoint hout hnext).afterSave action)
    | started manual =>
      exact hplain (Machine.retaining_point (by simp [hpoint])) ((h.started hpoint hout hnext).afterSave action)
    | visiting =>
      exact hplain (Machine.retaining_point (by simp [hpoint])) ((h.visiting hpoint hout hnext).afterSave action)
    | accepted response =>
      exact hplain (Machine.retaining_point (by simp [hpoint])) ((h.accepted hpoint hout hnext).afterSave action)
    | retrying used response =>
      exact hplain (Machine.retaining_point (by simp [hpoint])) ((h.retrying hpoint hout hnext).afterSave action)
    | deciding o requested =>
      exact hplain (Machine.retaining_point (by simp [hpoint])) (h.deciding hs hpoint hout hnext)
    | settling o final =>
      exact hplain (Machine.retaining_point (by simp [hpoint])) ((h.settle hpoint hout hnext).afterSave action)
    | reloading progress =>
      exact hplain (Machine.retaining_point (by simp [hpoint])) ((h.reload hs hpoint hout hnext).afterSave action)
    | ended =>
      exact hplain (Machine.retaining_point (by simp [hpoint])) ((h.ended hpoint hout hnext).afterSave action)

end Grounded

theorem Machine.fresh_grounded (experimentId runId revision : String) (template : ExperimentTemplate)
    (services : Dict ServiceInstance) (desired : Mode) :
    Grounded (fresh experimentId runId revision template services desired) [] := by
  refine ⟨⟨?_, ?_, ?_, ?_, ?_, fun _ => rfl, ?_⟩, ?_, fun path => Iff.rfl, fun _ => kept_of_none rfl,
    fun _ => kept_of_none rfl, trivial⟩
  · intro k id hk
    cases hk
  all_goals
    intro x hx
    cases hx

/-- Saving a checkpoint keeps the invariant of the run. -/
theorem Machine.transition_sound {m m' : Machine} {action : Action} (h : Sound m) (hok : m.transition action = some m') :
    Sound m' := by
  obtain ⟨next, hnext, rfl⟩ := Option.map_eq_some_iff.mp hok
  have hs := advance_sound h hnext
  split
  · exact hs.frame (SameSaved.saveable (by constructor <;> rfl) hs.saveable) (by constructor <;> rfl) rfl id
  · exact hs

end ModularPipelines.Runner
