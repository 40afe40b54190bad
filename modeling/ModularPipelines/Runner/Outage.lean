import ModularPipelines.Runner.RecordedRuns

namespace ModularPipelines.Runner
open Library Services

/-- The requested mode, the effective one and the reason of a journal pause are the same. -/
structure SameModes (a b : ActiveRunner) : Prop where
  desired : b.desiredMode = a.desiredMode
  mode : b.state.mode = a.state.mode
  reason : b.journalPauseReason = a.journalPauseReason

/-- `last` is the last accepted mode decision: it is in force unless the journal is out. -/
structure Moded (a : ActiveRunner) (last : Mode) : Prop where
  desired : a.desiredMode = last
  steady : a.journalPauseReason = none → a.state.mode = last
  outage : a.journalPauseReason ≠ none → a.state.mode = .paused

section Modes
variable {a b : ActiveRunner} {last : Mode}

theorem SameModes.refl (a : ActiveRunner) : SameModes a a := ⟨rfl, rfl, rfl⟩

theorem SameModes.trans {c : ActiveRunner} (h : SameModes a b) (g : SameModes b c) : SameModes a c :=
  ⟨g.desired.trans h.desired, g.mode.trans h.mode, g.reason.trans h.reason⟩

theorem Moded.frame (h : Moded a last) (hs : SameModes a b) : Moded b last := by
  refine ⟨hs.desired.trans h.desired, ?_, ?_⟩
  · intro hr
    exact hs.mode.trans (h.steady (hs.reason ▸ hr))
  · intro hr
    exact hs.mode.trans (h.outage (hs.reason ▸ hr))

/-- A pause is in force whether the journal is out or not. -/
theorem moded_paused (hdesired : a.desiredMode = .paused) (hmode : a.state.mode = .paused) : Moded a .paused :=
  ⟨hdesired, fun _ => hmode, fun _ => hmode⟩

theorem Moded.observe (h : Moded a last) : Moded (updateJournalPause a) last := by
  unfold updateJournalPause
  split
  · exact h
  · split
    · refine ⟨h.desired, ?_, fun _ => rfl⟩
      intro hr
      cases hr
    · split
      · exact ⟨h.desired, fun _ => h.desired, fun hr => absurd rfl hr⟩
      · exact h

/-- Once the journal is ready the last decision is in force. -/
theorem Moded.recovered (h : Moded a last) {status : JournalStatus} (hready : status.state = .ready)
    (havailable : status.historyAvailable = true) :
    (updateJournalPause { a with journal := some status }).state.mode = last ∧
      (updateJournalPause { a with journal := some status }).journalPauseReason = none := by
  have hnone : status.pauseReason = none := by simp [JournalStatus.pauseReason, hready, havailable]
  unfold updateJournalPause
  simp only [hnone]
  split
  · exact ⟨h.desired, rfl⟩
  · rename_i hnot
    have hreason : a.journalPauseReason = none := by
      apply not_not.mp
      intro hne
      exact hnot ⟨hne, hready⟩
    exact ⟨h.steady hreason, hreason⟩

/-- A resume that passes its checks has seen the journal ready. -/
theorem moded_resume (hreason : a.journalPauseReason = none) : Moded (beginResume a) .running :=
  ⟨rfl, fun _ => rfl, fun hne => absurd hreason hne⟩

end Modes

/-- The commands that need a requested pause. -/
def Command.needsPause : Command → Bool
  | .rerun _ | .step | .stepAfterReady | .move _ | .resetRetries _ _ => true
  | _ => false

def Command.resumes : Command → Bool
  | .resume | .resumeAfterReady => true
  | _ => false

section Commands
variable {a b : ActiveRunner} {last : Mode} {c : Command}

theorem stepReady_modes (a : ActiveRunner) :
    ∃ b, (stepReady a.toRunner).2 = b.toRunner ∧ SameModes a b := by
  obtain h | ⟨-, -, h⟩ := stepReady_issued a
  · exact ⟨a, h, .refl a⟩
  · exact ⟨beginStep a, h, rfl, rfl, rfl⟩

theorem step_modes (a : ActiveRunner) : ∃ b, (step a.toRunner).2 = b.toRunner ∧ SameModes a b := by
  obtain h | ⟨-, -, h⟩ := step_issued a
  · exact ⟨a, h, .refl a⟩
  · exact ⟨beginStep a, h, rfl, rfl, rfl⟩

theorem moveAllowed_same {position : Argument} {n : Nat} (h : moveAllowed a.toRunner position = .ok (b, n)) :
    b = a ∧ a.state.mode = .paused := by
  obtain ⟨-, h⟩ := rejectIf_then.mp h
  obtain ⟨d, hd, h⟩ := bind_ok.mp h
  rw [(requireActive_toRunner hd).1] at h
  obtain ⟨hmode, h⟩ := rejectIf_then.mp h
  split at h
  · cases h
  · refine ⟨(Prod.mk.inj (Except.ok.inj h)).1.symm, ?_⟩
    apply not_not.mp
    intro hne
    exact hmode (.inl hne)

theorem resetRetryCount_same {kind : String} {position : Argument} (h : resetRetryCount a.toRunner kind position = .ok b) :
    SameModes a b ∧ a.state.mode = .paused := by
  obtain ⟨-, h⟩ := rejectIf_then.mp h
  obtain ⟨d, hd, h⟩ := bind_ok.mp h
  rw [(requireActive_toRunner hd).1] at h
  obtain ⟨-, h⟩ := rejectIf_then.mp h
  obtain ⟨hmode, h⟩ := rejectIf_then.mp h
  refine ⟨?_, not_not.mp hmode⟩
  split at h
  · obtain ⟨-, h⟩ := rejectIf_then.mp h
    split at h
    · cases h
    · split at h
      · cases h
      · obtain rfl := Except.ok.inj h
        exact ⟨rfl, rfl, rfl⟩
  · unfold resetStageRetries at h
    split at h
    · cases h
    · obtain rfl := Except.ok.inj h
      exact ⟨rfl, rfl, rfl⟩

theorem stepAllowed_paused (h : stepAllowed a.toRunner = .ok b) : a.state.mode = .paused := by
  obtain ⟨d, hd, h⟩ := bind_ok.mp h
  rw [(requireActive_toRunner hd).1] at h
  obtain ⟨hmode, -⟩ := rejectIf_then.mp h
  apply not_not.mp
  intro hne
  exact hmode (.inl hne)

theorem rerunAllowed_paused {position : Argument} (h : rerunAllowed a.toRunner position = .ok ()) :
    a.state.mode = .paused := by
  obtain ⟨-, h⟩ := rejectIf_then.mp h
  obtain ⟨d, hd, h⟩ := bind_ok.mp h
  rw [(requireActive_toRunner hd).1] at h
  obtain ⟨-, h⟩ := rejectIf_then.mp h
  have hmode := rejectIf_ok.mp h
  apply not_not.mp
  intro hne
  exact hmode (.inr (.inl hne))

theorem reloadAllowed_paused (h : reloadAllowed a.toRunner = .ok b) : a.state.mode = .paused := by
  obtain ⟨d, hd, h⟩ := bind_ok.mp h
  rw [(requireActive_toRunner hd).1] at h
  obtain ⟨hmode, -⟩ := rejectIf_then.mp h
  apply not_not.mp
  intro hne
  apply hmode
  simp [hne]

/-- Only a resume changes a mode. -/
theorem issue_modes (a : ActiveRunner) (hc : c.resumes = false) :
    ∃ b, (issue a.toRunner c).2 = b.toRunner ∧ SameModes a b := by
  cases c with
  | rerun position =>
    show ∃ b, (rerun a.toRunner position).2 = b.toRunner ∧ SameModes a b
    unfold rerun
    split
    · exact ⟨a, rfl, .refl a⟩
    · obtain ⟨b, hb, hs⟩ := step_modes a.markRerun
      have hmarked : SameModes a a.markRerun := ⟨rfl, rfl, rfl⟩
      exact ⟨b, hb, hmarked.trans hs⟩
  | step => exact step_modes a
  | move position =>
    obtain h | ⟨⟨d, n⟩, hd, h⟩ := admit_cases (moveAllowed a.toRunner position) a.toRunner (fun r => moveCursor r.1 r.2)
    · exact ⟨a, h, .refl a⟩
    · obtain ⟨rfl, -⟩ := moveAllowed_same hd
      refine ⟨_, h, rfl, ?_, rfl⟩
      show (dropStaleResult (d.state.relocate n)).mode = d.state.mode
      unfold dropStaleResult
      split <;> rfl
  | resetRetries kind position =>
    obtain h | ⟨d, hd, h⟩ := admit_cases (resetRetryCount a.toRunner kind position) a.toRunner id
    · exact ⟨a, h, .refl a⟩
    · exact ⟨d, h, (resetRetryCount_same hd).1⟩
  | startService position =>
    show ∃ b, (startService a.toRunner position).2 = b.toRunner ∧ SameModes a b
    unfold startService
    split
    · exact ⟨a, rfl, .refl a⟩
    · rename_i d definition hok
      obtain rfl := serviceControl_toRunner hok
      unfold beginServiceStart
      split
      · exact ⟨{ d with serviceRetrying := false }, rfl, rfl, rfl, rfl⟩
      · exact ⟨{ d with serviceRetrying := true }, rfl, rfl, rfl, rfl⟩
  | stopService position instanceId =>
    show ∃ b, (stopService a.toRunner position instanceId).2 = b.toRunner ∧ SameModes a b
    unfold stopService
    generalize "service stop requires an idle pause without another service or maintenance operation." = message
    obtain h | ⟨⟨d, definition⟩, hd, h⟩ := admit_cases (serviceControl a.toRunner position message) a.toRunner
      (fun r => beginServiceStop r.1 r.2 instanceId)
    · exact ⟨a, h, .refl a⟩
    · obtain rfl := serviceControl_toRunner hd
      exact ⟨_, h, rfl, rfl, rfl⟩
  | snapshot label =>
    obtain h | ⟨d, hd, h⟩ := admit_cases (snapshotAllowed a.toRunner label) a.toRunner beginSnapshot
    · exact ⟨a, h, .refl a⟩
    · obtain ⟨u, -, hd⟩ := bind_ok.mp hd
      obtain ⟨e, he, hd⟩ := bind_ok.mp hd
      rw [(requireActive_toRunner he).1] at hd
      simp only [rejectIf_then] at hd
      obtain rfl := Except.ok.inj hd.2.2
      exact ⟨_, h, rfl, rfl, rfl⟩
  | stepAfterReady => exact stepReady_modes a
  | resume => cases hc
  | resumeAfterReady => cases hc

theorem refuseJournalPause_ok {u : Unit} (h : refuseJournalPause a = .ok u) : a.journalPauseReason = none := by
  unfold refuseJournalPause at h
  split at h
  · cases h
  · rename_i hnone
    exact hnone

/-- A resume is accepted with its mode, or leaves the modes to the journal. -/
theorem resumeReady_modes (h : Moded a last) : ∃ b, (resumeReady a.toRunner).2 = b.toRunner ∧
    Moded b (if (resumeReady a.toRunner).1 = .accepted then .running else last) := by
  unfold resumeReady
  cases hr : requireActive a.toRunner with
  | error e => exact ⟨a, rfl, h⟩
  | ok d =>
    rw [(requireActive_toRunner hr).1]
    have hcases : ∀ allowed, resumeAllowed (updateJournalPause a) = allowed →
        ∃ b, (admitIf allowed (updateJournalPause a).toRunner beginResume).2 = b.toRunner ∧
          Moded b (if (admitIf allowed (updateJournalPause a).toRunner beginResume).1 = .accepted then .running
            else last) := by
      intro allowed hallowed
      cases allowed with
      | error e => exact ⟨updateJournalPause a, rfl, h.observe⟩
      | ok d =>
        obtain ⟨u, hu, hd⟩ := bind_ok.mp hallowed
        simp only [rejectIf_then] at hd
        obtain rfl := Except.ok.inj hd.2.2.2
        exact ⟨_, rfl, moded_resume (refuseJournalPause_ok hu)⟩
    exact hcases _ rfl

theorem resume_modes (h : Moded a last) : ∃ b, (resume a.toRunner).2 = b.toRunner ∧
    Moded b (if (resume a.toRunner).1 = .accepted then .running else last) := by
  unfold resume
  split
  · exact ⟨a, rfl, h⟩
  · split
    · exact resumeReady_modes h
    · exact ⟨a, rfl, h⟩

/-- The mode that a command decides on. -/
def commandDecision (a : ActiveRunner) (c : Command) : Option Mode :=
  if c.resumes = true ∧ (issue a.toRunner c).1 = .accepted then some .running else none

theorem command_moded (h : Moded a last) (c : Command) :
    ∃ b, (issue a.toRunner c).2 = b.toRunner ∧ Moded b ((commandDecision a c).getD last) := by
  cases hc : c.resumes with
  | false =>
    obtain ⟨b, hb, hs⟩ := issue_modes a hc
    refine ⟨b, hb, ?_⟩
    rw [commandDecision, if_neg (by simp [hc])]
    exact h.frame hs
  | true =>
    have hready : ∃ b, (issue a.toRunner c).2 = b.toRunner ∧
        Moded b (if (issue a.toRunner c).1 = .accepted then .running else last) := by
      cases c with
      | resume => exact resume_modes h
      | resumeAfterReady => exact resumeReady_modes h
      | _ => cases hc
    obtain ⟨b, hb, hm⟩ := hready
    refine ⟨b, hb, ?_⟩
    by_cases haccepted : (issue a.toRunner c).1 = .accepted
    · rw [commandDecision, if_pos ⟨hc, haccepted⟩]
      rwa [if_pos haccepted] at hm
    · rw [commandDecision, if_neg (fun hall => haccepted hall.2)]
      rwa [if_neg haccepted] at hm

/-- A command that needs a requested pause looks at the mode that is in force. -/
theorem needsPause_paused (hc : c.needsPause = true) (hok : (issue a.toRunner c).1 = .accepted) :
    a.state.mode = .paused := by
  have hadmit : ∀ {α : Type} {allowed : Except RunnerError α} {r : ExperimentRunner} {effect : α → ActiveRunner},
      (admitIf allowed r effect).1 = .accepted → ∃ x, allowed = .ok x := by
    intro α allowed r effect h
    cases allowed with
    | error e => cases h
    | ok x => exact ⟨x, rfl⟩
  cases c with
  | rerun position =>
    change (rerun a.toRunner position).1 = .accepted at hok
    unfold rerun at hok
    split at hok
    · cases hok
    · rename_i hallowed
      exact rerunAllowed_paused hallowed
  | step =>
    change (step a.toRunner).1 = .accepted at hok
    unfold step at hok
    split at hok
    · cases hok
    · split at hok
      · obtain ⟨b, hb⟩ := hadmit hok
        exact stepAllowed_paused hb
      · cases hok
  | stepAfterReady =>
    obtain ⟨b, hb⟩ := hadmit hok
    exact stepAllowed_paused hb
  | move position =>
    obtain ⟨⟨b, n⟩, hb⟩ := hadmit hok
    exact (moveAllowed_same hb).2
  | resetRetries kind position =>
    obtain ⟨b, hb⟩ := hadmit hok
    exact (resetRetryCount_same hb).2
  | _ => cases hc

end Commands

section Outcomes
variable {a b : ActiveRunner} {last : Mode}

theorem applyDagDecision_moded {source : LastDecision} (h : Moded a last) (hok : applyDagDecision a source = .ok b) :
    Moded b (if source.isPause = true then .paused else last) := by
  unfold applyDagDecision at hok
  split at hok
  · rename_i hpause
    obtain rfl := Except.ok.inj hok
    rw [if_pos (by simp [LastDecision.isPause, hpause])]
    exact moded_paused rfl rfl
  · rename_i target hmove
    obtain ⟨position, -, rfl⟩ := applyConditionalMove_ok hok
    rw [if_neg (by simp [LastDecision.isPause, hmove])]
    exact h.frame ⟨rfl, rfl, rfl⟩
  · rename_i hstop
    obtain rfl := Except.ok.inj hok
    rw [if_neg (by simp [LastDecision.isPause, hstop])]
    exact h.frame ⟨rfl, rfl, rfl⟩
  · rename_i hnone
    obtain rfl := Except.ok.inj hok
    rw [if_neg (by simp [LastDecision.isPause, hnone])]
    exact h.frame ⟨rfl, rfl, rfl⟩

theorem applyPendingDagDecision_moded (h : Moded a last) (hok : applyPendingDagDecision a = .ok b) :
    Moded b (if a.state.pendingDagDecision.any LastDecision.isPause = true then .paused else last) := by
  unfold applyPendingDagDecision at hok
  split at hok
  · rename_i hnone
    obtain rfl := Except.ok.inj hok
    rw [if_neg (by simp [hnone])]
    exact h
  · rename_i source hsome
    have hdeferred : Moded (a.deferred none) last := h.frame ⟨rfl, rfl, rfl⟩
    simpa [hsome] using applyDagDecision_moded hdeferred hok

/-- A scheduler that starts again is paused. -/
theorem restartScheduler_moded (hok : restartScheduler a = .ok b) : Moded b .paused := by
  obtain ⟨c, hc, hok⟩ := bind_ok.mp hok
  obtain rfl := Except.ok.inj hok
  have hdesired : c.desiredMode = .paused := by
    unfold applyPendingDagDecision at hc
    split at hc
    · obtain rfl := Except.ok.inj hc
      rfl
    · unfold applyDagDecision at hc
      split at hc
      · obtain rfl := Except.ok.inj hc
        rfl
      · obtain ⟨position, -, rfl⟩ := applyConditionalMove_ok hc
        rfl
      · obtain rfl := Except.ok.inj hc
        rfl
      · obtain rfl := Except.ok.inj hc
        rfl
  exact moded_paused hdesired hdesired

/-- The conditional command of a success that is applied at once. -/
def pausesAtOnce (s : RunnerState) (o : StageOutcome) : Bool :=
  (s.current.bind StageDefinition.returnsData).isSome &&
    (o.accepted.bind StageResult.dagDecision == some (some .pause)) && !requestedSnapshot s o

/-- The mode that the end of a visit decides on. -/
def outcomeDecision (s : RunnerState) (o : StageOutcome) : Option Mode :=
  if o.attempt.outcome = some .unknown then some .paused
  else if o.action = .stop then none
  else if o.action = .pause ∨ pausesAtOnce s o = true then some .paused
  else none

theorem releaseAttempt_moded (h : Moded a last) (o : StageOutcome) :
    Moded (releaseAttempt a o) (if o.action = .pause then .paused else last) := by
  unfold releaseAttempt
  dsimp only
  split
  · exact moded_paused rfl rfl
  · exact h.frame ⟨rfl, rfl, rfl⟩

theorem applyStageOutcome_moded {o : StageOutcome} (h : Moded a last)
    (hlive : ¬ (o.attempt.outcome = some .unknown ∨ o.action = .stop))
    (hok : applyStageOutcome a o (requestedSnapshot a.state o) = .ok b) :
    Moded b ((outcomeDecision a.state o).getD last) := by
  have hrel := releaseAttempt_moded h o
  obtain ⟨hunknown, hstop⟩ := not_or.mp hlive
  have hdecision : (outcomeDecision a.state o).getD last =
      if pausesAtOnce a.state o = true then .paused else if o.action = .pause then .paused else last := by
    rw [outcomeDecision, if_neg hunknown, if_neg hstop]
    cases hp : pausesAtOnce a.state o <;> by_cases ha : o.action = .pause <;> simp [ha]
  rw [hdecision]
  unfold applyStageOutcome at hok
  split at hok
  · rename_i hnone
    obtain rfl := Except.ok.inj hok
    rw [if_neg (by simp [pausesAtOnce, hnone])]
    exact hrel.frame ⟨rfl, rfl, rfl⟩
  · cases hok
  · rename_i response requestId hacc hid
    obtain ⟨decision, hdec, hok⟩ := bind_ok.mp hok
    have hkept : Moded (retainResult (releaseAttempt a o) o response requestId)
        (if o.action = .pause then .paused else last) := hrel.frame ⟨rfl, rfl, rfl⟩
    have hcur : (retainResult (releaseAttempt a o) o response requestId).state.current = a.state.current :=
      (releaseAttempt_kept a o).2.2
    have hsome := acceptedDecision_isSome hdec
    rw [hcur] at hsome
    cases decision with
    | none =>
      obtain rfl := Except.ok.inj hok
      rw [if_neg (by simp [pausesAtOnce, ← hsome])]
      exact hkept
    | some source =>
      obtain ⟨command, hcommand, rfl⟩ := acceptedDecision_some hdec
      cases hrequested : requestedSnapshot a.state o with
      | true =>
        rw [hrequested] at hok
        obtain rfl := Except.ok.inj hok
        rw [if_neg (by simp [pausesAtOnce, hrequested])]
        exact hkept.frame ⟨rfl, rfl, rfl⟩
      | false =>
        rw [hrequested] at hok
        have hretained : Moded (retainInputArtifacts (retainResult (releaseAttempt a o) o response requestId) o.artifacts)
            (if o.action = .pause then .paused else last) := hkept.frame ⟨rfl, rfl, rfl⟩
        have happlied := applyDagDecision_moded hretained hok
        have hsame : pausesAtOnce a.state o = (command == some .pause) := by
          simp [pausesAtOnce, ← hsome, hacc, hcommand, hrequested]
        rw [hsame]
        exact happlied

end Outcomes

namespace Machine

/-- The mode that a step decides on: of a user, of a policy or of a conditional node. -/
def modeDecision (m : Machine) : Action → Option Mode
  | .command c => commandDecision m.runner c
  | .requestPause | .supervise | .refuseReadiness | .commitReload | .rollbackReload _ => some .paused
  | .consume =>
    match m.point with
    | .finished o => outcomeDecision m.runner.state o
    | _ => none
  | .decide _ =>
    match m.point with
    | .deciding _ true => if m.runner.state.pendingDagDecision.any LastDecision.isPause then some .paused else none
    | _ => none
  | .abandonReload =>
    match m.point with
    | .reloading (.planned _) => some .paused
    | _ => none
  | _ => none

/-- The journal is the only reason for the pause. -/
def outageOnly (m : Machine) (last : Mode) : Prop := m.runner.journalPauseReason ≠ none ∧ last = .running

/-- A command that needs a requested pause is not given while the journal alone pauses the
run, and no pause ends after a later resume. -/
def Considerate (m : Machine) (last : Mode) : Action → Prop
  | .command c => c.needsPause = true → ¬ m.outageOnly last
  | .beginReload => ¬ m.outageOnly last
  | .settlePause => m.runner.journalPauseReason = none → last = .paused
  | _ => True

section Steps
variable {m m' : Machine} {last : Mode}

theorem consume_moded {o : StageOutcome} (h : Moded m.runner last) (hok : m.consume o = .ok m') :
    Moded m'.runner ((outcomeDecision m.runner.state o).getD last) := by
  unfold Machine.consume at hok
  dsimp only at hok
  split at hok
  · rename_i hunknown
    obtain rfl := Except.ok.inj hok
    rw [outcomeDecision, if_pos hunknown]
    exact moded_paused rfl rfl
  · rename_i hknown
    split at hok
    · rename_i hstop
      obtain rfl := Except.ok.inj hok
      rw [outcomeDecision, if_neg hknown, if_pos hstop]
      exact h.frame ⟨rfl, rfl, rfl⟩
    · rename_i hgo
      obtain ⟨a, ha, hok⟩ := bind_ok.mp hok
      obtain rfl := Except.ok.inj hok
      have hstart : Moded { m.runner with stageTask := false } last := h.frame ⟨rfl, rfl, rfl⟩
      have happlied := applyStageOutcome_moded hstart (not_or.mpr ⟨hknown, hgo⟩) ha
      exact happlied.frame ⟨rfl, rfl, rfl⟩

theorem decide_moded {o : StageOutcome} {requested : Bool} {snapshotId : String} (h : Moded m.runner last)
    (hok : m.decide o requested snapshotId = .ok m') : Moded m'.runner
      (if requested = true ∧ m.runner.state.pendingDagDecision.any LastDecision.isPause = true then .paused else last) := by
  obtain ⟨a, ha, hok⟩ := bind_ok.mp hok
  obtain rfl := Except.ok.inj hok
  have hresolved : Moded a
      (if requested = true ∧ m.runner.state.pendingDagDecision.any LastDecision.isPause = true then .paused else last) := by
    cases requested with
    | false =>
      obtain rfl := Except.ok.inj ha
      exact h
    | true =>
      have hstart : Moded (m.runner.setState { m.runner.state with stableSnapshotId := some snapshotId }) last :=
        h.frame ⟨rfl, rfl, rfl⟩
      have happlied := applyPendingDagDecision_moded hstart ha
      simp only [true_and]
      exact happlied
  unfold followOutcome
  split
  · exact hresolved.frame ⟨rfl, rfl, rfl⟩
  · exact hresolved

theorem settlePause_moded (h : Moded m.runner last) (hc : m.runner.journalPauseReason = none → last = .paused) :
    Moded m.runner.settlePause last :=
  ⟨h.desired, fun hr => (hc hr).symm, fun _ => rfl⟩

theorem launch_modes (a : ActiveRunner) : SameModes a (launchNextStage a).1 := by
  refine ⟨rfl, ?_, rfl⟩
  show (if a.pendingAdvance then advanceCursor a.state else a.state).mode = a.state.mode
  split
  · unfold advanceCursor
    dsimp only
    split <;> rfl
  · rfl

theorem startAttempt_modes {s : RunnerState} {definition : StageDefinition} {inputData : Json} {ids : AttemptIds}
    (hs : s.mode = m.runner.state.mode) (hok : m.startAttempt s definition inputData ids = .ok m') :
    SameModes m.runner m'.runner := by
  obtain ⟨bound, hbound, hok⟩ := bind_ok.mp hok
  obtain rfl := Except.ok.inj hok
  obtain ⟨-, hbound⟩ := rejectIf_then.mp hbound
  obtain rfl := Except.ok.inj hbound
  refine ⟨rfl, ?_, rfl⟩
  show RunnerState.mode (if _ then _ else _) = _
  split
  · exact hs
  · exact hs

theorem beginVisit_modes {manual : Bool} {ids : AttemptIds} (hok : m.beginVisit manual ids = .ok m') :
    SameModes m.runner m'.runner := by
  obtain ⟨inputData, -, hok⟩ := bind_ok.mp hok
  split at hok
  · cases hok
  · apply startAttempt_modes _ hok
    cases manual <;> rfl

/-- What each step does to the modes. -/
theorem advance_moded {action : Action} (h : Moded m.runner last) (hc : m.Considerate last action)
    (hok : m.advance action = some m') : Moded m'.runner ((m.modeDecision action).getD last) := by
  obtain ⟨runner, point, journal, snapshotting⟩ := m
  cases action with
  | command c =>
    obtain ⟨b, hb, hm⟩ := command_moded h c
    change (issue runner.toRunner c).2.select.map _ = some m' at hok
    rw [hb, ExperimentRunner.select_toRunner] at hok
    obtain rfl := Option.some.inj hok
    exact hm
  | requestPause =>
    obtain ⟨-, hok⟩ := Option.ite_none_right_eq_some.mp hok
    obtain rfl := Option.some.inj hok
    exact moded_paused rfl rfl
  | settlePause =>
    obtain ⟨-, hok⟩ := Option.ite_none_right_eq_some.mp hok
    obtain ⟨a, ha, rfl⟩ := map_toOption hok
    rw [(requireActive_toRunner ha).1]
    exact settlePause_moded h hc
  | observeJournal status =>
    obtain rfl := Option.some.inj hok
    have hstatus : Moded { runner with journal := status } last := h.frame ⟨rfl, rfl, rfl⟩
    exact hstatus.observe
  | serviceWork services requestIds =>
    obtain rfl := Option.some.inj hok
    obtain ⟨used, -, heq⟩ := Grounded.useRequests_state runner.state requestIds
    rw [heq]
    exact h.frame ⟨rfl, rfl, rfl⟩
  | endServiceControl =>
    obtain rfl := Option.some.inj hok
    exact h.frame ⟨rfl, rfl, rfl⟩
  | endSnapshot created =>
    obtain ⟨-, hok⟩ := Option.ite_none_right_eq_some.mp hok
    obtain rfl := Option.some.inj hok
    cases created <;> exact h.frame ⟨rfl, rfl, rfl⟩
  | save checkpointId =>
    obtain ⟨s, hs, rfl⟩ := map_toOption hok
    obtain ⟨u, -, hs⟩ := bind_ok.mp hs
    obtain rfl := Except.ok.inj hs
    exact h.frame ⟨rfl, rfl, rfl⟩
  | fail =>
    obtain rfl := Option.some.inj hok
    exact h.frame ⟨rfl, rfl, rfl⟩
  | supervise =>
    cases point with
    | waiting | started manual | visiting | accepted response | retrying used response =>
      obtain rfl := Option.some.inj hok
      exact moded_paused rfl rfl
    | _ => exact (Option.some_ne_none _ hok.symm).elim
  | refuseReadiness =>
    cases point with
    | waiting =>
      obtain rfl := Option.some.inj hok
      exact moded_paused rfl rfl
    | _ => exact (Option.some_ne_none _ hok.symm).elim
  | launch =>
    cases point with
    | waiting =>
      obtain ⟨-, hok⟩ := Option.ite_none_right_eq_some.mp hok
      obtain rfl := Option.some.inj hok
      exact h.frame (launch_modes runner)
    | _ => exact (Option.some_ne_none _ hok.symm).elim
  | beginAttempt ids =>
    cases point with
    | started manual => exact h.frame (beginVisit_modes (toOption_some.mp hok))
    | _ => exact (Option.some_ne_none _ hok.symm).elim
  | acceptReport report unconfirmed =>
    cases point with
    | visiting =>
      unfold advance at hok
      dsimp only at hok
      split at hok
      · obtain rfl := Option.some.inj hok
        exact h.frame ⟨rfl, rfl, rfl⟩
      · cases hok
    | _ => exact (Option.some_ne_none _ hok.symm).elim
  | conclude artifacts =>
    cases point with
    | accepted response =>
      unfold advance at hok
      dsimp only at hok
      split at hok
      · obtain rfl := Option.some.inj hok
        unfold concludeVisit
        split <;> exact h.frame ⟨rfl, rfl, rfl⟩
      · cases hok
    | _ => exact (Option.some_ne_none _ hok.symm).elim
  | retry ids =>
    cases point with
    | retrying used response =>
      unfold advance at hok
      dsimp only at hok
      split at hok
      · rename_i definition attempt _ _
        obtain ⟨-, hok⟩ := Option.ite_none_left_eq_some.mp hok
        have hmode : (chargeRetry runner.state definition.stageId used).mode = runner.state.mode := rfl
        exact h.frame (startAttempt_modes hmode (toOption_some.mp hok))
      · cases hok
    | _ => exact (Option.some_ne_none _ hok.symm).elim
  | giveUp action =>
    cases point with
    | retrying used response =>
      unfold advance at hok
      dsimp only at hok
      split at hok
      · obtain ⟨-, hok⟩ := Option.ite_none_left_eq_some.mp hok
        obtain rfl := Option.some.inj hok
        exact h.frame ⟨rfl, rfl, rfl⟩
      · cases hok
    | _ => exact (Option.some_ne_none _ hok.symm).elim
  | consume =>
    cases point with
    | finished o => exact consume_moded h (toOption_some.mp hok)
    | _ => exact (Option.some_ne_none _ hok.symm).elim
  | decide snapshotId =>
    cases point with
    | deciding o requested =>
      have hm := decide_moded h (toOption_some.mp hok)
      cases requested with
      | false => simpa [modeDecision] using hm
      | true =>
        cases hp : runner.state.pendingDagDecision.any LastDecision.isPause <;> simpa [modeDecision, hp] using hm
    | _ => exact (Option.some_ne_none _ hok.symm).elim
  | boundary snapshotId =>
    cases point with
    | settling o final =>
      obtain rfl := Option.some.inj hok
      exact h.frame ⟨rfl, rfl, rfl⟩
    | _ => exact (Option.some_ne_none _ hok.symm).elim
  | settle =>
    cases point with
    | settling o final =>
      obtain rfl := Option.some.inj hok
      exact h.frame ⟨rfl, rfl, rfl⟩
    | _ => exact (Option.some_ne_none _ hok.symm).elim
  | complete snapshotId =>
    cases point with
    | waiting =>
      obtain ⟨-, hok⟩ := Option.ite_none_right_eq_some.mp hok
      obtain rfl := Option.some.inj hok
      exact h.frame ⟨rfl, rfl, rfl⟩
    | _ => exact (Option.some_ne_none _ hok.symm).elim
  | beginReload =>
    cases point with
    | waiting =>
      obtain ⟨a, ha, rfl⟩ := map_toOption hok
      obtain ⟨b, hb, hallowed⟩ := bind_ok.mp ha
      rw [(requireActive_toRunner hb).1] at hallowed
      obtain ⟨-, hallowed⟩ := rejectIf_then.mp hallowed
      obtain rfl := Except.ok.inj hallowed
      exact h.frame ⟨rfl, rfl, rfl⟩
    | _ => exact (Option.some_ne_none _ hok.symm).elim
  | planReload candidate completed revision run operationId =>
    cases point with
    | reloading progress =>
      cases progress with
      | begun =>
        obtain ⟨plan, -, rfl⟩ := map_toOption hok
        exact h.frame ⟨rfl, rfl, rfl⟩
      | _ => exact (Option.some_ne_none _ hok.symm).elim
    | _ => exact (Option.some_ne_none _ hok.symm).elim
  | protectReload snapshotId =>
    cases point with
    | reloading progress =>
      cases progress with
      | planned plan =>
        obtain rfl := Option.some.inj hok
        exact h.frame ⟨rfl, rfl, rfl⟩
      | _ => exact (Option.some_ne_none _ hok.symm).elim
    | _ => exact (Option.some_ne_none _ hok.symm).elim
  | publishReload =>
    cases point with
    | reloading progress =>
      cases progress with
      | protecting plan saved =>
        obtain ⟨a, ha, rfl⟩ := map_toOption hok
        obtain ⟨found, rfl⟩ := publishReload_ok ha
        exact h.frame ⟨rfl, rfl, rfl⟩
      | _ => exact (Option.some_ne_none _ hok.symm).elim
    | _ => exact (Option.some_ne_none _ hok.symm).elim
  | commitReload =>
    cases point with
    | reloading progress =>
      cases progress with
      | published plan saved =>
        obtain ⟨a, ha, rfl⟩ := map_toOption hok
        exact restartScheduler_moded ha
      | _ => exact (Option.some_ne_none _ hok.symm).elim
    | _ => exact (Option.some_ne_none _ hok.symm).elim
  | abandonReload =>
    cases point with
    | reloading progress =>
      cases progress with
      | begun =>
        obtain rfl := Option.some.inj hok
        exact h.frame ⟨rfl, rfl, rfl⟩
      | planned plan =>
        obtain ⟨a, ha, rfl⟩ := map_toOption hok
        exact restartScheduler_moded ha
      | _ => exact (Option.some_ne_none _ hok.symm).elim
    | _ => exact (Option.some_ne_none _ hok.symm).elim
  | rollbackReload services =>
    cases point with
    | reloading progress =>
      cases progress with
      | protecting plan saved | published plan saved =>
        obtain ⟨a, ha, rfl⟩ := map_toOption hok
        exact restartScheduler_moded ha
      | _ => exact (Option.some_ne_none _ hok.symm).elim
    | _ => exact (Option.some_ne_none _ hok.symm).elim
  | failed =>
    cases point with
    | ended =>
      obtain rfl := Option.some.inj hok
      exact h.frame ⟨rfl, rfl, rfl⟩
    | _ => exact (Option.some_ne_none _ hok.symm).elim

end Steps

end Machine

end ModularPipelines.Runner
