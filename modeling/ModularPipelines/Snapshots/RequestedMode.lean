import ModularPipelines.Runner.Outage
import ModularPipelines.Snapshots.Histories
import ModularPipelines.Snapshots.Rollback

namespace ModularPipelines.Snapshots
open Library Services Runner Machine

/-- The runs of an experiment with the last accepted mode decision; in limited runs every step is considerate. -/
inductive Governed (limited : Prop) : Machine → Mode → Prop where
  | fresh (experimentId runId revision : String) (template : ExperimentTemplate) (services : Dict ServiceInstance)
      (desired : Mode) : Governed limited (Machine.fresh experimentId runId revision template services desired) desired
  | step {m m' : Machine} {last : Mode} (action : Action) (before : Governed limited m last)
      (considerate : limited → m.Considerate last action) (step : m.advance action = some m') :
      Governed limited m' ((m.modeDecision action).getD last)
  | stop {m : Machine} {last : Mode} (before : Governed limited m last) : Governed limited (interruptRun m) last
  | rollback {m m' : Machine} {last : Mode} {r : RollbackRunner} {o : Preflight} {p : PublishedPayload} (runId : String)
      (services : Dict ServiceInstance) (stopIds startIds : List String) (before : Governed limited m last)
      (same : r.runner = m.runner) (admitted : r.admitRollback o = .ok ())
      (considerate : limited → m.runner.state.phase.terminal = false → ¬ m.outageOnly last)
      (step : rollbackTo m p runId services stopIds startIds = .ok m') : Governed limited m' .paused

theorem useRequests_mode (s : RunnerState) (ids : List String) : (ids.foldl RunnerState.useRequest s).mode = s.mode := by
  obtain ⟨used, -, -, heq⟩ := useRequests_used s ids
  rw [heq]

theorem rollbackTo_moded {m m' : Machine} {p : PublishedPayload} {runId : String} {services : Dict ServiceInstance}
    {stopIds startIds : List String} (hok : rollbackTo m p runId services stopIds startIds = .ok m') :
    Moded m'.runner .paused := by
  obtain ⟨-, hok⟩ := rejectIf_then.mp hok
  have hmode : (serveRestored (restoredSavedState p (stopIds.foldl RunnerState.useRequest m.runner.state)
      m.runner.state.experimentId runId) services startIds).mode = .paused := useRequests_mode _ startIds
  unfold activateRestored at hok
  dsimp only at hok
  split at hok
  · obtain rfl := Except.ok.inj hok
    exact moded_paused rfl hmode
  · obtain ⟨b, hb, hok⟩ := bind_ok.mp hok
    have hprepared : Moded b .paused := by
      have hstart := applyPendingDagDecision_moded (moded_paused rfl hmode) hb
      simpa using hstart
    split at hok
    · obtain rfl := Except.ok.inj hok
      exact hprepared.frame ⟨rfl, rfl, rfl⟩
    · obtain rfl := Except.ok.inj hok
      exact moded_paused hprepared.desired hprepared.desired

/-- In considerate runs the last decision is in force whenever the journal is not out. -/
theorem Governed.moded {m : Machine} {last : Mode} (h : Governed True m last) : Moded m.runner last := by
  induction h with
  | fresh experimentId runId revision template services desired =>
    exact ⟨rfl, fun _ => rfl, fun hne => absurd rfl hne⟩
  | step action before considerate hstep ih => exact advance_moded ih (considerate trivial) hstep
  | stop before ih => exact ih.frame ⟨rfl, rfl, rfl⟩
  | rollback runId services stopIds startIds before same admitted considerate hstep ih => exact rollbackTo_moded hstep

theorem admitRollback_paused {r : RollbackRunner} {o : Preflight} (h : r.admitRollback o = .ok ()) :
    r.runner.state.phase.terminal = true ∨ r.runner.state.mode = .paused := by
  obtain ⟨-, h⟩ := rejectIf_then.mp h
  obtain ⟨-, h⟩ := rejectIf_then.mp h
  obtain ⟨-, h⟩ := rejectIf_then.mp h
  obtain ⟨pending, -, h⟩ := bind_ok.mp h
  obtain ⟨-, h⟩ := rejectIf_then.mp h
  obtain ⟨hactive, -⟩ := rejectIf_then.mp h
  cases hphase : r.runner.state.phase.terminal with
  | true => exact .inl rfl
  | false =>
    apply Or.inr
    apply not_not.mp
    intro hne
    exact hactive (.inr (.inr (.inr ⟨hphase, .inl hne⟩)))

/-- A command that saw a pause saw the last decision, unless the journal alone paused the run. -/
theorem paused_requested {m : Machine} {last : Mode} (h : Moded m.runner last) (hpaused : m.runner.state.mode = .paused) :
    last = .paused ↔ ¬ m.outageOnly last := by
  constructor
  · intro hlast hout
    cases hlast.symm.trans hout.2
  · intro hout
    cases hr : m.runner.journalPauseReason with
    | none => exact (h.steady hr).symm.trans hpaused
    | some reason =>
      cases last with
      | paused => rfl
      | running => exact (hout ⟨by simp [hr], rfl⟩).elim

theorem ended_stays {m m' : Machine} {action : Action} (hp : m.point = .ended) (hok : m.advance action = some m') :
    m'.point = .ended := by
  obtain ⟨runner, point, journal, snapshotting⟩ := m
  obtain rfl : point = .ended := hp
  cases action with
  | command c =>
    obtain ⟨a, -, rfl⟩ := Option.map_eq_some_iff.mp hok
    rfl
  | requestPause =>
    obtain ⟨-, hok⟩ := Option.ite_none_right_eq_some.mp hok
    obtain rfl := Option.some.inj hok
    rfl
  | settlePause =>
    obtain ⟨-, hok⟩ := Option.ite_none_right_eq_some.mp hok
    obtain ⟨a, -, rfl⟩ := map_toOption hok
    rfl
  | endSnapshot created =>
    obtain ⟨-, hok⟩ := Option.ite_none_right_eq_some.mp hok
    obtain rfl := Option.some.inj hok
    rfl
  | save checkpointId =>
    obtain ⟨s, -, rfl⟩ := map_toOption hok
    rfl
  | observeJournal status | serviceWork services requestIds | endServiceControl | fail | failed =>
    obtain rfl := Option.some.inj hok
    rfl
  | _ => exact (Option.some_ne_none _ hok.symm).elim

/-- In every run in which no command that needs a requested pause is given while the journal
alone pauses it, and in which no pause ends after a later resume: whenever the journal is not
out, the last accepted decision is in force; a ready journal puts it in force; a command that
needs a pause is accepted only after a requested one; and an ended run stays ended. -/
theorem outage_transparent {m : Machine} {last : Mode} (h : Governed True m last) :
    (m.runner.journalPauseReason = none → (m.runner.state.mode = .paused ↔ last = .paused)) ∧
      (∀ status : JournalStatus, status.state = .ready → status.historyAvailable = true →
        let a := updateJournalPause { m.runner with journal := some status }
        a.journalPauseReason = none ∧ (a.state.mode = .paused ↔ last = .paused)) ∧
      (∀ c : Command, c.needsPause = true → (issue m.runner.toRunner c).1 = .accepted →
        (last = .paused ↔ ¬ m.outageOnly last)) ∧
      (∀ a, reloadAllowed m.runner.toRunner = .ok a → (last = .paused ↔ ¬ m.outageOnly last)) ∧
      (∀ (r : RollbackRunner) (o : Preflight), r.runner = m.runner → r.admitRollback o = .ok () →
        m.runner.state.phase.terminal = true ∨ (last = .paused ↔ ¬ m.outageOnly last)) ∧
      ∀ action m', m.point = .ended → m.advance action = some m' → m'.point = .ended := by
  have hm := h.moded
  refine ⟨?_, ?_, ?_, ?_, ?_, ?_⟩
  · intro hnone
    rw [hm.steady hnone]
  · intro status hready havailable
    obtain ⟨hmode, hreason⟩ := hm.recovered hready havailable
    exact ⟨hreason, by rw [hmode]⟩
  · intro c hc haccepted
    exact paused_requested hm (needsPause_paused hc haccepted)
  · intro a ha
    exact paused_requested hm (reloadAllowed_paused ha)
  · intro r o hsame hadmitted
    obtain hterminal | hpaused := admitRollback_paused hadmitted
    · exact .inl (hsame ▸ hterminal)
    · exact .inr (paused_requested hm (hsame ▸ hpaused))
  · intro action m' hp hok
    exact ended_stays hp hok

/-- A running run of `pair` whose journal restarts. -/
def restartingJournal : JournalStatus := ⟨.restarting, true⟩

def pairRunning : Machine := Machine.fresh "demo" "run" "revision" pair pairStart.runner.state.services .running

theorem outage_transparent_pair : ∃ m, Governed True m .running ∧ m.runner.state.mode = .paused ∧
    (updateJournalPause { m.runner with journal := some ⟨.ready, true⟩ }).state.mode ≠ .paused := by
  have hstart : Governed True pairRunning .running := .fresh _ _ _ _ _ _
  have hstep : Governed True _ _ := hstart.step (.observeJournal (some restartingJournal)) (fun _ => trivial) rfl
  refine ⟨_, hstep, rfl, ?_⟩
  have hready := ((outage_transparent hstep).2.1 ⟨.ready, true⟩ rfl rfl).2
  intro hpaused
  cases hready.mp hpaused

/-- While the journal is out, a move of the cursor of a running experiment is accepted. -/
theorem outage_admits_move : ¬ ∀ (m : Machine) (last : Mode), Governed False m last →
    (m.runner.journalPauseReason = none → (m.runner.state.mode = .paused ↔ last = .paused)) ∧
      ∀ c : Command, c.needsPause = true → (issue m.runner.toRunner c).1 = .accepted → last = .paused := by
  intro hclaim
  have hstart : Governed False pairRunning .running := .fresh _ _ _ _ _ _
  have hstep : Governed False _ _ := hstart.step (.observeJournal (some restartingJournal)) (fun _ => trivial) rfl
  have hlast := (hclaim _ _ hstep).2 (.move (.int 2)) rfl rfl
  cases hlast

end ModularPipelines.Snapshots
