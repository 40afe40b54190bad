import ModularPipelines.Runner.Refinement

namespace ModularPipelines.Runner
open Library Services

namespace Machine

/-- The visit that a step begins. -/
def begun (m' : Machine) : Action → List DagVisit
  | .beginAttempt _ => (m'.runner.state.activeAttempt.map StageAttempt.visit).toList
  | _ => []

def verdictAt : Point → List DagEvent
  | .finished o => [.settled o.verdict]
  | _ => []

/-- What a step tells the reference run. -/
def told (m : Machine) : Action → List DagEvent
  | .retry _ => [.retried]
  | .consume => verdictAt m.point
  | _ => []

/-- Control from outside that changes the DAG, its cursor or its retry budgets. -/
def redirects : Action → Bool
  | .command c => c.redirects
  | .beginReload => true
  | _ => false

/-- A run without such control, with the visits that it begins and how they end. -/
inductive Trace (t : ExperimentTemplate) : Machine → List DagVisit → List DagEvent → Prop where
  | fresh (experimentId runId revision : String) (services : Dict ServiceInstance) (desired : Mode) :
      Trace t (fresh experimentId runId revision t services desired) [] []
  | step {m m' : Machine} {visits : List DagVisit} {events : List DagEvent} (action : Action)
      (h : Trace t m visits events) (hfree : redirects action = false) (hstep : m.advance action = some m') :
      Trace t m' (visits ++ begun m' action) (events ++ told m action)

/-- The visits that are over, and the one in progress. -/
def Emitted (g : Dag) (visits : List DagVisit) (events : List DagEvent) : Point → Prop
  | .visiting | .accepted _ | .retrying _ _ | .finished _ =>
    visits = DagState.history g .start events ++ ((DagState.run g events).visit g).toList
  | .ended => visits = DagState.history g .start events ∨
      visits = DagState.history g .start events ++ ((DagState.run g events).visit g).toList
  | _ => visits = DagState.history g .start events

structure Follows (t : ExperimentTemplate) (m : Machine) (visits : List DagVisit) (events : List DagEvent) : Prop where
  tracks : Tracks t m (DagState.run t.dag events)
  emitted : Emitted t.dag visits events m.point

variable {t : ExperimentTemplate} {m m' : Machine} {visits : List DagVisit} {events : List DagEvent}

theorem Emitted.ended {g : Dag} {p : Point} (h : Emitted g visits events p) : Emitted g visits events .ended := by
  cases p with
  | visiting | accepted response | retrying used response | finished o => exact .inr h
  | ended => exact h
  | waiting | started manual | deciding o requested | settling o final | reloading progress => exact .inl h

theorem Emitted.either {g : Dag} {p : Point} (h : Emitted g visits events p) :
    visits = DagState.history g .start events ∨
      visits = DagState.history g .start events ++ ((DagState.run g events).visit g).toList :=
  h.ended

namespace Follows

theorem quiet {begun : List DagVisit} {told : List DagEvent} (h : Follows t m visits events) (hb : begun = [])
    (ht : told = []) : Follows t m (visits ++ begun) (events ++ told) := by
  rw [hb, ht, List.append_nil, List.append_nil]
  exact h

/-- A step that leaves the scheduler where it is, or ends the run. -/
theorem keep {a : ActiveRunner} (h : Follows t m visits events) (hrun : SameRun m.runner a)
    (snapshotting : Bool) : Follows t { m with runner := a, snapshotting := snapshotting } visits events := by
  obtain ⟨hmanual, htemplate, hpoint⟩ := hrun.tracks h.tracks
  exact ⟨⟨hmanual, htemplate, hpoint⟩, h.emitted⟩

theorem ends {a : ActiveRunner} (h : Follows t m visits events) (hmanual : a.manual = m.runner.manual)
    (htemplate : a.state.template = m.runner.state.template) : Follows t (m.ends a) visits events :=
  ⟨⟨hmanual.trans h.tracks.manual, htemplate.trans h.tracks.template, trivial⟩, h.emitted.ended⟩

/-- Work outside the scheduler does not change what is visited. -/
theorem outside {action : Action} (h : Follows t m visits events) (hout : Machine.outside action = true)
    (hfree : redirects action = false) (hok : m.advance action = some m') : Follows t m' visits events := by
  cases action with
  | command c =>
    obtain ⟨b, hb, hi⟩ := issue_issued m.runner c
    change (issue m.runner.toRunner c).2.select.map _ = some m' at hok
    rw [hb, ExperimentRunner.select_toRunner] at hok
    obtain rfl := Option.some.inj hok
    exact h.keep (hi.sameRun hfree) _
  | requestPause =>
    obtain ⟨-, hok⟩ := Option.ite_none_right_eq_some.mp hok
    obtain rfl := Option.some.inj hok
    have hrun : SameRun m.runner m.runner.requestPause := sameRun_of_saved (by constructor <;> rfl) rfl rfl rfl rfl
    exact h.keep hrun m.snapshotting
  | settlePause =>
    obtain ⟨-, hok⟩ := Option.ite_none_right_eq_some.mp hok
    obtain ⟨a, ha, rfl⟩ := map_toOption hok
    obtain ⟨rfl, -⟩ := requireActive_toRunner ha
    have hrun : SameRun m.runner m.runner.settlePause := sameRun_of_saved (by constructor <;> rfl) rfl rfl rfl rfl
    exact h.keep hrun m.snapshotting
  | observeJournal status =>
    obtain rfl := Option.some.inj hok
    have hstatus : SameRun m.runner { m.runner with journal := status } :=
      sameRun_of_saved (by constructor <;> rfl) rfl rfl rfl rfl
    exact h.keep (hstatus.trans (updateJournalPause_run _)) m.snapshotting
  | serviceWork services requestIds =>
    obtain rfl := Option.some.inj hok
    exact h.keep (useRequests_run _ services requestIds) m.snapshotting
  | endServiceControl =>
    obtain rfl := Option.some.inj hok
    have hrun : SameRun m.runner { m.runner with serviceRetrying := false } := sameRun_of_saved (by constructor <;> rfl) rfl rfl rfl rfl
    exact h.keep hrun m.snapshotting
  | endSnapshot created =>
    obtain ⟨-, hok⟩ := Option.ite_none_right_eq_some.mp hok
    obtain rfl := Option.some.inj hok
    exact h.keep (endSnapshot_run _ created) false
  | save checkpointId =>
    obtain ⟨s, hs, rfl⟩ := map_toOption hok
    obtain ⟨u, -, hs⟩ := bind_ok.mp hs
    obtain rfl := Except.ok.inj hs
    have hrun : SameRun m.runner (m.runner.setState (m.runner.checkpoint checkpointId)) :=
      sameRun_of_saved (by constructor <;> rfl) rfl rfl rfl rfl
    exact h.keep hrun m.snapshotting
  | fail =>
    obtain rfl := Option.some.inj hok
    exact h.ends rfl rfl
  | _ => exact nomatch hout

theorem pausePolicy_run (a : ActiveRunner) : SameRun a a.pausePolicy :=
  sameRun_of_saved (by constructor <;> rfl) rfl rfl rfl rfl

theorem pauseWaiting_run (a : ActiveRunner) : SameRun a (a.pausePolicy.setPhase .waiting) :=
  sameRun_of_saved (by constructor <;> rfl) rfl rfl rfl rfl

/-- A visit in progress is the reference run's, whose end this event is. -/
theorem settled {v : Verdict} (hemitted : visits = DagState.history t.dag .start events ++
      ((DagState.run t.dag events).visit t.dag).toList)
    (htracks : Tracks t m' ((DagState.run t.dag events).settle t.dag v))
    (hpoint : m'.point = .ended ∨ (∃ o requested, m'.point = .deciding o requested)) :
    Follows t m' visits (events ++ [.settled v]) := by
  have hhistory : visits = DagState.history t.dag .start (events ++ [.settled v]) := by
    rw [DagState.history_append]
    exact hemitted
  refine ⟨by rw [DagState.run_append]; exact htracks, ?_⟩
  obtain hp | ⟨o, requested, hp⟩ := hpoint
  · rw [hp]
    exact .inl hhistory
  · rw [hp]
    exact hhistory

section SchedulerSteps

variable {runner : ActiveRunner} {journal : ResultTable} {snapshotting : Bool} {action : Action}

theorem waiting (h : Follows t ⟨runner, .waiting, journal, snapshotting⟩ visits events)
    (hs : Sound ⟨runner, .waiting, journal, snapshotting⟩) (hin : Machine.outside action = false)
    (hfree : redirects action = false)
    (hok : advance ⟨runner, .waiting, journal, snapshotting⟩ action = some m') :
    Follows t m' (visits ++ begun m' action)
      (events ++ told ⟨runner, .waiting, journal, snapshotting⟩ action) := by
  have hpause : PauseSound runner := hs.pause (by simp)
  cases action with
  | supervise =>
    obtain rfl := Option.some.inj hok
    exact (h.keep (pauseWaiting_run runner) snapshotting).quiet rfl rfl
  | refuseReadiness =>
    obtain rfl := Option.some.inj hok
    exact (h.keep (pauseWaiting_run runner) snapshotting).quiet rfl rfl
  | launch =>
    obtain ⟨hcond, hok⟩ := Option.ite_none_right_eq_some.mp hok
    obtain rfl := Option.some.inj hok
    simp only [Bool.and_eq_true, Bool.or_eq_true, Bool.not_eq_true', beq_iff_eq] at hcond
    have hquiet := hs.point
    have htracks := launch_tracks h.tracks h.tracks.point hs.saveable hquiet.1.noPending
      (launch_noPause hquiet.2 hpause hcond.2) hcond.1.2
    have hnext : Follows t _ visits events := ⟨htracks, h.emitted⟩
    exact hnext.quiet rfl rfl
  | complete snapshotId =>
    obtain ⟨-, hok⟩ := Option.ite_none_right_eq_some.mp hok
    obtain rfl := Option.some.inj hok
    have hnext : Follows t (completeRun ⟨runner, .waiting, journal, snapshotting⟩ snapshotId) visits events :=
      h.ends rfl rfl
    exact hnext.quiet rfl rfl
  | beginReload => cases hfree
  | _ => first | exact (Option.some_ne_none _ hok.symm).elim | exact (Bool.eq_false_iff.mp hin rfl).elim

theorem started {manual : Bool} (h : Follows t ⟨runner, .started manual, journal, snapshotting⟩ visits events)
    (hs : Sound ⟨runner, .started manual, journal, snapshotting⟩) (hin : Machine.outside action = false)
    (hok : advance ⟨runner, .started manual, journal, snapshotting⟩ action = some m') :
    Follows t m' (visits ++ begun m' action)
      (events ++ told ⟨runner, .started manual, journal, snapshotting⟩ action) := by
  cases action with
  | supervise =>
    obtain rfl := Option.some.inj hok
    exact (h.keep (pausePolicy_run runner) snapshotting).quiet rfl rfl
  | beginAttempt ids =>
    obtain ⟨htracks, hpoint, hvisit⟩ := beginVisit_tracks h.tracks h.tracks.point hs.saveable (toOption_some.mp hok)
    show Follows t m' (visits ++ (m'.runner.state.activeAttempt.map StageAttempt.visit).toList) (events ++ [])
    rw [List.append_nil, hvisit]
    refine ⟨htracks, ?_⟩
    rw [hpoint]
    exact congrArg (· ++ _) h.emitted
  | _ => first | exact (Option.some_ne_none _ hok.symm).elim | exact (Bool.eq_false_iff.mp hin rfl).elim

theorem visiting (h : Follows t ⟨runner, .visiting, journal, snapshotting⟩ visits events)
    (hin : Machine.outside action = false)
    (hok : advance ⟨runner, .visiting, journal, snapshotting⟩ action = some m') :
    Follows t m' (visits ++ begun m' action)
      (events ++ told ⟨runner, .visiting, journal, snapshotting⟩ action) := by
  cases action with
  | supervise =>
    obtain rfl := Option.some.inj hok
    exact (h.keep (pausePolicy_run runner) snapshotting).quiet rfl rfl
  | acceptReport report unconfirmed =>
    unfold advance at hok
    dsimp only at hok
    split at hok
    · rename_i hcur hattempt
      obtain rfl := Option.some.inj hok
      have hnext : Follows t _ visits events :=
        ⟨acceptReport_tracks h.tracks h.tracks.point hcur hattempt report unconfirmed, h.emitted⟩
      exact hnext.quiet rfl rfl
    · cases hok
  | _ => first | exact (Option.some_ne_none _ hok.symm).elim | exact (Bool.eq_false_iff.mp hin rfl).elim

theorem accepted {response : StageResult}
    (h : Follows t ⟨runner, .accepted response, journal, snapshotting⟩ visits events)
    (hin : Machine.outside action = false)
    (hok : advance ⟨runner, .accepted response, journal, snapshotting⟩ action = some m') :
    Follows t m' (visits ++ begun m' action)
      (events ++ told ⟨runner, .accepted response, journal, snapshotting⟩ action) := by
  cases action with
  | supervise =>
    obtain rfl := Option.some.inj hok
    exact (h.keep (pausePolicy_run runner) snapshotting).quiet rfl rfl
  | conclude artifacts =>
    unfold advance at hok
    dsimp only at hok
    split at hok
    · rename_i definition attempt hcur hattempt
      obtain rfl := Option.some.inj hok
      have htracks := concludeVisit_tracks artifacts h.tracks h.tracks.point hcur hattempt
      have hnext : Follows t (concludeVisit ⟨runner, .accepted response, journal, snapshotting⟩ definition attempt
          response artifacts) visits events := by
        refine ⟨htracks, ?_⟩
        unfold concludeVisit
        split <;> exact h.emitted
      exact hnext.quiet rfl rfl
    · cases hok
  | _ => first | exact (Option.some_ne_none _ hok.symm).elim | exact (Bool.eq_false_iff.mp hin rfl).elim

theorem retrying {used : Nat} {response : StageResult}
    (h : Follows t ⟨runner, .retrying used response, journal, snapshotting⟩ visits events)
    (hin : Machine.outside action = false)
    (hok : advance ⟨runner, .retrying used response, journal, snapshotting⟩ action = some m') :
    Follows t m' (visits ++ begun m' action)
      (events ++ told ⟨runner, .retrying used response, journal, snapshotting⟩ action) := by
  cases action with
  | supervise =>
    obtain rfl := Option.some.inj hok
    exact (h.keep (pausePolicy_run runner) snapshotting).quiet rfl rfl
  | retry ids =>
    unfold advance at hok
    dsimp only at hok
    split at hok
    · rename_i hcur hattempt
      obtain ⟨-, hok⟩ := Option.ite_none_left_eq_some.mp hok
      obtain ⟨htracks, hpoint⟩ := retryVisit_tracks h.tracks h.tracks.point hcur hattempt (toOption_some.mp hok)
      show Follows t m' (visits ++ []) (events ++ [.retried])
      rw [List.append_nil]
      refine ⟨by rw [DagState.run_append]; exact htracks, ?_⟩
      rw [hpoint]
      show visits = DagState.history t.dag .start (events ++ [.retried]) ++ _
      rw [DagState.history_append, DagState.run_append]
      exact h.emitted.trans (congrArg (· ++ _) (List.append_nil _).symm)
    · cases hok
  | giveUp exhausted =>
    unfold advance at hok
    dsimp only at hok
    split at hok
    · rename_i hattempt
      obtain ⟨-, hok⟩ := Option.ite_none_left_eq_some.mp hok
      obtain rfl := Option.some.inj hok
      have hnext : Follows t _ visits events :=
        ⟨giveUp_tracks h.tracks h.tracks.point hattempt exhausted, h.emitted⟩
      exact hnext.quiet rfl rfl
    · cases hok
  | _ => first | exact (Option.some_ne_none _ hok.symm).elim | exact (Bool.eq_false_iff.mp hin rfl).elim

theorem finished {o : StageOutcome} (h : Follows t ⟨runner, .finished o, journal, snapshotting⟩ visits events)
    (hin : Machine.outside action = false)
    (hok : advance ⟨runner, .finished o, journal, snapshotting⟩ action = some m') :
    Follows t m' (visits ++ begun m' action)
      (events ++ told ⟨runner, .finished o, journal, snapshotting⟩ action) := by
  cases action with
  | consume =>
    obtain ⟨htracks, hpoint⟩ := consume_tracks h.tracks h.tracks.point (toOption_some.mp hok)
    show Follows t m' (visits ++ []) (events ++ [.settled o.verdict])
    rw [List.append_nil]
    exact settled h.emitted htracks (hpoint.imp_right (fun ⟨requested, hp⟩ => ⟨o, requested, hp⟩))
  | _ => first | exact (Option.some_ne_none _ hok.symm).elim | exact (Bool.eq_false_iff.mp hin rfl).elim

theorem deciding {o : StageOutcome} {requested : Bool}
    (h : Follows t ⟨runner, .deciding o requested, journal, snapshotting⟩ visits events)
    (hin : Machine.outside action = false)
    (hok : advance ⟨runner, .deciding o requested, journal, snapshotting⟩ action = some m') :
    Follows t m' (visits ++ begun m' action)
      (events ++ told ⟨runner, .deciding o requested, journal, snapshotting⟩ action) := by
  cases action with
  | decide snapshotId =>
    obtain ⟨htracks, hpoint⟩ := decide_tracks h.tracks h.tracks.point (toOption_some.mp hok)
    have hnext : Follows t m' visits events := by
      refine ⟨htracks, ?_⟩
      obtain hp | ⟨final, hp⟩ := hpoint <;> rw [hp]
      · exact h.emitted.ended
      · exact h.emitted
    exact hnext.quiet rfl rfl
  | _ => first | exact (Option.some_ne_none _ hok.symm).elim | exact (Bool.eq_false_iff.mp hin rfl).elim

theorem settling {o : StageOutcome} {final : Bool}
    (h : Follows t ⟨runner, .settling o final, journal, snapshotting⟩ visits events)
    (hin : Machine.outside action = false)
    (hok : advance ⟨runner, .settling o final, journal, snapshotting⟩ action = some m') :
    Follows t m' (visits ++ begun m' action)
      (events ++ told ⟨runner, .settling o final, journal, snapshotting⟩ action) := by
  cases action with
  | boundary snapshotId =>
    obtain rfl := Option.some.inj hok
    have hrun : SameRun runner (runner.setState { runner.state with stableSnapshotId := some snapshotId }) :=
      ⟨samePlace_of_eq rfl rfl rfl rfl rfl rfl rfl rfl, rfl, rfl, rfl, rfl, rfl, rfl⟩
    exact (h.keep hrun snapshotting).quiet rfl rfl
  | settle =>
    obtain rfl := Option.some.inj hok
    have hrun : SameRun runner (finishStep runner final) := sameRun_of_saved (by constructor <;> rfl) rfl rfl rfl rfl
    have htracks : Tracks t ⟨finishStep runner final, .waiting, journal, snapshotting⟩ (DagState.run t.dag events) :=
      ⟨h.tracks.manual, h.tracks.template, hrun.atRest h.tracks.point⟩
    have hnext : Follows t _ visits events := ⟨htracks, h.emitted⟩
    exact hnext.quiet rfl rfl
  | _ => first | exact (Option.some_ne_none _ hok.symm).elim | exact (Bool.eq_false_iff.mp hin rfl).elim

theorem ended (h : Follows t ⟨runner, .ended, journal, snapshotting⟩ visits events)
    (hin : Machine.outside action = false)
    (hok : advance ⟨runner, .ended, journal, snapshotting⟩ action = some m') :
    Follows t m' (visits ++ begun m' action)
      (events ++ told ⟨runner, .ended, journal, snapshotting⟩ action) := by
  cases action with
  | failed =>
    obtain rfl := Option.some.inj hok
    have hrun : SameRun runner { runner with
        stepFuture := false
        state := { runner.state with phase := .failed } } := sameRun_of_saved (by constructor <;> rfl) rfl rfl rfl rfl
    exact (h.keep hrun snapshotting).quiet rfl rfl
  | _ => first | exact (Option.some_ne_none _ hok.symm).elim | exact (Bool.eq_false_iff.mp hin rfl).elim

end SchedulerSteps

/-- Work outside the scheduler begins no visit and ends none. -/
theorem outside_silent (m m' : Machine) {action : Action} (hout : Machine.outside action = true) :
    begun m' action = [] ∧ told m action = [] := by
  cases action <;> first | exact ⟨rfl, rfl⟩ | exact nomatch hout

theorem step {action : Action} (h : Follows t m visits events) (hs : Sound m) (hfree : redirects action = false)
    (hok : m.advance action = some m') :
    Follows t m' (visits ++ begun m' action) (events ++ told m action) := by
  cases hout : Machine.outside action with
  | true =>
    obtain ⟨hb, ht⟩ := outside_silent m m' hout
    exact (h.outside hout hfree hok).quiet hb ht
  | false =>
    obtain ⟨runner, point, journal, snapshotting⟩ := m
    cases point with
    | waiting => exact h.waiting hs hout hfree hok
    | started manual => exact h.started hs hout hok
    | visiting => exact h.visiting hout hok
    | accepted response => exact h.accepted hout hok
    | retrying used response => exact h.retrying hout hok
    | finished o => exact h.finished hout hok
    | deciding o requested => exact h.deciding hout hok
    | settling o final => exact h.settling hout hok
    | reloading progress => exact h.tracks.point.elim
    | ended => exact h.ended hout hok

theorem fresh (experimentId runId revision : String) (services : Dict ServiceInstance) (desired : Mode) :
    Follows t (Machine.fresh experimentId runId revision t services desired) [] [] := by
  refine ⟨⟨rfl, rfl, .start, ?_, .here rfl rfl⟩, rfl⟩
  refine ⟨rfl, rfl, rfl, fun _ => rfl, fun _ _ => rfl, ?_, fun _ => rfl, ?_⟩
  · intro k id hk
    cases hk
  · intro i hi
    cases hi

end Follows

theorem Trace.reachable (h : Trace t m visits events) : Reachable m := by
  induction h with
  | fresh experimentId runId revision services desired => exact .fresh experimentId runId revision t services desired
  | step action _ _ hstep ih => exact ih.step action hstep

/-- Every run without redirecting control follows the reference run. -/
theorem Trace.follows (h : Trace t m visits events) : Follows t m visits events := by
  induction h with
  | fresh experimentId runId revision services desired => exact .fresh experimentId runId revision services desired
  | step action h hfree hstep ih => exact ih.step h.reachable.sound hfree hstep

/-- Advancing past the last node of the last cycle finishes the run. -/
theorem finished_of_end {journal : ResultTable} {s : RunnerState} {d : DagState} (h : Matches journal s d)
    (hp : s.stagePosition = s.template.stages.length) (hc : s.cycleNumber = s.template.cycles) :
    (d.advance s.template.dag).finished = true := by
  have hlen : s.template.dag.nodes.length = s.template.stages.length := List.length_map ..
  have hcycles : s.template.dag.cycles = s.template.cycles := rfl
  rw [DagState.advance, if_neg (by rw [h.position, hlen]; omega), if_neg (by rw [h.cycle, hcycles]; omega)]
  rfl

/-- A run is complete only when the reference run has passed all nodes of all cycles. -/
theorem complete_finished {snapshotId : String} (h : Follows t m visits events) (hs : Sound m)
    (hok : m.advance (.complete snapshotId) = some m') :
    (DagState.run t.dag events).finished = true ∧ visits = DagState.history t.dag .start events := by
  obtain ⟨runner, point, journal, snapshotting⟩ := m
  cases point with
  | waiting =>
    obtain ⟨hcond, -⟩ := Option.ite_none_right_eq_some.mp hok
    simp only [atDagEnd, Bool.and_eq_true, Bool.not_eq_true', beq_iff_eq] at hcond
    obtain ⟨-, ⟨⟨hadv, hp⟩, hc⟩, -⟩ := hcond
    obtain ⟨d, hm, hdue⟩ := h.tracks.point
    refine ⟨?_, h.emitted⟩
    have hend := finished_of_end hm hp hc
    rw [show runner.state.template = t from h.tracks.template] at hend
    generalize DagState.run t.dag events = ref at hdue
    cases hdue with
    | here hpending hno => cases hno.symm.trans hadv
    | next => exact hend
    | deferred hsome => cases hs.point.1.noPending.symm.trans hsome
  | _ => exact (Option.some_ne_none _ hok.symm).elim

theorem input_available {manual : Bool} (h : Follows t m visits events) (hs : Sound m)
    (hp : m.point = .started manual) :
    selectInput m.journal m.runner.state = .ok ((DagState.run t.dag events).input t.dag) := by
  have hpoint := h.tracks.point
  rw [hp] at hpoint
  exact hpoint.2.selectInput (congrArg ExperimentTemplate.dag h.tracks.template) hs.saveable

def inVisit : Point → Bool
  | .started _ | .visiting | .accepted _ | .retrying _ _ | .finished _ => true
  | _ => false

theorem visit_matches (h : Follows t m visits events) (hp : inVisit m.point = true) :
    Matches m.journal m.runner.state (DagState.run t.dag events) := by
  obtain ⟨runner, point, journal, snapshotting⟩ := m
  have hpoint := h.tracks.point
  cases point with
  | started manual => exact hpoint.2
  | visiting =>
    obtain ⟨attempt, ha, -⟩ := hpoint
    exact ha.place
  | accepted response =>
    obtain ⟨attempt, ha, -⟩ := hpoint
    exact ha.place
  | retrying used response =>
    obtain ⟨attempt, ha, -⟩ := hpoint
    exact ha.place
  | finished o => exact hpoint.1
  | _ => cases hp

theorem results_current (h : Matches m.journal m.runner.state d) (node : String) :
    (d.results node).isSome = m.runner.state.stageResultIds.contains node := by
  unfold Dict.contains
  cases hid : m.runner.state.stageResultIds.get? node with
  | none =>
    rw [h.absent node hid]
    rfl
  | some id =>
    obtain ⟨-, response, -, hd⟩ := h.current node id hid
    rw [hd]
    rfl

theorem prefix_of_either {past last one other : List DagVisit} (h : one = past ∨ one = past ++ last)
    (g : other = past ∨ other = past ++ last) : one <+: other ∨ other <+: one := by
  obtain rfl | rfl := h
  · obtain rfl | rfl := g
    · exact .inl (List.prefix_refl _)
    · exact .inl (List.prefix_append _ _)
  · obtain rfl | rfl := g
    · exact .inr (List.prefix_append _ _)
    · exact .inl (List.prefix_refl _)

/-- The visits of a run are those of the reference run over the verdicts of its outcomes, with the
same results and retry counts. The reference run knows neither attempts nor snapshots. -/
theorem visits_follow_reference (h : Trace t m visits events) :
    let d := DagState.run t.dag events
    let past := DagState.history t.dag .start events
    (visits = past ∨ visits = past ++ (d.visit t.dag).toList) ∧
      (∀ manual, m.point = .started manual → selectInput m.journal m.runner.state = .ok (d.input t.dag)) ∧
      (inVisit m.point = true → ∀ node, d.retries node = m.runner.state.retriesUsed node ∧
        (d.results node).isSome = m.runner.state.stageResultIds.contains node) ∧
      (∀ snapshotId m', m.advance (.complete snapshotId) = some m' →
        d.finished = true ∧ visits = past ∧ m.runner.state.conditionalPause = false) ∧
      ∀ (t' : ExperimentTemplate) (m' : Machine) (visits' : List DagVisit), t'.dag = t.dag → Trace t' m' visits' events →
        visits <+: visits' ∨ visits' <+: visits := by
  intro d past
  have hf := h.follows
  have hs := h.reachable.sound
  refine ⟨hf.emitted.either, fun manual => input_available hf hs, ?_, ?_, ?_⟩
  · intro hp node
    have hm := visit_matches hf hp
    exact ⟨hm.retries node, results_current hm node⟩
  · intro snapshotId m' hok
    obtain ⟨hfinished, hpast⟩ := complete_finished hf hs hok
    refine ⟨hfinished, hpast, ?_⟩
    obtain ⟨runner, point, journal, snapshotting⟩ := m
    cases point with
    | waiting =>
      obtain ⟨hcond, -⟩ := Option.ite_none_right_eq_some.mp hok
      exact atDagEnd_pause (Bool.and_eq_true_iff.mp hcond).2
    | _ => exact (Option.some_ne_none _ hok.symm).elim
  · intro t' m' visits' hdag h'
    have hother := h'.follows.emitted.either
    rw [hdag] at hother
    exact prefix_of_either hf.emitted.either hother

/-- A run together with what it has shown. -/
structure Observed where
  machine : Machine
  visits : List DagVisit
  events : List DagEvent

def Observed.next (o : Observed) (action : Action) : Option Observed :=
  (o.machine.advance action).map (fun m => ⟨m, o.visits ++ begun m action, o.events ++ told o.machine action⟩)

def observe (m : Machine) (actions : List Action) : Option Observed := actions.foldlM Observed.next ⟨m, [], []⟩

theorem Trace.observed {actions : List Action} {o o' : Observed} (h : Trace t o.machine o.visits o.events)
    (hfree : ∀ action ∈ actions, redirects action = false) (hrun : actions.foldlM Observed.next o = some o') :
    Trace t o'.machine o'.visits o'.events := by
  induction actions generalizing o with
  | nil =>
    obtain rfl := Option.some.inj hrun
    exact h
  | cons action rest ih =>
    obtain ⟨next, hnext, hrest⟩ := Option.bind_eq_some_iff.mp hrun
    obtain ⟨m, hm, rfl⟩ := Option.map_eq_some_iff.mp hnext
    exact ih (h.step action (hfree action List.mem_cons_self) hm)
      (fun a ha => hfree a (List.mem_cons_of_mem _ ha)) hrest

/-- The second stage of `pair` gets the data of the first one. -/
theorem visits_follow_reference_pair : ∃ o : Observed, Trace pair o.machine o.visits o.events ∧
    o.visits = [⟨1, "prepare", .null⟩, ⟨1, "train", .str "data"⟩] ∧
    (o.visits = DagState.history pair.dag .start o.events ∨
      o.visits = DagState.history pair.dag .start o.events ++
        ((DagState.run pair.dag o.events).visit pair.dag).toList) := by
  let actions := pairVisit ++ [.command .step, .launch, .beginAttempt ⟨"second", "visit", "another"⟩]
  have hrun : (observe pairStart actions).isSome := rfl
  have htrace := Trace.observed (t := pair) (o := ⟨pairStart, [], []⟩) 
    (.fresh _ _ _ _ _) (by simp [actions, pairVisit, redirects, Command.redirects]) (Option.some_get hrun).symm
  exact ⟨(observe pairStart actions).get hrun, htrace, rfl, (visits_follow_reference htrace).1⟩

end Machine

end ModularPipelines.Runner
