import ModularPipelines.Runner.Runs
import ModularPipelines.Snapshots.Preflight

namespace ModularPipelines.Snapshots
open Library Runner Services

/-- A runner with a selected experiment and the fields that only a rollback reads. -/
structure RollbackRunner where
  runner : ActiveRunner
  failureTask : TaskStatus
  terminationConfirmed : Bool
  resourceObserver : Bool
  suspendResources : Bool

/-- `except (ValueError, FileNotFoundError)`. -/
def Raised.recoverable (e : Raised) : Bool := e.kind == .value || e.kind == .fileNotFound

def RestorePhase.settled : RestorePhase → Bool
  | .complete | .failed => true
  | _ => false

/-- `read_json(pending).get("phase")` of the first check. -/
def MarkerFile.pending : MarkerFile → Except Raised Bool
  | .valid t => .ok (!t.phase.settled)
  | .invalid phase _ => .ok (!phase.any RestorePhase.settled)
  | .unreadable e => .error e

/-- How a rollback ends: refused at once, stopped by the journal that it reopens, by an
error of `restore` before the barrier, or past the barrier. -/
inductive RollbackEnd where
  | refused (error : Raised)
  | reopening (error : Raised)
  | raised (error : Raised)
  | barrier
  deriving DecidableEq, Repr

namespace RollbackRunner

def admitRollback (r : RollbackRunner) (o : Preflight) : Except Raised Unit := do
  rejectIf (r.runner.closed = true) (.runtime "Select an experiment before rollback.")
  rejectIf (r.failureTask = .running) (.runtime "Wait for failure cleanup before rollback.")
  rejectIf (r.runner.state.pendingRebuild ≠ none)
    (.runtime "Use recover to restore the unfinished template reload and its audit.")
  let pending ← o.marker.elim (.ok false) MarkerFile.pending
  rejectIf (pending = true) (.runtime "Use recover to finish the pending restoration transaction.")
  rejectIf (r.runner.maintenance = true ∨ r.runner.serviceRetrying = true ∨ r.runner.state.activeAttempt ≠ none ∨
      (r.runner.state.phase.terminal = false ∧ (r.runner.state.mode ≠ .paused ∨ r.runner.idle = false)))
    (.runtime "rollback requires a stage-free pause or a terminal experiment.")
  rejectIf (r.resourceObserver = true ∧ r.suspendResources = false)
    (.runtime "Resource observer must provide a restoration barrier.")

def withState (r : RollbackRunner) (s : RunnerState) : RollbackRunner := { r with runner := { r.runner with state := s } }

/-- `_fail` with its cleanup: the DAG task is cancelled and every service is stopped. -/
def fail (r : RollbackRunner) (o : Shutdown) : RollbackRunner :=
  let stopped := stopAll o r.runner.state
  { r with
    runner := { r.runner with
      stopRequested := true
      task := if r.runner.task = .absent then .absent else .done
      stepFuture := false
      state := { stopped with phase := .failed } }
    failureTask := .done
    terminationConfirmed := allStopped stopped }

/-- The handlers of `rollback`, for an error that `restore` or the journal raises. -/
def handle (r : RollbackRunner) (o : Shutdown) (previous : Phase) (marker : Option MarkerFile) (e : Raised) :
    RollbackRunner :=
  if e.recoverable = true ∧ r.runner.state.phase = .restoring ∧ marker = none then
    r.withState { r.runner.state with phase := previous }
  else r.fail o

def begin (r : RollbackRunner) : RollbackRunner :=
  { r.withState { r.runner.state with phase := .restoring } with failureTask := .absent }

def rollback (r : RollbackRunner) (snapshotId : Except Raised String) (reopened : Except Raised Unit)
    (o : Preflight) : RollbackRunner × Option MarkerFile × RollbackEnd :=
  match snapshotId, r.admitRollback o with
  | .error e, _ => (r, o.marker, .refused e)
  | _, .error e => (r, o.marker, .refused e)
  | .ok snapshotId, .ok () =>
    match (if r.runner.task = .running then .ok () else reopened) with
    | .error e => (r.begin.handle o.shutdown r.runner.state.phase o.marker e, o.marker, .reopening e)
    | .ok () =>
      match o.restore r.begin.runner.state snapshotId with
      | (s, marker, .ok ()) => (r.begin.withState s, marker, .barrier)
      | (s, marker, .error e) =>
        ((r.begin.withState s).handle o.shutdown r.runner.state.phase marker e, marker, .raised e)

end RollbackRunner

/-- The run continues from the same state: all of it agrees, the phase and the request
IDs that stop requests have drawn apart. -/
def SameRun (s t : RunnerState) : Prop := { t with phase := s.phase, usedRequestIds := s.usedRequestIds } = s

/-- A rollback that changes nothing: the run, its participants, its control fields and
the set of markers are what they were. -/
structure Kept (before after : RollbackRunner) (marker left : Option MarkerFile) : Prop where
  phase : after.runner.state.phase = before.runner.state.phase
  run : SameRun before.runner.state after.runner.state
  fields : after.runner.toRunnerFields = before.runner.toRunnerFields
  terminationConfirmed : after.terminationConfirmed = before.terminationConfirmed
  marker : left.isSome → marker.isSome

namespace Preflight

/-- The earlier transaction is gone: there is none, or it is complete, or it failed and
its participants stop cleanly now. -/
def Cleared (o : Preflight) (s : RunnerState) : Prop :=
  o.marker = none ∨ ∃ t, o.marker = some (.valid t) ∧ o.checkRestorePaths s t = .ok () ∧ o.retired = .ok () ∧
    (t.phase = .complete ∨
      (t.phase = .failed ∧ o.suspendedEarlier = .ok () ∧ (o.stopInterrupted s).2 = .ok ()))

/-- What memory holds when the selection is checked. -/
def remembered (o : Preflight) (s : RunnerState) : RunnerState :=
  match o.checkStore, o.marker with
  | .ok (), some (.valid t) =>
    if o.checkRestorePaths s t = .ok () ∧ t.phase = .failed ∧ o.suspendedEarlier = .ok () then
      (o.stopInterrupted s).1
    else s
  | _, _ => s

/-- The first check that fails says that the selection is bad. -/
def BadSelection (o : Preflight) (s : RunnerState) (snapshotId : String) : Prop :=
  ∃ e, o.checkSelection s snapshotId = .error e ∧ e.recoverable = true

end Preflight

/-- The experiment had failed before, and nothing is left that a second cleanup stops. -/
structure AlreadyFailed (r : RollbackRunner) (o : Shutdown) (s : RunnerState) : Prop where
  phase : r.runner.state.phase = .failed
  run : SameRun r.runner.state (stopAll o s)
  stopRequested : r.runner.stopRequested = true
  task : r.runner.task ≠ .running
  stepFuture : r.runner.stepFuture = false
  terminationConfirmed : r.terminationConfirmed = allStopped (stopAll o s)

/-- When a rollback that fails its preflight changes nothing. -/
def Harmless (r : RollbackRunner) (snapshotId : String) (o : Preflight) : Prop :=
  let s := o.remembered r.begin.runner.state
  (o.checkStore ≠ .ok () ∧ o.marker = none) ∨
  (o.checkStore = .ok () ∧ o.Cleared r.begin.runner.state ∧ o.BadSelection s snapshotId ∧
    s.phase = .restoring ∧ SameRun r.runner.state s) ∨
  AlreadyFailed r o.shutdown s

namespace Preflight

theorem checkStore_recoverable {o : Preflight} {e : Raised} (h : o.checkStore = .error e) :
    e.recoverable = true := by
  unfold checkStore at h
  obtain h | ⟨-, -, h⟩ := bind_error.mp h
  · unfold rejectIf at h
    split at h
    · obtain rfl := Except.error.inj h
      rfl
    · cases h
  · unfold rejectIf at h
    split at h
    · obtain rfl := Except.error.inj h
      rfl
    · cases h

theorem retire_cases {o : Preflight} {s t : RunnerState} {left : Option MarkerFile} {result : Except Raised Bool}
    (h : o.retire s = (t, left, result)) : t = s ∧
      ((∃ e, result = .error e ∧ left = o.marker ∧ o.retired ≠ .ok ()) ∨
       (result = .ok false ∧ left = none ∧ o.retired = .ok ())) := by
  unfold retire at h
  cases hr : o.retired with
  | error e =>
    rw [hr] at h
    obtain ⟨rfl, hrest⟩ := Prod.mk.inj h
    obtain ⟨rfl, rfl⟩ := Prod.mk.inj hrest
    exact ⟨rfl, .inl ⟨e, rfl, rfl, nofun⟩⟩
  | ok u =>
    rw [hr] at h
    obtain ⟨rfl, hrest⟩ := Prod.mk.inj h
    obtain ⟨rfl, rfl⟩ := Prod.mk.inj hrest
    exact ⟨rfl, .inr ⟨rfl, rfl, rfl⟩⟩

/-- A marker that stays has stopped the restoration with an error. -/
def Earlier (o : Preflight) (s : RunnerState) (left : Option MarkerFile) : Except Raised Bool → Prop
  | .error _ => ¬ o.Cleared s ∧ left = o.marker ∧ o.marker ≠ none
  | .ok true => True
  | .ok false => o.Cleared s ∧ left = none

theorem not_cleared {o : Preflight} {s : RunnerState} {m : MarkerFile} (h : o.marker = some m)
    (hm : ∀ t, m = .valid t → o.checkRestorePaths s t = .ok () → o.retired = .ok () →
      t.phase ≠ .complete ∧ (t.phase = .failed → o.suspendedEarlier = .ok () → (o.stopInterrupted s).2 ≠ .ok ())) :
    ¬ o.Cleared s := by
  intro hc
  obtain hnone | ⟨t, hv, hp, hr, hcomplete | ⟨hfailed, hsus, hstop⟩⟩ := hc
  · rw [h] at hnone
    cases hnone
  · obtain rfl := Option.some.inj (h.symm.trans hv)
    exact (hm t rfl hp hr).1 hcomplete
  · obtain rfl := Option.some.inj (h.symm.trans hv)
    exact (hm t rfl hp hr).2 hfailed hsus hstop

theorem retryFailed_cases {o : Preflight} {s t : RunnerState} {left : Option MarkerFile} {result : Except Raised Bool}
    (h : o.retryFailed s = (t, left, result)) :
    t = (if o.suspendedEarlier = .ok () then (o.stopInterrupted s).1 else s) ∧
      ((∃ e, result = .error e ∧ left = o.marker ∧
          ¬ (o.retired = .ok () ∧ o.suspendedEarlier = .ok () ∧ (o.stopInterrupted s).2 = .ok ())) ∨
       (result = .ok false ∧ left = none ∧ o.retired = .ok () ∧ o.suspendedEarlier = .ok () ∧
          (o.stopInterrupted s).2 = .ok ())) := by
  unfold retryFailed at h
  cases hsus : o.suspendedEarlier with
  | error e =>
    rw [hsus] at h
    obtain ⟨rfl, hrest⟩ := Prod.mk.inj h
    obtain ⟨rfl, rfl⟩ := Prod.mk.inj hrest
    exact ⟨by simp, .inl ⟨e, rfl, rfl, by simp⟩⟩
  | ok u =>
    rw [hsus] at h
    simp only at h
    cases hstop : o.stopInterrupted s with
    | mk s' stopped =>
      rw [hstop] at h
      cases stopped with
      | error e =>
        obtain ⟨rfl, hrest⟩ := Prod.mk.inj h
        obtain ⟨rfl, rfl⟩ := Prod.mk.inj hrest
        exact ⟨by simp, .inl ⟨e, rfl, rfl, by simp⟩⟩
      | ok v =>
        obtain ⟨rfl, ⟨e, rfl, rfl, hne⟩ | ⟨rfl, rfl, hok⟩⟩ := retire_cases h
        · exact ⟨by simp, .inl ⟨e, rfl, rfl, fun hall => hne hall.1⟩⟩
        · exact ⟨by simp, .inr ⟨rfl, rfl, hok, rfl, rfl⟩⟩

theorem settleEarlier_valid {o : Preflight} {s t : RunnerState} {tr : RestoreTransaction} {snapshotId : String}
    {left : Option MarkerFile} {result : Except Raised Bool} (hstore : o.checkStore = .ok ())
    (hm : o.marker = some (.valid tr)) (h : o.settleEarlier s snapshotId = (t, left, result)) :
    t = o.remembered s ∧ o.Earlier s left result := by
  have hleft : o.marker ≠ none := by
    rw [hm]
    nofun
  unfold settleEarlier at h
  unfold remembered
  simp only [hstore, hm] at h ⊢
  cases hpaths : o.checkRestorePaths s tr with
  | error e =>
    rw [hpaths] at h
    obtain ⟨rfl, hrest⟩ := Prod.mk.inj h
    obtain ⟨rfl, rfl⟩ := Prod.mk.inj hrest
    refine ⟨by simp, ?_, hm.symm, hleft⟩
    apply not_cleared hm
    intro t' ht hok
    obtain rfl := MarkerFile.valid.inj ht
    rw [hpaths] at hok
    cases hok
  | ok u =>
    rw [hpaths] at h
    simp only at h
    split at h
    · rename_i hfailed
      obtain ⟨rfl, ⟨e, rfl, rfl, hne⟩ | ⟨rfl, rfl, hretired, hsus, hstop⟩⟩ := retryFailed_cases h
      · refine ⟨by simp [hfailed], ?_, rfl, hleft⟩
        apply not_cleared hm
        intro t' ht _ hretired
        obtain rfl := MarkerFile.valid.inj ht
        refine ⟨by rw [hfailed]; nofun, ?_⟩
        intro _ hsus hstop
        exact hne ⟨hretired, hsus, hstop⟩
      · refine ⟨by simp [hfailed], .inr ⟨tr, hm, hpaths, hretired, .inr ⟨hfailed, hsus, hstop⟩⟩, rfl⟩
    · rename_i hnot
      split at h
      · rename_i hcomplete
        obtain ⟨rfl, ⟨e, rfl, rfl, hne⟩ | ⟨rfl, rfl, hretired⟩⟩ := retire_cases h
        · refine ⟨by simp [hnot], ?_, rfl, hleft⟩
          apply not_cleared hm
          intro t' _ _ hretired
          exact (hne hretired).elim
        · exact ⟨by simp [hnot], .inr ⟨tr, hm, hpaths, hretired, .inl hcomplete⟩, rfl⟩
      · rename_i hactive
        split at h
        · obtain ⟨rfl, hrest⟩ := Prod.mk.inj h
          obtain ⟨rfl, rfl⟩ := Prod.mk.inj hrest
          exact ⟨by simp [hnot], trivial⟩
        · obtain ⟨rfl, hrest⟩ := Prod.mk.inj h
          obtain ⟨rfl, rfl⟩ := Prod.mk.inj hrest
          refine ⟨by simp [hnot], ?_, hm.symm, hleft⟩
          apply not_cleared hm
          intro t' ht _ _
          obtain rfl := MarkerFile.valid.inj ht
          exact ⟨hactive, fun hfailed => (hnot hfailed).elim⟩

theorem settleEarlier_cases {o : Preflight} {s t : RunnerState} {snapshotId : String} {left : Option MarkerFile}
    {result : Except Raised Bool} (hstore : o.checkStore = .ok ())
    (h : o.settleEarlier s snapshotId = (t, left, result)) : t = o.remembered s ∧ o.Earlier s left result := by
  cases hm : o.marker with
  | none =>
    unfold settleEarlier at h
    simp only [hm] at h
    obtain ⟨rfl, hrest⟩ := Prod.mk.inj h
    obtain ⟨rfl, rfl⟩ := Prod.mk.inj hrest
    exact ⟨by simp [remembered, hm], .inl hm, rfl⟩
  | some m =>
    have hleft : o.marker ≠ none := by
      rw [hm]
      nofun
    cases m with
    | valid tr => exact settleEarlier_valid hstore hm h
    | invalid phase e =>
      unfold settleEarlier at h
      simp only [hm] at h
      obtain ⟨rfl, hrest⟩ := Prod.mk.inj h
      obtain ⟨rfl, rfl⟩ := Prod.mk.inj hrest
      exact ⟨by simp [remembered, hm], not_cleared hm nofun, hm.symm, hleft⟩
    | unreadable e =>
      unfold settleEarlier at h
      simp only [hm] at h
      obtain ⟨rfl, hrest⟩ := Prod.mk.inj h
      obtain ⟨rfl, rfl⟩ := Prod.mk.inj hrest
      exact ⟨by simp [remembered, hm], not_cleared hm nofun, hm.symm, hleft⟩

/-- How `restore` raises, and what it leaves in memory and of the marker. -/
theorem restore_raises {o : Preflight} {s t : RunnerState} {snapshotId : String} {left : Option MarkerFile}
    {e : Raised} (h : o.restore s snapshotId = (t, left, .error e)) :
    t = o.remembered s ∧
    ((o.checkStore = .error e ∧ left = o.marker) ∨
     (o.checkStore = .ok () ∧ ¬ o.Cleared s ∧ left = o.marker ∧ o.marker ≠ none) ∨
     (o.checkStore = .ok () ∧ o.Cleared s ∧ left = none ∧ o.checkSelection (o.remembered s) snapshotId = .error e)) := by
  unfold restore at h
  cases hstore : o.checkStore with
  | error e' =>
    rw [hstore] at h
    obtain ⟨rfl, hrest⟩ := Prod.mk.inj h
    obtain ⟨rfl, herr⟩ := Prod.mk.inj hrest
    obtain rfl := Except.error.inj herr
    exact ⟨by simp [remembered, hstore], .inl ⟨rfl, rfl⟩⟩
  | ok u =>
    rw [hstore] at h
    simp only at h
    cases hs : o.settleEarlier s snapshotId with
    | mk t' rest =>
      obtain ⟨left', result⟩ := rest
      obtain ⟨rfl, hearlier⟩ := settleEarlier_cases hstore hs
      rw [hs] at h
      cases result with
      | error e' =>
        obtain ⟨rfl, hrest⟩ := Prod.mk.inj h
        obtain ⟨rfl, herr⟩ := Prod.mk.inj hrest
        exact ⟨rfl, .inr (.inl ⟨rfl, hearlier⟩)⟩
      | ok resumed =>
        cases resumed with
        | true => cases (Prod.mk.inj (Prod.mk.inj h).2).2
        | false =>
          obtain ⟨rfl, hrest⟩ := Prod.mk.inj h
          obtain ⟨rfl, herr⟩ := Prod.mk.inj hrest
          exact ⟨rfl, .inr (.inr ⟨rfl, hearlier.1, hearlier.2, herr⟩)⟩

theorem stopInterrupted_ok {o : Preflight} {s : RunnerState} (h : (o.stopInterrupted s).2 = .ok ()) :
    ∃ recovered, (o.stopInterrupted s).1 = stopAll o.shutdown recovered ∧
      allStopped (stopAll o.shutdown recovered) = true := by
  unfold stopInterrupted at h ⊢
  split at h
  · cases h
  · split at h
    · cases h
    · split at h
      · cases h
      · split at h
        · cases h
        · split at h
          · cases h
          · simp only at h
            split at h
            · cases h
            · rename_i hclean
              rw [not_or] at hclean
              refine ⟨announce _ o.announced, ?_, by simpa using hclean.1⟩
              simp_all
              split <;> rfl

end Preflight

/-- Where the earlier transaction is gone, a second cleanup finds no service to stop. -/
theorem sameRun_of_stopAll {o : Preflight} {s t : RunnerState} (hs : SameRun s t) (hc : o.Cleared t)
    (h : SameRun s (stopAll o.shutdown (o.remembered t))) : SameRun s (o.remembered t) := by
  by_cases hfailed : ∃ tr, o.checkStore = .ok () ∧ o.marker = some (.valid tr) ∧
      (o.checkRestorePaths t tr = .ok () ∧ tr.phase = .failed ∧ o.suspendedEarlier = .ok ())
  · obtain ⟨tr, hstore, hm, hrest⟩ := hfailed
    have hstop : (o.stopInterrupted t).2 = .ok () := by
      obtain hnone | ⟨tr', hm', -, -, hcomplete | ⟨-, -, hstop⟩⟩ := hc
      · rw [hm] at hnone
        cases hnone
      · obtain rfl := MarkerFile.valid.inj (Option.some.inj (hm.symm.trans hm'))
        rw [hrest.2.1] at hcomplete
        cases hcomplete
      · exact hstop
    have hrem : o.remembered t = (o.stopInterrupted t).1 := by
      simp only [Preflight.remembered, hstore, hm]
      rw [if_pos hrest]
    obtain ⟨recovered, heq, hall⟩ := Preflight.stopInterrupted_ok hstop
    rw [hrem, heq] at h ⊢
    rw [← h]
    have hservices := stopAll_again hall
    unfold SameRun
    simp only [stopAll] at hservices ⊢
    rw [hservices]
  · have hrem : o.remembered t = t := by
      unfold Preflight.remembered
      split
      · rename_i tr hstore hm
        rw [if_neg (fun hrest => hfailed ⟨tr, hstore, hm, hrest⟩)]
      · rfl
    rw [hrem]
    exact hs

namespace RollbackRunner

theorem begin_same (r : RollbackRunner) : SameRun r.runner.state r.begin.runner.state := rfl

/-- The handler that takes the selection for bad gives the phase back. -/
theorem kept_restored {r : RollbackRunner} {s : RunnerState} {marker : Option MarkerFile} :
    Kept r ((r.begin.withState s).withState { s with phase := r.runner.state.phase }) marker none ↔
      SameRun r.runner.state s := by
  constructor
  · intro h
    exact h.run
  · intro h
    exact ⟨rfl, h, rfl, rfl, nofun⟩

/-- Failure cleanup changes nothing only after an earlier failure. -/
theorem kept_failed {r : RollbackRunner} {s : RunnerState} {o : Shutdown} {marker left : Option MarkerFile}
    (hm : left.isSome → marker.isSome) :
    Kept r ((r.begin.withState s).fail o) marker left ↔ AlreadyFailed r o s := by
  constructor
  · intro h
    have hf : (((r.begin.withState s).fail o).runner.toRunnerFields) = r.runner.toRunnerFields := h.fields
    refine ⟨h.phase.symm, h.run, ?_, ?_, ?_, ?_⟩
    · exact (congrArg RunnerFields.stopRequested hf).symm
    · intro hrun
      have htask := congrArg RunnerFields.task hf
      simp [fail, withState, begin, hrun] at htask
    · exact (congrArg RunnerFields.stepFuture hf).symm
    · exact h.terminationConfirmed.symm
  · intro h
    refine ⟨h.phase.symm, h.run, ?_, h.terminationConfirmed.symm, hm⟩
    have hstop := h.stopRequested
    have htask := h.task
    have hstep := h.stepFuture
    obtain ⟨⟨fields, state⟩, failureTask, confirmed, observer, suspend⟩ := r
    obtain ⟨task, stageTask, ready, idle, maintenance, retrying, stop, closed, stepFuture, advance, manual, mode,
      reason, journal, manager⟩ := fields
    simp only at hstop htask hstep
    subst hstop hstep
    cases task with
    | absent => rfl
    | running => exact (htask rfl).elim
    | done => rfl

theorem handle_fails {r : RollbackRunner} {o : Shutdown} {previous : Phase} {marker : Option MarkerFile} {e : Raised}
    (h : ¬ (e.recoverable = true ∧ r.runner.state.phase = .restoring ∧ marker = none)) :
    r.handle o previous marker e = r.fail o := if_neg h

theorem handle_restores {r : RollbackRunner} {o : Shutdown} {previous : Phase} {marker : Option MarkerFile} {e : Raised}
    (h : e.recoverable = true ∧ r.runner.state.phase = .restoring ∧ marker = none) :
    r.handle o previous marker e = r.withState { r.runner.state with phase := previous } := if_pos h

theorem handle_harmless {r : RollbackRunner} {o : Preflight} {snapshotId : String} {left : Option MarkerFile} {e : Raised}
    (h : (o.checkStore = .error e ∧ left = o.marker) ∨
      (o.checkStore = .ok () ∧ ¬ o.Cleared r.begin.runner.state ∧ left = o.marker ∧ o.marker ≠ none) ∨
      (o.checkStore = .ok () ∧ o.Cleared r.begin.runner.state ∧ left = none ∧
        o.checkSelection (o.remembered r.begin.runner.state) snapshotId = .error e)) :
    Kept r ((r.begin.withState (o.remembered r.begin.runner.state)).handle o.shutdown r.runner.state.phase left e)
      o.marker left ↔ Harmless r snapshotId o := by
  unfold Harmless
  obtain ⟨hstore, rfl⟩ | ⟨hstore, hkept, rfl, hmarker⟩ | ⟨hstore, hcleared, rfl, hselection⟩ := h
  · have hne : o.checkStore ≠ .ok () := by
      rw [hstore]
      nofun
    have hrem : o.remembered r.begin.runner.state = r.begin.runner.state := by simp [Preflight.remembered, hstore]
    by_cases hm : o.marker = none
    · rw [hrem, hm, handle_restores ⟨Preflight.checkStore_recoverable hstore, rfl, rfl⟩]
      exact iff_of_true (kept_restored.mpr r.begin_same) (.inl ⟨hne, rfl⟩)
    · rw [handle_fails (fun hall => hm hall.2.2), kept_failed id]
      constructor
      · intro hfailed
        exact .inr (.inr hfailed)
      · intro hh
        obtain ⟨-, hnone⟩ | ⟨hok, -⟩ | hfailed := hh
        · exact (hm hnone).elim
        · exact (hne hok).elim
        · exact hfailed
  · rw [handle_fails (fun hall => hmarker hall.2.2), kept_failed id]
    constructor
    · intro hfailed
      exact .inr (.inr hfailed)
    · intro hh
      obtain ⟨-, hnone⟩ | ⟨-, hcleared, -⟩ | hfailed := hh
      · exact (hmarker hnone).elim
      · exact (hkept hcleared).elim
      · exact hfailed
  · by_cases hgood : e.recoverable = true ∧ (o.remembered r.begin.runner.state).phase = .restoring
    · obtain ⟨hrec, hphase⟩ := hgood
      rw [handle_restores ⟨hrec, hphase, rfl⟩]
      refine kept_restored.trans ?_
      constructor
      · intro hsame
        exact .inr (.inl ⟨hstore, hcleared, ⟨e, hselection, hrec⟩, hphase, hsame⟩)
      · intro hh
        obtain ⟨hne, -⟩ | ⟨-, -, -, -, hsame⟩ | hfailed := hh
        · exact (hne hstore).elim
        · exact hsame
        · exact sameRun_of_stopAll r.begin_same hcleared hfailed.run
    · rw [handle_fails (fun hall => hgood ⟨hall.1, hall.2.1⟩), kept_failed (by simp)]
      constructor
      · intro hfailed
        exact .inr (.inr hfailed)
      · intro hh
        obtain ⟨hne, -⟩ | ⟨-, -, ⟨e', hselection', hrec⟩, hphase, -⟩ | hfailed := hh
        · exact (hne hstore).elim
        · obtain rfl := Except.error.inj (hselection.symm.trans hselection')
          exact (hgood ⟨hrec, hphase⟩).elim
        · exact hfailed

end RollbackRunner

/-- A rollback whose `restore` raises before the participant barrier changes nothing
exactly when the selection itself is bad and no earlier restoration is in the way, or
the experiment had failed before. -/
theorem rollback_preflight_harmless {r after : RollbackRunner} {snapshotId : String} {reopened : Except Raised Unit}
    {o : Preflight} {left : Option MarkerFile} {e : Raised}
    (h : r.rollback (.ok snapshotId) reopened o = (after, left, .raised e)) :
    Kept r after o.marker left ↔ Harmless r snapshotId o := by
  unfold RollbackRunner.rollback at h
  split at h
  · cases (Prod.mk.inj (Prod.mk.inj h).2).2
  · cases (Prod.mk.inj (Prod.mk.inj h).2).2
  · rename_i id hid hadmit
    obtain rfl := Except.ok.inj hid
    split at h
    · cases (Prod.mk.inj (Prod.mk.inj h).2).2
    · split at h
      · cases (Prod.mk.inj (Prod.mk.inj h).2).2
      · rename_i s marker error hrestore
        obtain ⟨rfl, hrest⟩ := Prod.mk.inj h
        obtain ⟨rfl, herr⟩ := Prod.mk.inj hrest
        obtain rfl := RollbackEnd.raised.inj herr
        obtain ⟨rfl, hcases⟩ := Preflight.restore_raises hrestore
        exact RollbackRunner.handle_harmless hcases

/-- A paused run between two stages. -/
def pausedRunner : RollbackRunner where
  runner := { Machine.pairStart.runner with
    task := .running
    idle := true
    state := { Machine.pairStart.runner.state with phase := .waiting } }
  failureTask := .absent
  terminationConfirmed := true
  resourceObserver := false
  suspendResources := false

def storedSnapshot : SnapshotFolder where
  confined := true
  manifestConfined := true
  manifest := .ok ⟨"snapshot", "demo", "folder", [⟨"files/experiment.yaml", 100, "digest"⟩], ["files", "journal"], .empty⟩
  membersConfined := true
  filesTop := ⟨true, [⟨"files", false, [⟨"files/experiment.yaml", true, .ok (100, "digest")⟩]⟩]⟩
  journalTop := ⟨true, [⟨"journal", false, []⟩]⟩
  state := .ok pausedRunner.runner.state
  templatePath := true
  template := .ok true
  modules := []
  present := fun _ => true
  exportConfined := fun _ _ => true
  journalManifest := .ok true
  journal := .ok ()

/-- A rollback without an earlier transaction, on a disk with that much free space. -/
def firstRollback (snapshot : SnapshotFolder) (free : Nat) : Preflight where
  folder := "folder"
  targetInStore := true
  markerConfined := true
  marker := none
  owner := .ok ()
  workConfined := true
  pathsConfined := true
  suspendedEarlier := .ok ()
  stateFile := true
  recovered := .ok pausedRunner.runner.state
  reopenedEarlier := .ok ()
  announced := []
  announcedError := none
  shutdown := ⟨fun service => service, fun _ => true, fun _ => none⟩
  reset := .ok ()
  retired := .ok ()
  snapshot := snapshot
  registry := .ok (Dict.empty.set "demo" "folder")
  checkedState := .ok ()
  checkedModules := .ok ()
  free := free
  minSnapshotFreeBytes := 0
  suspended := .ok ()

def missingSnapshot : SnapshotFolder := { storedSnapshot with manifest := .error ⟨.fileNotFound, "manifest.json"⟩ }

theorem rollback_missing_harmless : ∃ after left e,
    pausedRunner.rollback (.ok "snapshot") (.ok ()) (firstRollback missingSnapshot 1000) = (after, left, .raised e) ∧
      Kept pausedRunner after none left := by
  have hrun : pausedRunner.rollback (.ok "snapshot") (.ok ()) (firstRollback missingSnapshot 1000) = (_, _, .raised _) :=
    rfl
  refine ⟨_, _, _, hrun, (rollback_preflight_harmless hrun).mpr ?_⟩
  exact .inr (.inl ⟨rfl, .inl rfl, ⟨_, rfl, rfl⟩, rfl, rfl⟩)

/-- With too little free space `restore` raises a plain `OSError`; the paused run fails
and its service is stopped. -/
theorem rollback_full_disk_fails : ¬ ∀ (r after : RollbackRunner) (snapshotId : String) (reopened : Except Raised Unit)
    (o : Preflight) (left : Option MarkerFile) (e : Raised),
    r.rollback (.ok snapshotId) reopened o = (after, left, .raised e) → Kept r after o.marker left := by
  intro h
  have hkept := h pausedRunner _ "snapshot" (.ok ()) (firstRollback storedSnapshot 0) _ _ rfl
  exact Phase.noConfusion hkept.phase

end ModularPipelines.Snapshots
