import ModularPipelines.Runner.Atomic

namespace ModularPipelines.Runner
open Library Services

def ActiveRunner.markRerun (a : ActiveRunner) : ActiveRunner := { a with pendingAdvance := false, manual := true }

def ActiveRunner.withRetries (a : ActiveRunner) (counts : Dict Nat) : ActiveRunner :=
  { a with state := { a.state with stageRetryCounts := counts } }

def ActiveRunner.withServices (a : ActiveRunner) (retrying : Bool) (services : Dict ServiceInstance) : ActiveRunner :=
  { a with serviceRetrying := retrying, state := { a.state with services := services } }

/-- The commands that change what the DAG visits, or its retry budgets. -/
def Command.redirects : Command → Bool
  | .rerun _ | .move _ | .resetRetries _ _ => true
  | _ => false

/-- Everything that a control command can make of a runner. -/
inductive Issued (a : ActiveRunner) (c : Command) : ActiveRunner → Prop where
  | same : Issued a c a
  | marked (hc : c.redirects = true) (hidle : a.idle = true) : Issued a c a.markRerun
  | stepped (hidle : a.idle = true) (hrebuild : a.state.pendingRebuild = none) : Issued a c (beginStep a)
  | rerun (hc : c.redirects = true) (hidle : a.idle = true) (hrebuild : a.state.pendingRebuild = none) :
      Issued a c (beginStep a.markRerun)
  | observed : Issued a c (updateJournalPause a)
  | resumed : Issued a c (beginResume (updateJournalPause a))
  | moved {position : Nat} (hc : c.redirects = true) (hidle : a.idle = true) (hpos : 1 ≤ position)
      (hlen : position ≤ a.state.template.stages.length) : Issued a c (moveCursor a position)
  | retries (hc : c.redirects = true) (counts : Dict Nat) : Issued a c (a.withRetries counts)
  | services (retrying : Bool) (services : Dict ServiceInstance) : Issued a c (a.withServices retrying services)
  | snapshot (hidle : a.idle = true) (hmaintenance : a.maintenance = false)
      (hrebuild : a.state.pendingRebuild = none) : Issued a c (beginSnapshot a)

theorem requireActive_toRunner {a b : ActiveRunner} (h : requireActive a.toRunner = .ok b) :
    b = a ∧ a.state.pendingRebuild = none := by
  obtain ⟨hsel, hrebuild, -⟩ := requireActive_ok.mp h
  obtain rfl := Option.some.inj hsel
  exact ⟨rfl, hrebuild⟩

/-- A call that `admitIf` guards leaves the runner alone or has its effect. -/
theorem admit_cases {α : Type} (allowed : Except RunnerError α) (r : ExperimentRunner)
    (effect : α → ActiveRunner) :
    (admitIf allowed r effect).2 = r ∨ ∃ x, allowed = .ok x ∧ (admitIf allowed r effect).2 = (effect x).toRunner := by
  cases allowed with
  | error e => exact .inl rfl
  | ok x => exact .inr ⟨x, rfl, rfl⟩

theorem stepAllowed_toRunner {a b : ActiveRunner} (h : stepAllowed a.toRunner = .ok b) :
    b = a ∧ a.idle = true ∧ a.state.pendingRebuild = none := by
  obtain ⟨c, hc, hrest⟩ := bind_ok.mp h
  obtain ⟨hca, hrebuild⟩ := requireActive_toRunner hc
  simp only [rejectIf_then] at hrest
  obtain ⟨hmode, -, -, hcb⟩ := hrest
  have hba : b = a := (Except.ok.inj hcb).symm.trans hca
  refine ⟨hba, ?_, hrebuild⟩
  rw [hca] at hmode
  cases hidle : a.idle with
  | true => rfl
  | false => exact absurd (Or.inr (Or.inl hidle)) hmode

theorem stepReady_issued (a : ActiveRunner) :
    (stepReady a.toRunner).2 = a.toRunner ∨
      (a.idle = true ∧ a.state.pendingRebuild = none ∧ (stepReady a.toRunner).2 = (beginStep a).toRunner) := by
  obtain h | ⟨b, hb, h⟩ := admit_cases (stepAllowed a.toRunner) a.toRunner beginStep
  · exact .inl h
  · obtain ⟨hba, hidle, hrebuild⟩ := stepAllowed_toRunner hb
    rw [hba] at h
    exact .inr ⟨hidle, hrebuild, h⟩

theorem step_issued (a : ActiveRunner) :
    (step a.toRunner).2 = a.toRunner ∨
      (a.idle = true ∧ a.state.pendingRebuild = none ∧ (step a.toRunner).2 = (beginStep a).toRunner) := by
  unfold step
  split
  · exact .inl rfl
  · split
    · exact stepReady_issued a
    · exact .inl rfl

theorem rerunAllowed_toRunner {a : ActiveRunner} {position : Argument}
    (h : rerunAllowed a.toRunner position = .ok ()) : a.idle = true := by
  unfold rerunAllowed at h
  obtain ⟨-, hactive⟩ := rejectIf_then.mp h
  obtain ⟨b, hb, hrest⟩ := bind_ok.mp hactive
  rw [(requireActive_toRunner hb).1] at hrest
  obtain ⟨-, hlast⟩ := rejectIf_then.mp hrest
  have hcond := rejectIf_ok.mp hlast
  cases hidle : a.idle with
  | true => rfl
  | false => exact absurd (Or.inr (Or.inr hidle)) hcond

theorem resumeReady_issued (a : ActiveRunner) (c : Command) :
    ∃ b, (resumeReady a.toRunner).2 = b.toRunner ∧ Issued a c b := by
  unfold resumeReady
  cases hr : requireActive a.toRunner with
  | error e => exact ⟨a, rfl, .same⟩
  | ok d =>
    rw [(requireActive_toRunner hr).1]
    obtain h | ⟨b, hb, h⟩ := admit_cases (resumeAllowed (updateJournalPause a))
      (updateJournalPause a).toRunner beginResume
    · exact ⟨_, h, .observed⟩
    · have hsame : b = updateJournalPause a := by
        unfold resumeAllowed at hb
        obtain ⟨u, -, hrest⟩ := bind_ok.mp hb
        simp only [rejectIf_then] at hrest
        exact (Except.ok.inj hrest.2.2.2).symm
      rw [hsame] at h
      exact ⟨_, h, .resumed⟩

theorem within_bound {position : Argument} {size n : Nat} (h : position.within size = some n) : 1 ≤ n ∧ n ≤ size := by
  cases position with
  | int k =>
    simp only [Argument.within, Option.ite_none_right_eq_some, Option.some.injEq] at h
    omega
  | text s => cases h
  | other => cases h

theorem move_issued (a : ActiveRunner) (position : Argument) :
    ∃ b, (move a.toRunner position).2 = b.toRunner ∧ Issued a (.move position) b := by
  obtain h | ⟨⟨b, n⟩, hb, h⟩ := admit_cases (moveAllowed a.toRunner position) a.toRunner
    (fun r => moveCursor r.1 r.2)
  · exact ⟨a, h, .same⟩
  · unfold moveAllowed at hb
    obtain ⟨-, hactive⟩ := rejectIf_then.mp hb
    obtain ⟨c, hc, hrest⟩ := bind_ok.mp hactive
    rw [(requireActive_toRunner hc).1] at hrest
    obtain ⟨hmode, hlast⟩ := rejectIf_then.mp hrest
    cases hn : position.within a.state.template.stages.length with
    | none =>
      rw [hn] at hlast
      cases hlast
    | some m =>
      rw [hn] at hlast
      obtain ⟨rfl, rfl⟩ := Prod.mk.inj (Except.ok.inj hlast)
      have hidle : a.idle = true := by
        cases hi : a.idle with
        | true => rfl
        | false => exact absurd (Or.inr hi) hmode
      exact ⟨_, h, .moved rfl hidle (within_bound hn).1 (within_bound hn).2⟩

theorem resetRetries_issued (a : ActiveRunner) (kind : String) (position : Argument) :
    ∃ b, (resetRetries a.toRunner kind position).2 = b.toRunner ∧ Issued a (.resetRetries kind position) b := by
  obtain h | ⟨b, hb, h⟩ := admit_cases (resetRetryCount a.toRunner kind position) a.toRunner id
  · exact ⟨a, h, .same⟩
  · refine ⟨b, h, ?_⟩
    unfold resetRetryCount at hb
    obtain ⟨-, hactive⟩ := rejectIf_then.mp hb
    obtain ⟨c, hc, hrest⟩ := bind_ok.mp hactive
    rw [(requireActive_toRunner hc).1] at hrest
    simp only [rejectIf_then] at hrest
    obtain ⟨-, -, hkind⟩ := hrest
    split at hkind
    · unfold resetServiceRetries at hkind
      obtain ⟨-, hservice⟩ := rejectIf_then.mp hkind
      split at hservice
      · cases hservice
      · split at hservice
        · cases hservice
        · obtain rfl := Except.ok.inj hservice
          exact .services a.serviceRetrying _
    · unfold resetStageRetries at hkind
      split at hkind
      · cases hkind
      · obtain rfl := Except.ok.inj hkind
        exact .retries rfl _

theorem serviceControl_toRunner {a b : ActiveRunner} {position : Argument} {message : String}
    {definition : ServiceDefinition} (h : serviceControl a.toRunner position message = .ok (b, definition)) :
    b = a := by
  obtain ⟨c, hc, hrest⟩ := bind_ok.mp h
  obtain ⟨u, -, hdef⟩ := bind_ok.mp hrest
  obtain ⟨d, -, hlast⟩ := bind_ok.mp hdef
  exact (Prod.mk.inj (Except.ok.inj hlast)).1.symm.trans (requireActive_toRunner hc).1

theorem startService_issued (a : ActiveRunner) (position : Argument) :
    ∃ b, (startService a.toRunner position).2 = b.toRunner ∧ Issued a (.startService position) b := by
  unfold startService
  split
  · exact ⟨a, rfl, .same⟩
  · rename_i b definition hok
    obtain rfl := serviceControl_toRunner hok
    unfold beginServiceStart
    split
    · exact ⟨_, rfl, .services false b.state.services⟩
    · exact ⟨_, rfl, .services true b.state.services⟩

theorem stopService_issued (a : ActiveRunner) (position : Argument) (instanceId : String) :
    ∃ b, (stopService a.toRunner position instanceId).2 = b.toRunner ∧ Issued a (.stopService position instanceId) b := by
  unfold stopService
  generalize hmessage : "service stop requires an idle pause without another service or maintenance operation." = message
  obtain h | ⟨⟨b, definition⟩, hb, h⟩ := admit_cases (serviceControl a.toRunner position message)
    a.toRunner (fun r => beginServiceStop r.1 r.2 instanceId)
  · exact ⟨a, h, .same⟩
  · obtain rfl := serviceControl_toRunner hb
    exact ⟨_, h, .services true _⟩

theorem snapshot_issued (a : ActiveRunner) (label : Option Argument) :
    ∃ b, (snapshot a.toRunner label).2 = b.toRunner ∧ Issued a (.snapshot label) b := by
  obtain h | ⟨b, hb, h⟩ := admit_cases (snapshotAllowed a.toRunner label) a.toRunner beginSnapshot
  · exact ⟨a, h, .same⟩
  · unfold snapshotAllowed at hb
    obtain ⟨u, -, hactive⟩ := bind_ok.mp hb
    obtain ⟨c, hc, hrest⟩ := bind_ok.mp hactive
    obtain ⟨hca, hrebuild⟩ := requireActive_toRunner hc
    rw [hca] at hrest
    simp only [rejectIf_then] at hrest
    obtain ⟨-, hcond, hlast⟩ := hrest
    obtain rfl := Except.ok.inj hlast
    simp only [not_or, Bool.not_eq_true, Bool.not_eq_false] at hcond
    exact ⟨_, h, .snapshot hcond.2.2.2.1 hcond.1 hrebuild⟩

/-- Inversion of a control command: what it can do, with the checks that it has passed. -/
theorem issue_issued (a : ActiveRunner) (c : Command) :
    ∃ b, (issue a.toRunner c).2 = b.toRunner ∧ Issued a c b := by
  cases c with
  | rerun position =>
    show ∃ b, (rerun a.toRunner position).2 = b.toRunner ∧ Issued a (.rerun position) b
    unfold rerun
    split
    · exact ⟨a, rfl, .same⟩
    · rename_i hok
      have hidle := rerunAllowed_toRunner hok
      obtain h | ⟨-, hrebuild, h⟩ := step_issued a.markRerun
      · exact ⟨_, h, .marked rfl hidle⟩
      · exact ⟨_, h, .rerun rfl hidle hrebuild⟩
  | step =>
    obtain h | ⟨hidle, hrebuild, h⟩ := step_issued a
    · exact ⟨_, h, .same⟩
    · exact ⟨_, h, .stepped hidle hrebuild⟩
  | resume =>
    show ∃ b, (resume a.toRunner).2 = b.toRunner ∧ Issued a .resume b
    unfold resume
    split
    · exact ⟨a, rfl, .same⟩
    · split
      · exact resumeReady_issued a _
      · exact ⟨a, rfl, .same⟩
  | move position => exact move_issued a position
  | resetRetries kind position => exact resetRetries_issued a kind position
  | startService position => exact startService_issued a position
  | stopService position instanceId => exact stopService_issued a position instanceId
  | snapshot label => exact snapshot_issued a label
  | stepAfterReady =>
    obtain h | ⟨hidle, hrebuild, h⟩ := stepReady_issued a
    · exact ⟨_, h, .same⟩
    · exact ⟨_, h, .stepped hidle hrebuild⟩
  | resumeAfterReady => exact resumeReady_issued a _

end ModularPipelines.Runner
