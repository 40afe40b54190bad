import ModularPipelines.Snapshots.Histories

namespace ModularPipelines.Snapshots
open Library Services Runner

section Exports
variable {tree : FileTree} {snapshotId : String} {given saved : Dict String} {a : ActiveRunner}

end Exports

section Boundary
variable {w : Surroundings} {tree : FileTree} {journal : ResultTable} {a : ActiveRunner} {given saved : Dict String}
  {paths : List String} {snapshotId : String} {kind : SnapshotKind}

end Boundary

/-- A run from a state that has retained `paths`, with what it retains. -/
def retainedRun (m : Machine) (paths : List String) (actions : List Action) : Option (Machine × List String) :=
  actions.foldlM (fun r action =>
    if ∀ path ∈ Machine.retaining r.1 action, insideArtifacts path then
      (r.1.transition action).map (fun next => (next, r.2 ++ Machine.retaining r.1 action))
    else none) (m, paths)

theorem History.run {m m' : Machine} {paths paths' : List String} {actions : List Action} (h : History m paths)
    (hrun : retainedRun m paths actions = some (m', paths')) : History m' paths' := by
  induction actions generalizing m paths with
  | nil =>
    obtain ⟨rfl, rfl⟩ := Prod.mk.inj (Option.some.inj hrun)
    exact h
  | cons action rest ih =>
    obtain ⟨r, hstep, hrest⟩ := Option.bind_eq_some_iff.mp hrun
    obtain ⟨hinside, hstep⟩ := Option.ite_none_right_eq_some.mp hstep
    obtain ⟨next, hnext, rfl⟩ := Option.map_eq_some_iff.mp hstep
    exact ih (h.step action hinside hnext) hrest

/-- One conditional stage that hands on data, beside a service. -/
def watched : ExperimentTemplate where
  cycles := 2
  stages := [⟨"watch", none, ⟨0, .pause⟩, some true, false, .null⟩]
  services := [⟨"web", ⟨0, .pause⟩, .pause, .null⟩]
  snapshots := .off
  cycles_pos := by decide
  stages_ne := by simp
  distinct := by decide

end ModularPipelines.Snapshots
