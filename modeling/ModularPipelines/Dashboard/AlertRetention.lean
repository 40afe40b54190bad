import ModularPipelines.Dashboard.AlertSteps
import Mathlib.Data.String.Basic

namespace ModularPipelines.Dashboard
open Library

variable {Clock : Type}

/-- The incidents stay in order, new ones come at the end, and nothing is saved. -/
structure Extends (m m' : AlertMonitor Clock) : Prop where
  ids : m.incidents.map AlertIncident.id <+: m'.incidents.map AlertIncident.id
  file : m'.file = m.file

theorem Extends.refl (m : AlertMonitor Clock) : Extends m m := ⟨List.prefix_refl _, rfl⟩

theorem Extends.trans {m m' m'' : AlertMonitor Clock} (h : Extends m m') (g : Extends m' m'') : Extends m m'' :=
  ⟨List.IsPrefix.trans h.ids g.ids, g.file.trans h.file⟩

theorem Extends.of_eq {m m' : AlertMonitor Clock} (hfile : m'.file = m.file)
    (h : m'.incidents.map AlertIncident.id = m.incidents.map AlertIncident.id) : Extends m m' :=
  ⟨⟨[], (List.append_nil _).trans h.symm⟩, hfile⟩

theorem Extends.append {m m' : AlertMonitor Clock} {i : AlertIncident} (hfile : m'.file = m.file)
    (h : m'.incidents = m.incidents ++ [i]) : Extends m m' := by
  refine ⟨?_, hfile⟩
  rw [h, List.map_append]
  exact List.prefix_append _ _

/-- The monitor of a round once the rules were observed and the incidents of the ICMP monitor merged. -/
def AlertMonitor.merged (lasted : Clock → Clock → Clock → Bool) (m : AlertMonitor Clock) (e : Evaluation Clock) :
    AlertMonitor Clock :=
  let (closed, changed) := m.closeRemovedRules e.now
  ((AlertMonitor.observeRules lasted e closed changed m.rules).1.mergeIcmpIncidents e.icmp).1

end ModularPipelines.Dashboard
