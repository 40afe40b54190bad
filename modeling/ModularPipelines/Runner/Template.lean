import Mathlib.Data.List.Nodup
import ModularPipelines.Library.JsonText

namespace ModularPipelines.Runner
open Library

inductive ExhaustedAction where
  | stop
  | pause
  | skip
  deriving DecidableEq, Repr

structure ErrorPolicy where
  retries : Nat
  onExhausted : ExhaustedAction
  deriving DecidableEq, Repr

/-- A DAG node: a stage, or a call of a declared service. `body` is the rest of the document. -/
structure StageDefinition where
  stageId : String
  serviceId : Option String
  errors : ErrorPolicy
  returnsData : Option Bool
  snapshotAfter : Bool
  body : Json
  deriving DecidableEq

/-- The policy on a command that outlives its timeout. -/
inductive TimeoutAction where
  | restart
  | pause
  | stop
  deriving DecidableEq, Repr

structure ServiceDefinition where
  serviceId : String
  errors : ErrorPolicy
  onCommandTimeout : TimeoutAction
  body : Json
  deriving DecidableEq

inductive SnapshotMode where
  | off
  | afterStage
  | afterEpoch
  deriving DecidableEq, Repr

structure ExperimentTemplate where
  cycles : Nat
  stages : List StageDefinition
  services : List ServiceDefinition
  snapshots : SnapshotMode
  cycles_pos : 0 < cycles
  stages_ne : stages ≠ []
  distinct : (stages.map StageDefinition.stageId).Nodup
  deriving DecidableEq

namespace ExperimentTemplate

def stageIds (t : ExperimentTemplate) : List String := t.stages.map StageDefinition.stageId

/-- The node at a one-based position. -/
def stageAt (t : ExperimentTemplate) (position : Nat) : Option StageDefinition :=
  if position = 0 then none else t.stages[position - 1]?

/-- The one-based position of a node. -/
def positionOf (t : ExperimentTemplate) (stageId : String) : Option Nat :=
  (t.stages.findIdx? (fun s => s.stageId == stageId)).map (· + 1)

theorem stages_length_pos (t : ExperimentTemplate) : 0 < t.stages.length :=
  List.length_pos_of_ne_nil t.stages_ne

theorem stageAt_eq_some {t : ExperimentTemplate} {position : Nat} {s : StageDefinition} :
    t.stageAt position = some s ↔ 0 < position ∧ t.stages[position - 1]? = some s := by
  unfold stageAt
  by_cases h : position = 0
  · simp [h]
  · simp [h, Nat.pos_of_ne_zero h]

theorem stageAt_exists {t : ExperimentTemplate} {position : Nat} (h : 0 < position)
    (hl : position ≤ t.stages.length) : ∃ s, t.stageAt position = some s := by
  have hlt : position - 1 < t.stages.length := by omega
  exact ⟨t.stages[position - 1], stageAt_eq_some.mpr ⟨h, List.getElem?_eq_getElem hlt⟩⟩

theorem stageAt_bound {t : ExperimentTemplate} {position : Nat} {s : StageDefinition}
    (h : t.stageAt position = some s) : 0 < position ∧ position ≤ t.stages.length := by
  obtain ⟨hpos, hs⟩ := stageAt_eq_some.mp h
  obtain ⟨hlt, -⟩ := List.getElem?_eq_some_iff.mp hs
  exact ⟨hpos, by omega⟩

theorem stageAt_mem {t : ExperimentTemplate} {position : Nat} {s : StageDefinition}
    (h : t.stageAt position = some s) : s ∈ t.stages :=
  List.mem_of_getElem? (stageAt_eq_some.mp h).2

theorem positionOf_stageAt {t : ExperimentTemplate} {stageId : String} {position : Nat}
    (h : t.positionOf stageId = some position) :
    ∃ s, t.stageAt position = some s ∧ s.stageId = stageId := by
  obtain ⟨i, hi, rfl⟩ := Option.map_eq_some_iff.mp h
  obtain ⟨hlt, hs, -⟩ := List.findIdx?_eq_some_iff_getElem.mp hi
  exact ⟨t.stages[i], stageAt_eq_some.mpr ⟨Nat.succ_pos i, List.getElem?_eq_getElem hlt⟩, by simpa using hs⟩

theorem positionOf_exists {t : ExperimentTemplate} {stageId : String} (h : stageId ∈ t.stageIds) :
    ∃ position, t.positionOf stageId = some position := by
  obtain ⟨s, hs, rfl⟩ := List.mem_map.mp h
  have hsome : (t.stages.findIdx? (fun r => r.stageId == s.stageId)).isSome := by
    rw [List.findIdx?_isSome]
    exact List.any_eq_true.mpr ⟨s, hs, beq_self_eq_true _⟩
  obtain ⟨i, hi⟩ := Option.isSome_iff_exists.mp hsome
  exact ⟨i + 1, by rw [positionOf, hi]; rfl⟩

/-- Distinct nodes have distinct positions. -/
theorem stageAt_injective {t : ExperimentTemplate} {p q : Nat} {s r : StageDefinition}
    (hs : t.stageAt p = some s) (hr : t.stageAt q = some r) (h : s.stageId = r.stageId) : p = q := by
  obtain ⟨hp, hs⟩ := stageAt_eq_some.mp hs
  obtain ⟨hq, hr⟩ := stageAt_eq_some.mp hr
  obtain ⟨hlp, rfl⟩ := List.getElem?_eq_some_iff.mp hs
  obtain ⟨hlq, rfl⟩ := List.getElem?_eq_some_iff.mp hr
  have hinj := List.nodup_iff_injective_getElem.mp t.distinct
  have hidx := @hinj ⟨p - 1, by simpa using hlp⟩ ⟨q - 1, by simpa using hlq⟩ (by simpa using h)
  have := congrArg Fin.val hidx
  simp only at this
  omega

end ExperimentTemplate

end ModularPipelines.Runner
