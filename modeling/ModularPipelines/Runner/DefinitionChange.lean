import ModularPipelines.Library.JsonPatch
import ModularPipelines.Library.Worklist
import Mathlib.Data.List.Sort

namespace ModularPipelines.Runner

open Library Library.Json

/-- A dumped definition: its objects are dictionaries, so none repeats a key. -/
def Document := { doc : Json // doc.Distinct }

/-- One pair of values still to be compared. An absent value is read as null. -/
structure PendingField where
  path : List String
  oldValue : Json
  newValue : Json
  oldPresent : Bool
  newPresent : Bool

structure FieldChange where
  path : List String
  beforePresent : Bool
  afterPresent : Bool
  before : Json
  after : Json

namespace PendingField

def of (path : List String) (old new : Option Json) : PendingField where
  path := path
  oldValue := old.getD .null
  newValue := new.getD .null
  oldPresent := old.isSome
  newPresent := new.isSome

def unchanged (f : PendingField) : Bool :=
  f.oldPresent == f.newPresent && f.oldValue.sortKeys.dumps == f.newValue.sortKeys.dumps

/-- The keys of both objects, each once and in order. -/
def fieldNames (ms ns : List (String × Json)) : List String :=
  ((ms ++ ns).map Prod.fst).dedup.mergeSort (fun a b => a ≤ b)

def children (f : PendingField) : List PendingField :=
  if f.unchanged then [] else
    match f.oldValue, f.newValue with
    | .obj ms, .obj ns =>
      (fieldNames ms ns).map fun field => of (f.path ++ [field]) (ms.lookup field) (ns.lookup field)
    | _, _ => []

def changes (f : PendingField) : List FieldChange :=
  if f.unchanged then [] else
    match f.oldValue, f.newValue with
    | .obj _, .obj _ => []
    | _, _ =>
      [{ path := f.path
         beforePresent := f.oldPresent
         afterPresent := f.newPresent
         before := f.oldValue
         after := f.newValue }]

def weight (f : PendingField) : Nat := f.oldValue.weight + f.newValue.weight

theorem fieldNames_nodup (ms ns : List (String × Json)) : (fieldNames ms ns).Nodup :=
  (List.mergeSort_perm _ _).nodup_iff.mpr (List.nodup_dedup _)

theorem mem_fieldNames {ms ns : List (String × Json)} {field : String} :
    field ∈ fieldNames ms ns ↔ (ms.lookup field).isSome ∨ (ns.lookup field).isSome := by
  rw [fieldNames, List.mem_mergeSort, List.mem_dedup, List.map_append, List.mem_append, Dict.lookup_isSome,
    Dict.lookup_isSome]

theorem fieldNames_length (ms ns : List (String × Json)) : (fieldNames ms ns).length ≤ ms.length + ns.length := by
  rw [fieldNames, List.length_mergeSort]
  have h := (List.dedup_sublist ((ms ++ ns).map Prod.fst)).length_le
  rwa [List.length_map, List.length_append] at h

theorem children_lighter (f : PendingField) : (f.children.map weight).sum < f.weight := by
  have hpos : ∀ j : Json, 0 < j.weight := by
    intro j
    cases j <;> simp [Json.weight]
  unfold children
  split
  · have := hpos f.oldValue
    simp only [List.map_nil, List.sum_nil, weight]
    omega
  · split
    · next ms ns hold hnew =>
      have hms := weight_lookups ms (fieldNames_nodup ms ns)
      have hns := weight_lookups ns (fieldNames_nodup ms ns)
      have hlen := fieldNames_length ms ns
      have hsum : (((fieldNames ms ns).map fun field => of (f.path ++ [field]) (ms.lookup field) (ns.lookup field)).map
          weight).sum = ((fieldNames ms ns).map fun field => ((ms.lookup field).getD .null).weight).sum +
            ((fieldNames ms ns).map fun field => ((ns.lookup field).getD .null).weight).sum := by
        rw [List.map_map, ← List.sum_map_add]
        rfl
      rw [hsum, weight, hold, hnew, Json.weight, Json.weight]
      omega
    · have := hpos f.oldValue
      simp only [List.map_nil, List.sum_nil, weight]
      omega

def expansion : Expansion PendingField FieldChange where
  emit := changes
  children := children
  weight := weight
  lighter := children_lighter

end PendingField

structure DefinitionChange where
  kind : String
  id : String
  before : Option Json
  after : Option Json
  oldPosition : Option Nat
  newPosition : Option Nat
  fields : List FieldChange

section

variable {δ : Type} (modelDump : δ → Document)

def dumped (definitions : Dict (Nat × δ)) (identity : String) : Option Json :=
  (definitions.get? identity).map fun d => (modelDump d.2).val

def definitionChange (role identity : String) (before after : Dict (Nat × δ)) : DefinitionChange where
  kind := role
  id := identity
  before := dumped modelDump before identity
  after := dumped modelDump after identity
  oldPosition := (before.get? identity).map Prod.fst
  newPosition := (after.get? identity).map Prod.fst
  fields := PendingField.expansion.explore
    [.of [] (dumped modelDump before identity) (dumped modelDump after identity)]

end

/-- What an entry asks of the document before: the value after, or no value. -/
def FieldChange.edit (c : FieldChange) : Edit := ⟨c.path, if c.afterPresent then some c.after else none⟩

def FieldChange.inside (key : String) (c : FieldChange) : FieldChange := { c with path := key :: c.path }

end ModularPipelines.Runner
