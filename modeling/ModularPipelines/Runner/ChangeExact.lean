import ModularPipelines.Runner.DefinitionChange

namespace ModularPipelines.Runner

open Library Library.Json

/-- Both are absent, or both are the same JSON value. -/
def SameValue (old new : Option Json) : Prop := old.map sortKeys = new.map sortKeys

namespace PendingField

def inside (key : String) (f : PendingField) : PendingField := { f with path := key :: f.path }

theorem children_inside (key : String) (f : PendingField) :
    (f.inside key).children = f.children.map (inside key) := by
  have hu : (f.inside key).unchanged = f.unchanged := rfl
  unfold children
  rw [hu]
  by_cases h : f.unchanged
  · rw [if_pos h, if_pos h, List.map_nil]
  · rw [if_neg h, if_neg h]
    simp only [inside]
    split
    · next ms ns hold hnew =>
      rw [List.map_map]
      rfl
    · rfl

theorem changes_inside (key : String) (f : PendingField) :
    (f.inside key).changes = f.changes.map (FieldChange.inside key) := by
  have hu : (f.inside key).unchanged = f.unchanged := rfl
  unfold changes
  rw [hu]
  by_cases h : f.unchanged
  · rw [if_pos h, if_pos h, List.map_nil]
  · rw [if_neg h, if_neg h]
    simp only [inside]
    split <;> rfl

/-- Where a pair of values stands changes nothing but the paths. -/
theorem explore_inside (key : String) (f : PendingField) :
    expansion.explore [f.inside key] = (expansion.explore [f]).map (FieldChange.inside key) := by
  induction f using expansion.induct with
  | step f ih =>
    have hchildren : expansion.children (f.inside key) = (expansion.children f).map (inside key) := children_inside key f
    have hchanges : expansion.emit (f.inside key) = (expansion.emit f).map (FieldChange.inside key) := changes_inside key f
    rw [Expansion.explore_single, Expansion.explore_single, hchildren, hchanges, List.map_append, List.map_flatMap,
      List.flatMap_map]
    congr 1
    apply List.flatMap_congr
    intro c hc
    exact ih c hc

theorem unchanged_of_iff (path : List String) {old new : Option Json} :
    (of path old new).unchanged = true ↔ SameValue old new := by
  have htext : ∀ a b : Json, (a.sortKeys.dumps == b.sortKeys.dumps) = true ↔ a.sortKeys = b.sortKeys := by
    intro a b
    rw [beq_iff_eq, dumps_injective.eq_iff]
  unfold unchanged SameValue
  rw [Bool.and_eq_true, htext]
  cases old <;> cases new <;> simp [of]

end PendingField

open PendingField

/-- The changes found between two values, with paths from where the values stand. -/
def changesBetween (old new : Option Json) : List FieldChange := expansion.explore [.of [] old new]

theorem changesBetween_same {old new : Option Json} (h : SameValue old new) : changesBetween old new = [] := by
  have hu := (unchanged_of_iff []).mpr h
  have hchildren : expansion.children (.of [] old new) = [] := if_pos hu
  have hchanges : expansion.emit (.of [] old new) = [] := if_pos hu
  rw [changesBetween, Expansion.explore_single, hchildren, hchanges]
  rfl

/-- Two objects differ in their members. -/
theorem changesBetween_members {ms ns : List (String × Json)} (h : ¬ SameValue (some (.obj ms)) (some (.obj ns))) :
    changesBetween (some (.obj ms)) (some (.obj ns)) =
      (fieldNames ms ns).flatMap fun field =>
        (changesBetween (ms.lookup field) (ns.lookup field)).map (FieldChange.inside field) := by
  have hu := fun hu => h ((unchanged_of_iff []).mp hu)
  have hchildren : expansion.children (.of [] (some (.obj ms)) (some (.obj ns))) =
      (fieldNames ms ns).map fun field => inside field (.of [] (ms.lookup field) (ns.lookup field)) := if_neg hu
  have hchanges : expansion.emit (.of [] (some (.obj ms)) (some (.obj ns))) = [] := if_neg hu
  rw [changesBetween, Expansion.explore_single, hchildren, hchanges, List.nil_append, List.flatMap_map]
  apply List.flatMap_congr
  intro field hfield
  exact explore_inside field _

def bothObjects : Option Json → Option Json → Bool
  | some (.obj _), some (.obj _) => true
  | _, _ => false

/-- Two values that are not objects differ as a whole. -/
theorem changesBetween_value {old new : Option Json} (h : ¬ SameValue old new) (hobj : bothObjects old new = false) :
    changesBetween old new = [⟨[], old.isSome, new.isSome, old.getD .null, new.getD .null⟩] := by
  have hu := fun hu => h ((unchanged_of_iff []).mp hu)
  have hchildren : expansion.children (.of [] old new) = [] := by
    refine (if_neg hu).trans ?_
    split
    · next ms ns hold hnew =>
      rcases old with _ | _ <;> rcases new with _ | _ <;> simp_all [of, bothObjects]
    · rfl
  have hchanges : expansion.emit (.of [] old new) = [⟨[], old.isSome, new.isSome, old.getD .null, new.getD .null⟩] := by
    refine (if_neg hu).trans ?_
    split
    · next ms ns hold hnew =>
      rcases old with _ | _ <;> rcases new with _ | _ <;> simp_all [of, bothObjects]
    · rfl
  rw [changesBetween, Expansion.explore_single, hchildren, hchanges]
  rfl

/-- Two values are the same, differ as a whole, or are objects whose members are compared next. -/
theorem changesBetween_induct {motive : Option Json → Option Json → Prop}
    (same : ∀ old new, SameValue old new → motive old new)
    (value : ∀ old new, ¬ SameValue old new → bothObjects old new = false → motive old new)
    (members : ∀ ms ns, ¬ SameValue (some (.obj ms)) (some (.obj ns)) →
      (∀ field ∈ fieldNames ms ns, motive (ms.lookup field) (ns.lookup field)) → motive (some (.obj ms)) (some (.obj ns)))
    (old new : Option Json) : motive old new := by
  have hall : ∀ f : PendingField, ∀ path old new, f = .of path old new → motive old new := by
    intro f
    induction f using expansion.induct with
    | step f ih =>
      rintro path old new rfl
      by_cases hs : SameValue old new
      · exact same old new hs
      · cases hobj : bothObjects old new with
        | false => exact value old new hs hobj
        | true =>
          unfold bothObjects at hobj
          split at hobj
          · next ms ns =>
            apply members ms ns hs
            intro field hfield
            have hu := fun hu => hs ((unchanged_of_iff path).mp hu)
            have hchildren : expansion.children (.of path (some (.obj ms)) (some (.obj ns))) =
                (fieldNames ms ns).map fun field => .of (path ++ [field]) (ms.lookup field) (ns.lookup field) := if_neg hu
            exact ih _ (hchildren ▸ List.mem_map_of_mem hfield) _ _ _ rfl
          · cases hobj
  exact hall _ [] old new rfl

theorem edits_inside (field : String) (changes : List FieldChange) :
    (changes.map (FieldChange.inside field)).map FieldChange.edit =
      (changes.map FieldChange.edit).map (Edit.inside field) := by
  rw [List.map_map, List.map_map]
  rfl

/-- The changes are a patch that turns the one value into the other. -/
theorem changesBetween_patch (old new : Option Json) (hold : ∀ x ∈ old, x.Distinct) (hnew : ∀ x ∈ new, x.Distinct) :
    SameValue (applyEdits ((changesBetween old new).map FieldChange.edit) old) new := by
  induction old, new using changesBetween_induct with
  | same old new h =>
    rw [changesBetween_same h]
    exact h
  | value old new h hobj =>
    rw [changesBetween_value h hobj]
    cases new <;> rfl
  | members ms ns h ih =>
    obtain ⟨hms, hmembers⟩ := hold _ rfl
    obtain ⟨hns, hmembers'⟩ := hnew _ rfl
    rw [changesBetween_members h, List.map_flatMap]
    simp only [edits_inside]
    obtain ⟨ms', happly, hnodup, hlookup⟩ := applyEdits_members
      (fun field => (changesBetween (ms.lookup field) (ns.lookup field)).map FieldChange.edit) (fieldNames_nodup ms ns) hms
    rw [happly]
    apply congrArg some
    apply same_obj hnodup hns
    intro field
    rw [hlookup field]
    by_cases hfield : field ∈ fieldNames ms ns
    · rw [if_pos hfield]
      exact ih field hfield (fun x hx => hmembers.lookup hx) (fun x hx => hmembers'.lookup hx)
    · have hnone := hfield
      rw [mem_fieldNames, not_or, Option.not_isSome_iff_eq_none, Option.not_isSome_iff_eq_none] at hnone
      rw [if_neg hfield, hnone.1, hnone.2]

/-- An entry tells the two values under its path, and they are different. -/
structure Differs (old new : Option Json) (c : FieldChange) : Prop where
  before_present : c.beforePresent = (valueAt c.path old).isSome
  after_present : c.afterPresent = (valueAt c.path new).isSome
  before : c.before = (valueAt c.path old).getD .null
  after : c.after = (valueAt c.path new).getD .null
  different : ¬ SameValue (valueAt c.path old) (valueAt c.path new)

theorem Differs.inside {ms ns : List (String × Json)} {field : String} {c : FieldChange}
    (h : Differs (ms.lookup field) (ns.lookup field) c) : Differs (some (.obj ms)) (some (.obj ns)) (c.inside field) :=
  ⟨h.before_present, h.after_present, h.before, h.after, h.different⟩

theorem changesBetween_differs (old new : Option Json) : ∀ c ∈ changesBetween old new, Differs old new c := by
  induction old, new using changesBetween_induct with
  | same old new h =>
    rw [changesBetween_same h]
    intro c hc
    cases hc
  | value old new h hobj =>
    rw [changesBetween_value h hobj]
    intro c hc
    rw [List.mem_singleton.mp hc]
    exact ⟨rfl, rfl, rfl, rfl, h⟩
  | members ms ns h ih =>
    rw [changesBetween_members h]
    intro c hc
    obtain ⟨field, hfield, hc⟩ := List.mem_flatMap.mp hc
    obtain ⟨d, hd, rfl⟩ := List.mem_map.mp hc
    exact (ih field hfield d hd).inside

/-- Neither path leads to the other. -/
def Apart (c d : FieldChange) : Prop := ¬ c.path <+: d.path ∧ ¬ d.path <+: c.path

theorem changesBetween_apart (old new : Option Json) : (changesBetween old new).Pairwise Apart := by
  induction old, new using changesBetween_induct with
  | same old new h =>
    rw [changesBetween_same h]
    exact List.Pairwise.nil
  | value old new h hobj =>
    rw [changesBetween_value h hobj]
    exact List.pairwise_singleton _ _
  | members ms ns h ih =>
    rw [changesBetween_members h, List.pairwise_flatMap]
    constructor
    · intro field hfield
      rw [List.pairwise_map]
      apply (ih field hfield).imp
      intro c d hcd
      simpa [Apart, FieldChange.inside, List.cons_prefix_cons] using hcd
    · apply (fieldNames_nodup ms ns).imp
      intro field other hne c hc d hd
      obtain ⟨c', _, rfl⟩ := List.mem_map.mp hc
      obtain ⟨d', _, rfl⟩ := List.mem_map.mp hd
      constructor
      · exact fun hp => hne (List.cons_prefix_cons.mp hp).1
      · exact fun hp => hne (List.cons_prefix_cons.mp hp).1.symm

theorem dumped_distinct {δ : Type} (modelDump : δ → Document) (definitions : Dict (Nat × δ)) (identity : String) :
    ∀ x ∈ dumped modelDump definitions identity, x.Distinct := by
  intro x hx
  obtain ⟨d, _, rfl⟩ := Option.map_eq_some_iff.mp hx
  exact (modelDump d.2).property

/-- The fields of a definition change are an exact patch, found by a loop that ends. -/
theorem definition_change_exact {δ : Type} (modelDump : δ → Document) (role identity : String)
    (before after : Dict (Nat × δ)) :
    let change := definitionChange modelDump role identity before after
    (∃ n, expansion.step^[n] ([.of [] change.before change.after], []) = ([], change.fields)) ∧
      SameValue (applyEdits (change.fields.map FieldChange.edit) change.before) change.after ∧
      (∀ c ∈ change.fields, Differs change.before change.after c) ∧ change.fields.Pairwise Apart := by
  intro change
  refine ⟨expansion.step_explore _ [], ?_, ?_, ?_⟩
  · exact changesBetween_patch _ _ (dumped_distinct modelDump before identity) (dumped_distinct modelDump after identity)
  · exact changesBetween_differs change.before change.after
  · exact changesBetween_apart change.before change.after

end ModularPipelines.Runner
