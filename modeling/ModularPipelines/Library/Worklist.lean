import Mathlib.Algebra.Order.BigOperators.Group.List
import Mathlib.Algebra.Order.Ring.Nat
import Mathlib.Logic.Function.Iterate

namespace ModularPipelines.Library

/-- An item of a worklist leaves results and lighter items behind. -/
structure Expansion (α β : Type) where
  emit : α → List β
  children : α → List α
  weight : α → Nat
  lighter : ∀ a, ((children a).map weight).sum < weight a

namespace Expansion

variable {α β : Type} (e : Expansion α β)

/-- The first item is taken from the list, and its children are put in its place. -/
def explore : List α → List β
  | [] => []
  | a :: rest => e.emit a ++ explore (e.children a ++ rest)
termination_by items => (items.map e.weight).sum
decreasing_by
  have := e.lighter a
  simp only [List.map_append, List.sum_append, List.map_cons, List.sum_cons]
  omega

theorem explore_nil : e.explore [] = [] := by
  rw [explore]

theorem explore_append (xs ys : List α) : e.explore (xs ++ ys) = e.explore xs ++ e.explore ys := by
  induction xs using explore.induct e with
  | case1 => rw [explore_nil, List.nil_append, List.nil_append]
  | case2 a rest ih =>
    rw [List.append_assoc] at ih
    rw [List.cons_append, explore, explore, ih, List.append_assoc]

/-- The results of an item are its own and those of its children, one after the other. -/
theorem explore_single (a : α) :
    e.explore [a] = e.emit a ++ (e.children a).flatMap fun c => e.explore [c] := by
  have hall : ∀ items, e.explore items = items.flatMap fun c => e.explore [c] := by
    intro items
    induction items with
    | nil => rw [explore_nil, List.flatMap_nil]
    | cons c items ih =>
      have hc : c :: items = [c] ++ items := rfl
      rw [hc, explore_append, ih, List.flatMap_append, List.flatMap_singleton]
  rw [explore, List.append_nil, hall]

/-- One turn of the loop that takes the first item and gathers the results. -/
def step : List α × List β → List α × List β
  | ([], found) => ([], found)
  | (a :: rest, found) => (e.children a ++ rest, found ++ e.emit a)

/-- The loop ends, with every result of its items found in order. -/
theorem step_explore (items : List α) (found : List β) : ∃ n, e.step^[n] (items, found) = ([], found ++ e.explore items) := by
  induction items using explore.induct e generalizing found with
  | case1 => exact ⟨0, by rw [explore_nil, List.append_nil]; rfl⟩
  | case2 a rest ih =>
    obtain ⟨n, hn⟩ := ih (found ++ e.emit a)
    refine ⟨n + 1, ?_⟩
    rw [Function.iterate_succ_apply, step, hn, explore, List.append_assoc]

theorem weight_child {a c : α} (h : c ∈ e.children a) : e.weight c < e.weight a :=
  Nat.lt_of_le_of_lt (List.single_le_sum (fun _ _ => Nat.zero_le _) _ (List.mem_map_of_mem h)) (e.lighter a)

/-- What the children hand on to their item holds of every item. -/
theorem induct {motive : α → Prop} (step : ∀ a, (∀ c ∈ e.children a, motive c) → motive a) (a : α) : motive a := by
  induction hn : e.weight a using Nat.strongRecOn generalizing a with
  | ind n ih =>
    subst hn
    exact step a fun c hc => ih _ (e.weight_child hc) c rfl

end Expansion

end ModularPipelines.Library
