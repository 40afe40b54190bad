import ModularPipelines.Library.Json
import ModularPipelines.Library.Worklist

namespace ModularPipelines.Library.Json

/-- A string of a document, as a value or as a key, at any depth. -/
inductive Occurs (s : String) : Json → Prop where
  | here : Occurs s (.str s)
  | elem {x : Json} {xs : List Json} (hx : x ∈ xs) (h : Occurs s x) : Occurs s (.arr xs)
  | key {v : Json} {ms : List (String × Json)} (hm : (s, v) ∈ ms) : Occurs s (.obj ms)
  | value {k : String} {v : Json} {ms : List (String × Json)} (hm : (k, v) ∈ ms) (h : Occurs s v) : Occurs s (.obj ms)

mutual
/-- The strings, containers and scalars of a document, keys among them. -/
def mass : Json → Nat
  | .arr xs => massElems xs + 1
  | .obj ms => massMembers ms + 1
  | _ => 1
def massElems : List Json → Nat
  | [] => 0
  | x :: xs => mass x + massElems xs
def massMembers : List (String × Json) → Nat
  | [] => 0
  | (_, x) :: ms => mass x + 1 + massMembers ms
end

/-- What a container leaves on the stack, the top first. -/
def stacked : Json → List Json
  | .arr xs => xs.reverse
  | .obj ms => (ms.map Prod.snd).reverse ++ (ms.map fun m => .str m.1).reverse
  | _ => []

def ownString : Json → List String
  | .str s => [s]
  | _ => []

theorem massElems_sum (xs : List Json) : (xs.map mass).sum = massElems xs := by
  induction xs with
  | nil => rfl
  | cons x xs ih => rw [List.map_cons, List.sum_cons, ih, massElems]

theorem massMembers_sum (ms : List (String × Json)) :
    ((ms.map Prod.snd).map mass).sum + ((ms.map fun m => Json.str m.1).map mass).sum = massMembers ms := by
  induction ms with
  | nil => rfl
  | cons m ms ih =>
    obtain ⟨k, x⟩ := m
    simp only [List.map_cons, List.sum_cons, massMembers, mass] at ih ⊢
    omega

theorem stacked_lighter (data : Json) : ((stacked data).map mass).sum < mass data := by
  cases data with
  | arr xs =>
    rw [stacked, List.map_reverse, List.sum_reverse, massElems_sum, mass]
    exact Nat.lt_succ_self _
  | obj ms =>
    rw [stacked, List.map_append, List.sum_append, List.map_reverse, List.sum_reverse, List.map_reverse,
      List.sum_reverse, massMembers_sum, mass]
    exact Nat.lt_succ_self _
  | _ => exact Nat.one_pos

/-- The walk over all strings of a document. -/
def strings : Expansion Json String where
  emit := ownString
  children := stacked
  weight := mass
  lighter := stacked_lighter

theorem mem_stacked_members {x : Json} {ms : List (String × Json)} :
    x ∈ stacked (.obj ms) ↔ ∃ m ∈ ms, m.2 = x ∨ .str m.1 = x := by
  rw [stacked, List.mem_append, List.mem_reverse, List.mem_reverse, List.mem_map, List.mem_map]
  constructor
  · rintro (⟨m, hm, hx⟩ | ⟨m, hm, hx⟩)
    · exact ⟨m, hm, .inl hx⟩
    · exact ⟨m, hm, .inr hx⟩
  · rintro ⟨m, hm, hx | hx⟩
    · exact .inl ⟨m, hm, hx⟩
    · exact .inr ⟨m, hm, hx⟩

/-- An occurrence is the string itself or lies in something that was put on the stack. -/
theorem occurs_iff {s : String} {data : Json} :
    Occurs s data ↔ s ∈ ownString data ∨ ∃ x ∈ stacked data, Occurs s x := by
  constructor
  · intro h
    cases h with
    | here => exact .inl (List.mem_singleton.mpr rfl)
    | elem hx h => exact .inr ⟨_, List.mem_reverse.mpr hx, h⟩
    | key hm => exact .inr ⟨_, mem_stacked_members.mpr ⟨_, hm, .inr rfl⟩, .here⟩
    | value hm h => exact .inr ⟨_, mem_stacked_members.mpr ⟨_, hm, .inl rfl⟩, h⟩
  · rintro (h | ⟨x, hx, h⟩)
    · cases data with
      | str t =>
        obtain rfl := List.mem_singleton.mp h
        exact .here
      | _ => cases h
    · cases data with
      | arr xs => exact .elem (List.mem_reverse.mp hx) h
      | obj ms =>
        obtain ⟨⟨k, v⟩, hm, rfl | rfl⟩ := mem_stacked_members.mp hx
        · exact .value hm h
        · cases h
          exact .key hm
      | _ => cases hx

/-- The walk finds exactly the strings that occur. -/
theorem mem_strings {s : String} (data : Json) : s ∈ strings.explore [data] ↔ Occurs s data := by
  induction data using strings.induct with
  | step data ih =>
    rw [strings.explore_single, List.mem_append, List.mem_flatMap, occurs_iff]
    constructor
    · rintro (h | ⟨x, hx, h⟩)
      · exact .inl h
      · exact .inr ⟨x, hx, (ih x hx).mp h⟩
    · rintro (h | ⟨x, hx, h⟩)
      · exact .inl h
      · exact .inr ⟨x, hx, (ih x hx).mpr h⟩

end ModularPipelines.Library.Json
