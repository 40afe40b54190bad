import Mathlib.Data.List.Basic

namespace ModularPipelines.Library

variable {α β : Type} {xs : List α} {i j : Nat} {a b c : α}

/-- The entries of a list after one of them has been replaced. -/
theorem get_set (h : xs[i]? = some a) (hc : (xs.set i b)[j]? = some c) :
    (j = i ∧ c = b) ∨ (j ≠ i ∧ xs[j]? = some c) := by
  have hlen : i < xs.length := (List.getElem?_eq_some_iff.mp h).1
  by_cases hj : j = i
  · subst hj
    rw [List.getElem?_set_self hlen] at hc
    exact .inl ⟨rfl, (Option.some.inj hc).symm⟩
  · rw [List.getElem?_set_ne (Ne.symm hj)] at hc
    exact .inr ⟨hj, hc⟩

theorem get_set_self (h : xs[i]? = some a) : (xs.set i b)[i]? = some b :=
  List.getElem?_set_self (List.getElem?_eq_some_iff.mp h).1

theorem get_set_other (hj : j ≠ i) : (xs.set i b)[j]? = xs[j]? := List.getElem?_set_ne (Ne.symm hj)

theorem get_bound (h : xs[i]? = some a) : i < xs.length := (List.getElem?_eq_some_iff.mp h).1

/-- The entries of a list after another one has been added. -/
theorem get_concat (hc : (xs ++ [b])[j]? = some c) : xs[j]? = some c ∨ (j = xs.length ∧ c = b) := by
  have hlen : j < (xs ++ [b]).length := get_bound hc
  rw [List.length_append, List.length_singleton] at hlen
  by_cases hj : j = xs.length
  · subst hj
    rw [List.getElem?_concat_length] at hc
    exact .inr ⟨rfl, (Option.some.inj hc).symm⟩
  · rw [List.getElem?_append_left (by omega)] at hc
    exact .inl hc

theorem get_concat_left (h : xs[i]? = some a) : (xs ++ [b])[i]? = some a := by
  rw [List.getElem?_append_left (get_bound h)]
  exact h

theorem get_concat_last : (xs ++ [b])[xs.length]? = some b := List.getElem?_concat_length

/-- No two entries have the same key. -/
def Keyed (key : α → β) (xs : List α) : Prop :=
  ∀ (i j : Nat) (a b : α), xs[i]? = some a → xs[j]? = some b → key a = key b → i = j

theorem Keyed.nil (key : α → β) : Keyed key [] := by
  intro i j a b ha
  cases ha

theorem Keyed.set {key : α → β} (hk : Keyed key xs) (h : xs[i]? = some a) (hb : key b = key a) :
    Keyed key (xs.set i b) := by
  intro j j' c c' hc hc' hkey
  obtain ⟨rfl, rfl⟩ | ⟨-, hold⟩ := get_set h hc <;> obtain ⟨rfl, rfl⟩ | ⟨-, hold'⟩ := get_set h hc'
  · rfl
  · exact hk _ _ _ _ h hold' (hb.symm.trans hkey)
  · exact hk _ _ _ _ hold h (hkey.trans hb)
  · exact hk _ _ _ _ hold hold' hkey

theorem Keyed.concat {key : α → β} (hk : Keyed key xs) (hnew : ∀ a ∈ xs, key a ≠ key b) :
    Keyed key (xs ++ [b]) := by
  intro j j' c c' hc hc' hkey
  obtain hold | ⟨rfl, rfl⟩ := get_concat hc <;> obtain hold' | ⟨rfl, rfl⟩ := get_concat hc'
  · exact hk _ _ _ _ hold hold' hkey
  · exact (hnew c (List.mem_of_getElem? hold) hkey).elim
  · exact (hnew c' (List.mem_of_getElem? hold') hkey.symm).elim
  · rfl

end ModularPipelines.Library
