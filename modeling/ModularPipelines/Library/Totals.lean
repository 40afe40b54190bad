import Mathlib.Algebra.BigOperators.Group.List.Basic
import Mathlib.Algebra.GroupWithZero.Nat
import Mathlib.Data.List.Nodup
import ModularPipelines.Library.Dict

namespace ModularPipelines.Library.Dict

variable {α : Type} {d : Dict α} {key : String} {value old : α} {w : String → α → Nat}

/-- Every key has one entry. -/
def Unique (d : Dict α) : Prop := d.keys.Nodup

/-- The weights of all entries together. -/
def total (w : String → α → Nat) (d : Dict α) : Nat := (d.entries.map (fun e => w e.1 e.2)).sum

theorem Unique.empty : (empty : Dict α).Unique := List.nodup_nil

theorem keys_keep (d : Dict α) (p : String → Bool) : (d.keep p).keys = d.keys.filter p := by
  unfold keys keep
  rw [List.filter_map]
  rfl

theorem Unique.keep (h : d.Unique) (p : String → Bool) : (d.keep p).Unique := by
  unfold Unique
  rw [keys_keep]
  exact h.filter p

theorem setEntries_absent {entries : List (String × α)} (h : entries.lookup key = none) :
    setEntries key value entries = entries ++ [(key, value)] := by
  induction entries with
  | nil => rfl
  | cons entry rest ih =>
    obtain ⟨k, v⟩ := entry
    rw [lookup_pair] at h
    by_cases hk : key = k
    · rw [if_pos hk] at h
      cases h
    · rw [if_neg hk] at h
      rw [setEntries, if_neg (Ne.symm hk), ih h, List.cons_append]

theorem keys_setEntries_present {entries : List (String × α)} (h : entries.lookup key = some old) :
    (setEntries key value entries).map Prod.fst = entries.map Prod.fst := by
  induction entries with
  | nil => cases h
  | cons entry rest ih =>
    obtain ⟨k, v⟩ := entry
    rw [lookup_pair] at h
    by_cases hk : key = k
    · rw [setEntries, if_pos hk.symm, List.map_cons, List.map_cons, hk]
    · rw [if_neg hk] at h
      rw [setEntries, if_neg (Ne.symm hk), List.map_cons, List.map_cons, ih h]

theorem Unique.set (h : d.Unique) (key : String) (value : α) : (d.set key value).Unique := by
  unfold Unique keys Dict.set
  cases hget : d.get? key with
  | none =>
    rw [setEntries_absent hget, List.map_append]
    refine List.Nodup.append h (List.nodup_singleton _) ?_
    intro other hother hsame
    rw [List.mem_singleton.mp hsame] at hother
    have hsome : (d.get? key).isSome := mem_keys.mp hother
    rw [hget] at hsome
    cases hsome
  | some old =>
    rw [keys_setEntries_present hget]
    exact h

theorem mem_of_lookup {entries : List (String × α)} (h : entries.lookup key = some value) : (key, value) ∈ entries := by
  induction entries with
  | nil => cases h
  | cons entry rest ih =>
    obtain ⟨k, v⟩ := entry
    rw [lookup_pair] at h
    by_cases hk : key = k
    · rw [if_pos hk] at h
      rw [hk, Option.some.inj h]
      exact List.mem_cons_self
    · rw [if_neg hk] at h
      exact List.mem_cons_of_mem _ (ih h)

theorem lookup_of_mem {entries : List (String × α)} (h : (entries.map Prod.fst).Nodup) (hmem : (key, value) ∈ entries) :
    entries.lookup key = some value := by
  induction entries with
  | nil => cases hmem
  | cons entry rest ih =>
    obtain ⟨k, v⟩ := entry
    obtain ⟨hnot, hrest⟩ := List.nodup_cons.mp h
    rw [lookup_pair]
    obtain heq | htail := List.mem_cons.mp hmem
    · obtain ⟨rfl, rfl⟩ := Prod.mk.inj heq
      exact if_pos rfl
    · have hne : key ≠ k := by
        rintro rfl
        exact hnot (List.mem_map.mpr ⟨_, htail, rfl⟩)
      rw [if_neg hne]
      exact ih hrest htail

theorem mem_of_get? (h : d.get? key = some value) : (key, value) ∈ d.entries := mem_of_lookup h

theorem Unique.get? (h : d.Unique) (hmem : (key, value) ∈ d.entries) : d.get? key = some value := lookup_of_mem h hmem

theorem total_set_new (h : d.get? key = none) : (d.set key value).total w = d.total w + w key value := by
  unfold total Dict.set
  rw [setEntries_absent h, List.map_append, List.sum_append]
  rfl

/-- The weights of a list of entries together. -/
def weigh (w : String → α → Nat) (entries : List (String × α)) : Nat := (entries.map (fun e => w e.1 e.2)).sum

theorem weigh_cons (w : String → α → Nat) (k : String) (v : α) (rest : List (String × α)) :
    weigh w ((k, v) :: rest) = w k v + weigh w rest := List.sum_cons

theorem weigh_set {entries : List (String × α)} (h : entries.lookup key = some old) :
    weigh w (setEntries key value entries) + w key old = weigh w entries + w key value := by
  induction entries with
  | nil => cases h
  | cons entry rest ih =>
    obtain ⟨k, v⟩ := entry
    rw [lookup_pair] at h
    by_cases hk : key = k
    · subst hk
      rw [if_pos rfl] at h
      obtain rfl := Option.some.inj h
      rw [setEntries, if_pos rfl, weigh_cons, weigh_cons]
      omega
    · rw [if_neg hk] at h
      have := ih h
      rw [setEntries, if_neg (Ne.symm hk), weigh_cons, weigh_cons]
      omega

theorem total_set_old (h : d.get? key = some old) : (d.set key value).total w + w key old = d.total w + w key value :=
  weigh_set h

theorem filter_absent {entries : List (String × α)} (h : key ∉ entries.map Prod.fst) :
    entries.filter (fun e => e.1 != key) = entries := by
  apply List.filter_eq_self.mpr
  intro entry hentry
  apply bne_iff_ne.mpr
  rintro rfl
  exact h (List.mem_map_of_mem hentry)

theorem weigh_pop {entries : List (String × α)} (hd : (entries.map Prod.fst).Nodup) (h : entries.lookup key = some value) :
    weigh w (entries.filter (fun e => e.1 != key)) + w key value = weigh w entries := by
  induction entries with
  | nil => cases h
  | cons entry rest ih =>
    obtain ⟨k, v⟩ := entry
    obtain ⟨hnot, hrest⟩ := List.nodup_cons.mp hd
    rw [lookup_pair] at h
    by_cases hk : key = k
    · subst hk
      rw [if_pos rfl] at h
      obtain rfl := Option.some.inj h
      rw [List.filter_cons_of_neg (by simp), filter_absent hnot, weigh_cons]
      omega
    · rw [if_neg hk] at h
      have := ih hrest h
      rw [List.filter_cons_of_pos (by simpa using Ne.symm hk), weigh_cons, weigh_cons]
      omega

theorem total_pop (hd : d.Unique) (h : d.get? key = some value) : (d.pop key).total w + w key value = d.total w :=
  weigh_pop hd h

theorem weigh_filter_le (p : String × α → Bool) (entries : List (String × α)) :
    weigh w (entries.filter p) ≤ weigh w entries := by
  induction entries with
  | nil => exact Nat.le_refl _
  | cons entry rest ih =>
    obtain ⟨k, v⟩ := entry
    rw [weigh_cons]
    cases hp : p (k, v) with
    | true =>
      rw [List.filter_cons_of_pos hp, weigh_cons]
      omega
    | false =>
      rw [List.filter_cons_of_neg (Bool.eq_false_iff.mp hp)]
      omega

theorem total_keep_le (d : Dict α) (p : String → Bool) : (d.keep p).total w ≤ d.total w :=
  weigh_filter_le _ _

theorem total_congr {w' : String → α → Nat} (h : ∀ e ∈ d.entries, w e.1 e.2 = w' e.1 e.2) : d.total w = d.total w' := by
  unfold total
  rw [List.map_congr_left h]

theorem total_one (d : Dict α) : d.total (fun _ _ => 1) = d.entries.length := by
  unfold total
  simp

end ModularPipelines.Library.Dict
