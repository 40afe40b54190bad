import Mathlib.Data.List.Basic

namespace ModularPipelines.Library

/-- A dictionary with text keys, in insertion order. -/
structure Dict (α : Type) where
  entries : List (String × α)
  deriving DecidableEq

namespace Dict

variable {α : Type}

def empty : Dict α := ⟨[]⟩

def get? (d : Dict α) (key : String) : Option α := d.entries.lookup key

def contains (d : Dict α) (key : String) : Bool := (d.get? key).isSome

def keys (d : Dict α) : List String := d.entries.map Prod.fst

def values (d : Dict α) : List α := d.entries.map Prod.snd

def setEntries (key : String) (value : α) : List (String × α) → List (String × α)
  | [] => [(key, value)]
  | (k, v) :: rest => if k = key then (key, value) :: rest else (k, v) :: setEntries key value rest

/-- Assignment keeps the place of a key that is already there. -/
def set (d : Dict α) (key : String) (value : α) : Dict α := ⟨setEntries key value d.entries⟩

/-- The entries whose key satisfies a condition. -/
def keep (d : Dict α) (p : String → Bool) : Dict α := ⟨d.entries.filter (fun e => p e.1)⟩

def pop (d : Dict α) (key : String) : Dict α := d.keep (fun k => k != key)

def mapValues (f : α → α) (d : Dict α) : Dict α := ⟨d.entries.map (fun e => (e.1, f e.2))⟩

@[simp] theorem get?_empty (key : String) : (empty : Dict α).get? key = none := rfl

theorem lookup_pair (key k : String) (v : α) (rest : List (String × α)) :
    ((k, v) :: rest).lookup key = if key = k then some v else rest.lookup key := by
  by_cases h : key = k
  · simp [h]
  · rw [List.lookup_cons, beq_false_of_ne h, if_neg h]

theorem lookup_setEntries (key other : String) (value : α) (entries : List (String × α)) :
    (setEntries key value entries).lookup other =
      if other = key then some value else entries.lookup other := by
  induction entries with
  | nil => rw [setEntries, lookup_pair]
  | cons entry rest ih =>
    obtain ⟨k, v⟩ := entry
    rw [setEntries, lookup_pair]
    by_cases hk : k = key
    · rw [if_pos hk, lookup_pair]
      by_cases h : other = key <;> simp [h, hk]
    · rw [if_neg hk, lookup_pair, ih]
      by_cases h : other = key
      · have hne : ¬ key = k := fun e => hk e.symm
        simp [h, hne]
      · simp [h]

@[simp] theorem get?_set (d : Dict α) (key other : String) (value : α) :
    (d.set key value).get? other = if other = key then some value else d.get? other :=
  lookup_setEntries key other value d.entries

theorem lookup_filter (p : String → Bool) (key : String) (entries : List (String × α)) :
    (entries.filter (fun e => p e.1)).lookup key = if p key then entries.lookup key else none := by
  induction entries with
  | nil => simp
  | cons entry rest ih =>
    obtain ⟨k, v⟩ := entry
    rw [lookup_pair, List.filter_cons]
    by_cases hk : key = k
    · subst hk
      cases hp : p key <;> simp [hp, ih]
    · cases p k <;> simp [lookup_pair, hk, ih]

@[simp] theorem get?_keep (d : Dict α) (p : String → Bool) (key : String) :
    (d.keep p).get? key = if p key then d.get? key else none :=
  lookup_filter p key d.entries

theorem keep_keep (d : Dict α) (p q : String → Bool) : (d.keep p).keep q = d.keep (fun k => p k && q k) := by
  unfold keep
  rw [List.filter_filter]
  congr 2
  funext e
  exact Bool.and_comm _ _

theorem keep_true (d : Dict α) : d.keep (fun _ => true) = d := by
  unfold keep
  rw [List.filter_true]

@[simp] theorem get?_pop (d : Dict α) (key other : String) :
    (d.pop key).get? other = if other = key then none else d.get? other := by
  by_cases h : other = key <;> simp [pop, h]

theorem lookup_map (f : α → α) (key : String) (entries : List (String × α)) :
    (entries.map (fun e => (e.1, f e.2))).lookup key = (entries.lookup key).map f := by
  induction entries with
  | nil => rfl
  | cons entry rest ih =>
    obtain ⟨k, v⟩ := entry
    by_cases h : key = k <;> simp [lookup_pair, h, ih]

@[simp] theorem get?_mapValues (f : α → α) (d : Dict α) (key : String) :
    (d.mapValues f).get? key = (d.get? key).map f :=
  lookup_map f key d.entries

/-- Every key of one dictionary is a key of another. -/
def Within {β : Type} (d : Dict α) (e : Dict β) : Prop :=
  ∀ key, (d.get? key).isSome → (e.get? key).isSome

theorem Within.empty {β : Type} (e : Dict β) : (Dict.empty : Dict α).Within e := by
  intro key h
  cases h

theorem Within.keep {β : Type} {d : Dict α} {e : Dict β} (h : d.Within e) (p : String → Bool) :
    (d.keep p).Within (e.keep p) := by
  intro key hkey
  cases hp : p key with
  | true => simpa [hp] using h key (by simpa [hp] using hkey)
  | false => simp [hp] at hkey

theorem Within.pop {β : Type} {d : Dict α} {e : Dict β} (h : d.Within e) (key : String) :
    (d.pop key).Within (e.pop key) :=
  h.keep _

theorem Within.set {β : Type} {d : Dict α} {e : Dict β} (h : d.Within e) (key : String) (v : α) (w : β) :
    (d.set key v).Within (e.set key w) := by
  intro other hother
  by_cases hk : other = key
  · simp [hk]
  · simpa [hk] using h other (by simpa [hk] using hother)

theorem lookup_isSome {key : String} {entries : List (String × α)} :
    (entries.lookup key).isSome ↔ key ∈ entries.map Prod.fst := by
  induction entries with
  | nil => simp
  | cons entry rest ih =>
    obtain ⟨k, v⟩ := entry
    by_cases h : key = k <;> simp [lookup_pair, h, ih]

theorem mem_values_of_lookup {key : String} {value : α} {entries : List (String × α)}
    (h : entries.lookup key = some value) : value ∈ entries.map Prod.snd := by
  induction entries with
  | nil => cases h
  | cons entry rest ih =>
    obtain ⟨k, v⟩ := entry
    rw [lookup_pair] at h
    by_cases hk : key = k
    · rw [if_pos hk] at h
      simp [Option.some.inj h]
    · rw [if_neg hk] at h
      exact List.mem_cons_of_mem _ (ih h)

theorem mem_values_of_get? {d : Dict α} {key : String} {value : α} (h : d.get? key = some value) : value ∈ d.values :=
  mem_values_of_lookup h

theorem mem_keys {d : Dict α} {key : String} : key ∈ d.keys ↔ (d.get? key).isSome :=
  lookup_isSome.symm

end Dict

end ModularPipelines.Library
