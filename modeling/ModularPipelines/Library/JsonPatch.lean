import ModularPipelines.Library.Dict
import ModularPipelines.Library.JsonText
import Mathlib.Algebra.GroupWithZero.Nat
import Mathlib.Data.List.Dedup
import Mathlib.Data.Option.Basic
import Mathlib.Data.String.Basic

namespace ModularPipelines.Library.Json

mutual
/-- No object repeats a key, at any depth. -/
def Distinct : Json → Prop
  | .arr xs => DistinctElems xs
  | .obj ms => (ms.map Prod.fst).Nodup ∧ DistinctMembers ms
  | _ => True
def DistinctElems : List Json → Prop
  | [] => True
  | x :: xs => Distinct x ∧ DistinctElems xs
def DistinctMembers : List (String × Json) → Prop
  | [] => True
  | (_, x) :: ms => Distinct x ∧ DistinctMembers ms
end

theorem DistinctMembers.lookup {key : String} {x : Json} {ms : List (String × Json)} (h : DistinctMembers ms)
    (hx : ms.lookup key = some x) : x.Distinct := by
  induction ms with
  | nil => cases hx
  | cons m ms ih =>
    obtain ⟨k, y⟩ := m
    rw [Dict.lookup_pair] at hx
    by_cases hk : key = k
    · rw [if_pos hk] at hx
      cases hx
      exact h.1
    · rw [if_neg hk] at hx
      exact ih h.2 hx

/-- Equality of documents, whatever the order of their members. -/
def Same (a b : Json) : Prop := a.sortKeys = b.sortKeys

theorem same_iff_dumps {a b : Json} : a.Same b ↔ a.sortKeys.dumps = b.sortKeys.dumps :=
  dumps_injective.eq_iff.symm

instance (a b : Json) : Decidable (a.Same b) := decidable_of_iff _ same_iff_dumps.symm

theorem Same.refl (a : Json) : a.Same a := rfl

theorem sortMembers_map (ms : List (String × Json)) : sortMembers ms = ms.map fun m => (m.1, m.2.sortKeys) := by
  induction ms with
  | nil => rfl
  | cons m ms ih =>
    obtain ⟨k, x⟩ := m
    rw [sortMembers, ih, List.map_cons]

theorem keys_sortMembers (ms : List (String × Json)) : (sortMembers ms).map Prod.fst = ms.map Prod.fst := by
  rw [sortMembers_map, List.map_map]
  rfl

theorem mem_iff_lookup {α : Type} {ms : List (String × α)} (h : (ms.map Prod.fst).Nodup) (key : String) (x : α) :
    (key, x) ∈ ms ↔ ms.lookup key = some x := by
  induction ms with
  | nil => simp
  | cons m ms ih =>
    obtain ⟨k, y⟩ := m
    obtain ⟨hk, hms⟩ := List.nodup_cons.mp h
    rw [Dict.lookup_pair, List.mem_cons, ih hms]
    by_cases he : key = k
    · subst he
      have hnone : ms.lookup key ≠ some x := by
        intro hx
        exact hk (Dict.lookup_isSome.mp (by rw [hx]; rfl))
      simp [hnone, eq_comm]
    · simp [he]

theorem lookup_sortMembers (ms : List (String × Json)) (key : String) :
    (sortMembers ms).lookup key = (ms.lookup key).map sortKeys := by
  rw [sortMembers_map]
  exact Dict.lookup_map sortKeys key ms

theorem pairs_nodup {α : Type} {ms : List (String × α)} (h : (ms.map Prod.fst).Nodup) : ms.Nodup :=
  List.Nodup.of_map Prod.fst h

/-- Objects whose members agree under every key are the same. -/
theorem same_obj {ms ns : List (String × Json)} (hms : (ms.map Prod.fst).Nodup) (hns : (ns.map Prod.fst).Nodup)
    (h : ∀ key, (ms.lookup key).map sortKeys = (ns.lookup key).map sortKeys) : Same (.obj ms) (.obj ns) := by
  have hm := hms
  have hn := hns
  rw [← keys_sortMembers] at hm hn
  have hperm : (sortMembers ms).Perm (sortMembers ns) := by
    apply (List.perm_ext_iff_of_nodup (pairs_nodup hm) (pairs_nodup hn)).mpr
    rintro ⟨key, x⟩
    rw [mem_iff_lookup hm, mem_iff_lookup hn, lookup_sortMembers, lookup_sortMembers, h key]
  have hsorted : ∀ xs : List (String × Json), (xs.mergeSort (fun a b => a.1 ≤ b.1)).Pairwise (fun a b => a.1 ≤ b.1) := by
    intro xs
    refine (List.pairwise_mergeSort (fun a b c hab hbc => ?_) (fun a b => ?_) xs).imp fun hab => of_decide_eq_true hab
    · exact decide_eq_true ((of_decide_eq_true hab).trans (of_decide_eq_true hbc))
    · simpa using le_total a.1 b.1
  have hsort := (List.mergeSort_perm (sortMembers ms) (fun a b => a.1 ≤ b.1)).trans
    (hperm.trans (List.mergeSort_perm (sortMembers ns) (fun a b => a.1 ≤ b.1)).symm)
  unfold Same
  rw [sortKeys, sortKeys]
  congr 1
  apply hsort.eq_of_pairwise _ (hsorted _) (hsorted _)
  rintro ⟨k, x⟩ ⟨l, y⟩ hx hy hkl hlk
  have hx' := (mem_iff_lookup hm k x).mp (List.mem_mergeSort.mp hx)
  have hy' := (mem_iff_lookup hn l y).mp (List.mem_mergeSort.mp hy)
  have he : k = l := le_antisymm hkl hlk
  subst he
  rw [lookup_sortMembers] at hx' hy'
  rw [h k, hy'] at hx'
  rw [Option.some.inj hx']

mutual
def weight : Json → Nat
  | .obj ms => weightMembers ms + 1
  | _ => 1
def weightMembers : List (String × Json) → Nat
  | [] => 0
  | (_, x) :: ms => weight x + 2 + weightMembers ms
end

/-- Distinct keys pick out no more than the members, and an absent one counts as a scalar. -/
theorem weight_lookups (ms : List (String × Json)) {ks : List String} (hks : ks.Nodup) :
    (ks.map fun k => weight ((ms.lookup k).getD .null)).sum + 2 * ms.length ≤ weightMembers ms + ks.length := by
  induction ms generalizing ks with
  | nil => simp [weight, weightMembers]
  | cons m ms ih =>
    obtain ⟨k, x⟩ := m
    have hother : ∀ js : List String, k ∉ js →
        (js.map fun j => weight ((((k, x) :: ms).lookup j).getD .null)) = js.map fun j => weight ((ms.lookup j).getD .null) := by
      intro js hk
      apply List.map_congr_left
      intro j hj
      rw [Dict.lookup_pair, if_neg (fun e : j = k => hk (e ▸ hj))]
    rw [weightMembers, List.length_cons]
    by_cases hk : k ∈ ks
    · have hperm := (List.perm_cons_erase hk).map fun j => weight ((((k, x) :: ms).lookup j).getD .null)
      have herase := ih (hks.erase k)
      have hlen := List.length_erase_of_mem hk
      have hpos := List.length_pos_of_mem hk
      rw [hperm.sum_nat, List.map_cons, List.sum_cons, hother _ (hks.not_mem_erase), Dict.lookup_pair, if_pos rfl,
        Option.getD_some]
      omega
    · rw [hother ks hk]
      have := ih hks
      omega

/-- The value under a path of keys, when there is one. -/
def valueAt : List String → Option Json → Option Json
  | [], doc => doc
  | key :: path, some (.obj ms) => valueAt path (ms.lookup key)
  | _ :: _, _ => none

def putMember (key : String) (v : Option Json) (ms : List (String × Json)) : List (String × Json) :=
  match v with
  | some v => setMember key v ms
  | none => ms.filter fun m => m.1 != key

/-- A new value under a path, or none where the path is removed. -/
structure Edit where
  path : List String
  value : Option Json

def Edit.inside (key : String) (e : Edit) : Edit := { e with path := key :: e.path }

def patchAt (v : Option Json) : List String → Option Json → Option Json
  | [], _ => v
  | key :: path, some (.obj ms) => some (.obj (putMember key (patchAt v path (ms.lookup key)) ms))
  | _ :: _, doc => doc

def applyEdits (edits : List Edit) (doc : Option Json) : Option Json :=
  edits.foldl (fun d e => patchAt e.value e.path d) doc

theorem lookup_putMember (key other : String) (v : Option Json) (ms : List (String × Json)) :
    (putMember key v ms).lookup other = if other = key then v else ms.lookup other := by
  cases v with
  | none =>
    have h := Dict.lookup_filter (fun k => k != key) other ms
    by_cases ho : other = key <;> simpa [putMember, ho] using h
  | some v =>
    by_cases ho : other = key
    · rw [if_pos ho, ho]
      exact lookup_setMember_self key v ms
    · rw [if_neg ho]
      exact lookup_setMember_ne ho v ms

theorem nodup_setMember {key : String} (v : Json) {ms : List (String × Json)} (h : (ms.map Prod.fst).Nodup) :
    ((setMember key v ms).map Prod.fst).Nodup := by
  by_cases hk : key ∈ ms.map Prod.fst
  · rwa [keys_setMember v hk]
  · have happend : setMember key v ms = ms ++ [(key, v)] := by
      induction ms with
      | nil => rfl
      | cons m ms ih =>
        obtain ⟨k, w⟩ := m
        rw [List.map_cons, List.mem_cons, not_or] at hk
        rw [setMember, if_neg (Ne.symm hk.1), ih (List.nodup_cons.mp h).2 hk.2, List.cons_append]
    rw [happend, List.map_append]
    exact h.append (List.nodup_singleton key) (by simpa using hk)

theorem nodup_putMember {key : String} (v : Option Json) {ms : List (String × Json)} (h : (ms.map Prod.fst).Nodup) :
    ((putMember key v ms).map Prod.fst).Nodup := by
  cases v with
  | none => exact h.sublist (List.filter_sublist.map Prod.fst)
  | some v => exact nodup_setMember v h

/-- Edits inside one member leave the other members alone. -/
theorem applyEdits_inside (key : String) (edits : List Edit) {ms : List (String × Json)}
    (h : (ms.map Prod.fst).Nodup) :
    ∃ ms', applyEdits (edits.map (Edit.inside key)) (some (.obj ms)) = some (.obj ms') ∧ (ms'.map Prod.fst).Nodup ∧
      ∀ other, ms'.lookup other = if other = key then applyEdits edits (ms.lookup key) else ms.lookup other := by
  induction edits generalizing ms with
  | nil =>
    refine ⟨ms, rfl, h, fun other => ?_⟩
    by_cases ho : other = key <;> simp [applyEdits, ho]
  | cons e edits ih =>
    obtain ⟨ms', happly, hnodup, hlookup⟩ := ih (nodup_putMember (patchAt e.value e.path (ms.lookup key)) h)
    refine ⟨ms', happly, hnodup, fun other => ?_⟩
    rw [hlookup other, lookup_putMember, lookup_putMember, if_pos rfl]
    by_cases ho : other = key
    · rw [if_pos ho, if_pos ho]
      rfl
    · rw [if_neg ho, if_neg ho, if_neg ho]

/-- Edits of several members change each of them by its own edits. -/
theorem applyEdits_members (edits : String → List Edit) {ks : List String} (hks : ks.Nodup)
    {ms : List (String × Json)} (h : (ms.map Prod.fst).Nodup) :
    ∃ ms', applyEdits (ks.flatMap fun k => (edits k).map (Edit.inside k)) (some (.obj ms)) = some (.obj ms') ∧
      (ms'.map Prod.fst).Nodup ∧
      ∀ other, ms'.lookup other =
        if other ∈ ks then applyEdits (edits other) (ms.lookup other) else ms.lookup other := by
  induction ks generalizing ms with
  | nil => exact ⟨ms, rfl, h, fun other => by rw [if_neg List.not_mem_nil]⟩
  | cons k ks ih =>
    obtain ⟨hk, hrest⟩ := List.nodup_cons.mp hks
    obtain ⟨ms₁, happly₁, hnodup₁, hlookup₁⟩ := applyEdits_inside k (edits k) h
    obtain ⟨ms', happly, hnodup, hlookup⟩ := ih hrest hnodup₁
    refine ⟨ms', ?_, hnodup, fun other => ?_⟩
    · unfold applyEdits at happly happly₁ ⊢
      rw [List.flatMap_cons, List.foldl_append, happly₁, happly]
    · rw [hlookup other, hlookup₁ other]
      by_cases ho : other = k
      · subst ho
        simp [hk]
      · simp [ho]

end ModularPipelines.Library.Json
