import Mathlib.Data.List.Sort

namespace ModularPipelines.Library

variable {α κ : Type} [LinearOrder κ]

/-- Rows in the strict order of their key. -/
def Ordered (key : α → κ) (rows : List α) : Prop := rows.Pairwise (fun a b => key a < key b)

def insertRow (key : α → κ) (row : α) (rows : List α) : List α :=
  rows.orderedInsert (fun a b => key a ≤ key b) row

@[simp] theorem mem_insertRow {key : α → κ} {row a : α} {rows : List α} :
    a ∈ insertRow key row rows ↔ a = row ∨ a ∈ rows :=
  List.mem_orderedInsert _

theorem Ordered.insertRow {key : α → κ} {row : α} {rows : List α} (h : Ordered key rows)
    (hne : ∀ a ∈ rows, key a ≠ key row) : Ordered key (insertRow key row rows) := by
  induction rows with
  | nil => exact List.pairwise_singleton _ _
  | cons b rows ih =>
    obtain ⟨hb, hrows⟩ := List.pairwise_cons.mp h
    unfold Library.insertRow
    rw [List.orderedInsert_cons]
    split
    · next hle =>
      have hlt := lt_of_le_of_ne hle (hne b List.mem_cons_self).symm
      apply List.pairwise_cons.mpr
      refine ⟨?_, h⟩
      intro a ha
      rcases List.mem_cons.mp ha with rfl | ha
      · exact hlt
      · exact hlt.trans (hb a ha)
    · next hle =>
      apply List.pairwise_cons.mpr
      refine ⟨?_, ih hrows (fun a ha => hne a (List.mem_cons_of_mem _ ha))⟩
      intro a ha
      rcases mem_insertRow.mp ha with rfl | ha
      · exact not_le.mp hle
      · exact hb a ha

/-- A row beyond all others goes to the end. -/
theorem insertRow_last {key : α → κ} {row : α} {rows : List α} (h : ∀ a ∈ rows, key a < key row) :
    Library.insertRow key row rows = rows ++ [row] := by
  induction rows with
  | nil => rfl
  | cons b rows ih =>
    have hb : ¬ key row ≤ key b := not_le.mpr (h b List.mem_cons_self)
    rw [Library.insertRow, List.orderedInsert_cons, if_neg hb, List.cons_append]
    exact congrArg (List.cons b) (ih (fun a ha => h a (List.mem_cons_of_mem _ ha)))

theorem Ordered.filter {key : α → κ} {rows : List α} (h : Ordered key rows) (p : α → Bool) :
    Ordered key (rows.filter p) :=
  List.Pairwise.filter p h

theorem Ordered.nodup {key : α → κ} {rows : List α} (h : Ordered key rows) : rows.Nodup :=
  List.Pairwise.imp (fun hlt he => absurd (congrArg key he) hlt.ne) h

/-- Two tables with the same rows in key order are the same table. -/
theorem Ordered.ext {key : α → κ} {rows rows' : List α} (h : Ordered key rows) (h' : Ordered key rows')
    (hmem : ∀ a, a ∈ rows ↔ a ∈ rows') : rows = rows' := by
  have hperm := (List.perm_ext_iff_of_nodup h.nodup h'.nodup).mpr hmem
  apply hperm.eq_of_pairwise (fun a b _ _ hab hba => absurd (hab.trans hba) (lt_irrefl _)) h h'

/-- A row's key tells it from every other row. -/
theorem Ordered.key_injective {key : α → κ} {rows : List α} (h : Ordered key rows) {a b : α}
    (ha : a ∈ rows) (hb : b ∈ rows) (he : key a = key b) : a = b := by
  by_contra hne
  have hall := List.Pairwise.forall_of_forall_of_flip (R := fun a b => a ≠ b → key a ≠ key b)
    (fun x _ hx => absurd rfl hx) (h.imp fun hlt _ => hlt.ne) (h.imp fun hlt _ => hlt.ne')
  exact hall ha hb hne he

variable {before : α → α → Prop} {l : List α} {a b : α} {n : Nat}

/-- What a ranked list leaves out ranks behind everything it keeps. -/
theorem left_out (h : l.Pairwise before) (ha : a ∈ l) (hout : a ∉ l.take n) :
    (l.take n).length = n ∧ ∀ b ∈ l.take n, before b a := by
  have hdrop : a ∈ l.drop n := by
    rw [← List.take_append_drop n l] at ha
    exact (List.mem_append.mp ha).resolve_left hout
  have hlong : n < l.length := by
    by_contra hshort
    rw [List.drop_eq_nil_of_le (Nat.not_lt.mp hshort)] at hdrop
    exact List.not_mem_nil hdrop
  refine ⟨by rw [List.length_take]; omega, ?_⟩
  intro b hb
  rw [← List.take_append_drop n l] at h
  exact (List.pairwise_append.mp h).2.2 b hb a hdrop

/-- The first entry of a ranked list that satisfies a condition is the one no other such entry ranks before. -/
theorem find_first {p : α → Bool} (h : l.Pairwise before) (ha : a ∈ l) (hp : p a = true)
    (hfirst : ∀ b ∈ l, p b = true → before b a → b = a) : l.find? p = some a := by
  induction l with
  | nil => cases ha
  | cons c rest ih =>
    obtain ⟨hhead, htail⟩ := List.pairwise_cons.mp h
    cases hc : p c with
    | true =>
      rw [List.find?_cons_of_pos hc]
      obtain rfl | hrest := List.mem_cons.mp ha
      · rfl
      · rw [hfirst c List.mem_cons_self hc (hhead a hrest)]
    | false =>
      rw [List.find?_cons_of_neg (Bool.eq_false_iff.mp hc)]
      obtain rfl | hrest := List.mem_cons.mp ha
      · rw [hp] at hc
        cases hc
      · exact ih htail hrest (fun b hb => hfirst b (List.mem_cons_of_mem _ hb))

end ModularPipelines.Library
