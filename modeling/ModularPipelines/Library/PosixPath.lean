import Mathlib.Data.List.Infix

namespace ModularPipelines.Library

/-- The components of a path, from its root. -/
abbrev Path := List (List Char)

namespace Path

def isName (c : List Char) : Bool := !c.isEmpty && c != ['.'] && !c.contains '/'

/-- Empty components and single dots mean nothing. -/
def parse (text : List Char) : Path := (text.splitOn '/').filter fun c => !c.isEmpty && c != ['.']

def anchored (text : List Char) : Bool := text.head? == some '/'

/-- An anchored text replaces the path that it is joined to. -/
def join (p : Path) (text : List Char) : Path := if anchored text then parse text else p ++ parse text

def asPosix (p : Path) : List Char := if p.isEmpty then ['.'] else ['/'].intercalate p

/-- One path is the other, or a folder that contains it. -/
def Related (p q : Path) : Prop := p <+: q ∨ q <+: p

instance (p q : Path) : Decidable (Related p q) := inferInstanceAs (Decidable (p <+: q ∨ q <+: p))

theorem isName_iff {c : List Char} : isName c = true ↔ c ≠ [] ∧ c ≠ ['.'] ∧ '/' ∉ c := by
  simp [isName, and_assoc]

theorem parse_asPosix {p : Path} (h : ∀ c ∈ p, isName c = true) : parse (asPosix p) = p := by
  cases p with
  | nil => decide
  | cons c p =>
    have hsep : ∀ l ∈ c :: p, '/' ∉ l := fun l hl => (isName_iff.mp (h l hl)).2.2
    rw [asPosix, if_neg (by simp), parse, List.splitOn_intercalate _ hsep (List.cons_ne_nil _ _)]
    apply List.filter_eq_self.mpr
    intro l hl
    obtain ⟨hne, hdot, -⟩ := isName_iff.mp (h l hl)
    simp [hne, hdot]

theorem anchored_asPosix {p : Path} (h : ∀ c ∈ p, isName c = true) : anchored (asPosix p) = false := by
  cases p with
  | nil => decide
  | cons c p =>
    obtain ⟨hne, -, hsep⟩ := isName_iff.mp (h c (List.mem_cons_self ..))
    obtain ⟨a, cs, rfl⟩ := List.exists_cons_of_ne_nil hne
    have ha : a ≠ '/' := fun e => hsep (e ▸ List.mem_cons_self ..)
    cases p with
    | nil => simpa [asPosix, anchored] using ha
    | cons d p => simpa [asPosix, anchored] using ha

/-- The text of a relative path leads back to it. -/
theorem join_asPosix (p : Path) {q : Path} (h : ∀ c ∈ q, isName c = true) : join p (asPosix q) = p ++ q := by
  rw [join, anchored_asPosix h, if_neg Bool.false_ne_true, parse_asPosix h]

end Path

end ModularPipelines.Library
