import Mathlib.Data.List.Basic

namespace ModularPipelines.Library

def numericChar (c : Char) : Bool := c.isDigit || c == '-' || c == '+' || c == '.' || c == 'e' || c == 'E'

/-- Fraction and exponent of a decimal float; at least one of them is present. -/
def floatTail (cs : List Char) : Bool :=
  match cs with
  | '.' :: r =>
    !(r.takeWhile Char.isDigit).isEmpty && exponent (r.dropWhile Char.isDigit)
  | r => !r.isEmpty && exponent r
where
  exponent : List Char → Bool
    | [] => true
    | e :: '-' :: r | e :: '+' :: r => (e == 'e' || e == 'E') && !r.isEmpty && r.all Char.isDigit
    | e :: r => (e == 'e' || e == 'E') && !r.isEmpty && r.all Char.isDigit

def isFloatChars (cs : List Char) : Bool :=
  let body := match cs with | '-' :: r => r | r => r
  cs.all numericChar && cs.any (fun c => c == '.' || c == 'e' || c == 'E') &&
    !(body.takeWhile Char.isDigit).isEmpty && floatTail (body.dropWhile Char.isDigit)

/-- A finite float is kept as its shortest decimal text, which reads back unchanged. -/
structure FloatText where
  chars : List Char
  ok : isFloatChars chars = true
  deriving DecidableEq

/-- A JSON document. An object keeps the order of its members. -/
inductive Json where
  | null
  | bool (b : Bool)
  | int (n : Int)
  | float (t : FloatText)
  | str (s : String)
  | arr (xs : List Json)
  | obj (ms : List (String × Json))

namespace Json

def get? (key : String) : Json → Option Json
  | .obj ms => ms.lookup key
  | _ => none

/-- Assigning a key keeps its place; a new key is appended. -/
def setMember (key : String) (v : Json) : List (String × Json) → List (String × Json)
  | [] => [(key, v)]
  | (k, w) :: ms => if k = key then (k, v) :: ms else (k, w) :: setMember key v ms

def set (j : Json) (key : String) (v : Json) : Json :=
  match j with
  | .obj ms => .obj (setMember key v ms)
  | j => j

def keys : Json → List String
  | .obj ms => ms.map Prod.fst
  | _ => []

def isObj : Json → Bool
  | .obj _ => true
  | _ => false

@[simp] theorem lookup_setMember_self (key : String) (v : Json) (ms : List (String × Json)) :
    (setMember key v ms).lookup key = some v := by
  induction ms with
  | nil => simp [setMember]
  | cons m ms ih =>
    obtain ⟨k, w⟩ := m
    by_cases h : k = key
    · simp [setMember, h]
    · have h' : (key == k) = false := beq_eq_false_iff_ne.mpr (fun e => h e.symm)
      simp [setMember, h, List.lookup_cons, h', ih]

theorem lookup_setMember_ne {key other : String} (hne : other ≠ key) (v : Json)
    (ms : List (String × Json)) : (setMember key v ms).lookup other = ms.lookup other := by
  induction ms with
  | nil => simp [setMember, List.lookup_cons, List.lookup_nil, beq_eq_false_iff_ne.mpr hne]
  | cons m ms ih =>
    obtain ⟨k, w⟩ := m
    by_cases h : k = key
    · subst h
      simp [setMember, List.lookup_cons, beq_eq_false_iff_ne.mpr hne]
    · cases ho : other == k <;> simp [setMember, h, List.lookup_cons, ho, ih]

/-- Emptying a member and writing its old value back is the identity. -/
theorem setMember_restore {key : String} {v : Json} {ms : List (String × Json)}
    (h : ms.lookup key = some v) (w : Json) : setMember key v (setMember key w ms) = ms := by
  induction ms with
  | nil => simp [List.lookup_nil] at h
  | cons m ms ih =>
    obtain ⟨k, u⟩ := m
    by_cases hk : k = key
    · subst hk
      simp only [List.lookup_cons, beq_self_eq_true, Option.some.injEq] at h
      simp [setMember, h]
    · have hk' : (key == k) = false := beq_eq_false_iff_ne.mpr (fun e => hk e.symm)
      simp only [List.lookup_cons, hk'] at h
      simp [setMember, hk, ih h]

theorem set_restore {key : String} {v j : Json} (h : j.get? key = some v) (w : Json) :
    (j.set key w).set key v = j := by
  cases j with
  | obj ms => simpa [set] using setMember_restore h w
  | _ => simp [get?] at h

theorem get_set_self {key : String} {v j : Json} (hj : j.isObj = true) :
    (j.set key v).get? key = some v := by
  cases j with
  | obj ms => exact lookup_setMember_self key v ms
  | _ => simp [isObj] at hj

theorem get_set_ne {key other : String} (hne : other ≠ key) (v j : Json) :
    (j.set key v).get? other = j.get? other := by
  cases j with
  | obj ms => exact lookup_setMember_ne hne v ms
  | _ => rfl

@[simp] theorem isObj_set (key : String) (v j : Json) : (j.set key v).isObj = j.isObj := by
  cases j <;> rfl

theorem mem_keys_of_get {key : String} {v j : Json} (h : j.get? key = some v) : key ∈ j.keys := by
  cases j with
  | obj ms =>
    simp only [get?] at h
    induction ms with
    | nil => simp [List.lookup_nil] at h
    | cons m ms ih =>
      obtain ⟨k, u⟩ := m
      cases hk : key == k with
      | true => simp [keys, beq_iff_eq.mp hk]
      | false =>
        simp only [List.lookup_cons, hk] at h
        exact List.mem_cons_of_mem _ (ih h)
  | _ => simp [get?] at h

theorem keys_setMember {key : String} {ms : List (String × Json)} (v : Json)
    (h : key ∈ ms.map Prod.fst) : (setMember key v ms).map Prod.fst = ms.map Prod.fst := by
  induction ms with
  | nil => simp at h
  | cons m ms ih =>
    obtain ⟨k, u⟩ := m
    by_cases hk : k = key
    · simp [setMember, hk]
    · simp only [List.map_cons, List.mem_cons] at h
      simp [setMember, hk, ih (h.resolve_left (fun e => hk e.symm))]

/-- Overwriting a present member adds no key. -/
theorem keys_set_of_get {key : String} {w j : Json} (h : j.get? key = some w) (v : Json) :
    (j.set key v).keys = j.keys := by
  cases j with
  | obj ms => exact keys_setMember v (by simpa [keys] using mem_keys_of_get h)
  | _ => simp [get?] at h

theorem isObj_of_get {key : String} {v j : Json} (h : j.get? key = some v) : j.isObj = true := by
  cases j with
  | obj ms => rfl
  | _ => simp [get?] at h

mutual
/-- Nesting depth, a scalar or an empty container counting as zero. -/
def depth : Json → Nat
  | .arr xs => depthElems xs
  | .obj ms => depthMembers ms
  | _ => 0
def depthElems : List Json → Nat
  | [] => 0
  | x :: xs => max (depth x + 1) (depthElems xs)
def depthMembers : List (String × Json) → Nat
  | [] => 0
  | (_, x) :: ms => max (depth x + 1) (depthMembers ms)
end

theorem depth_lt_of_lookup {key : String} {v : Json} {ms : List (String × Json)}
    (h : ms.lookup key = some v) : depth v < depthMembers ms := by
  induction ms with
  | nil => simp [List.lookup_nil] at h
  | cons m ms ih =>
    obtain ⟨k, u⟩ := m
    simp only [depthMembers]
    cases hk : key == k with
    | true =>
      simp only [List.lookup_cons, hk, Option.some.injEq] at h
      subst h
      omega
    | false =>
      simp only [List.lookup_cons, hk] at h
      have := ih h
      omega

mutual
/-- Members in key order at every level, as a sorting serializer writes them. -/
def sortKeys : Json → Json
  | .arr xs => .arr (sortElems xs)
  | .obj ms => .obj ((sortMembers ms).mergeSort (fun a b => a.1 ≤ b.1))
  | j => j
def sortElems : List Json → List Json
  | [] => []
  | x :: xs => sortKeys x :: sortElems xs
def sortMembers : List (String × Json) → List (String × Json)
  | [] => []
  | (k, x) :: ms => (k, sortKeys x) :: sortMembers ms
end

end Json

end ModularPipelines.Library
