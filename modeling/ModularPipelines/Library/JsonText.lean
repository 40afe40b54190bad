import ModularPipelines.Library.Json

namespace ModularPipelines.Library.Json

def hexChar (n : Nat) : Char := Nat.digitChar n

def hexValue (c : Char) : Option Nat :=
  if c.isDigit then some (c.toNat - 48)
  else if 'a' ≤ c ∧ c ≤ 'f' then some (c.toNat - 87)
  else if 'A' ≤ c ∧ c ≤ 'F' then some (c.toNat - 55)
  else none

/-- Only quotes, backslashes and control characters are escaped. -/
def escape (c : Char) : List Char :=
  if c = '"' then ['\\', '"']
  else if c = '\\' then ['\\', '\\']
  else if c = '\n' then ['\\', 'n']
  else if c = '\r' then ['\\', 'r']
  else if c = '\t' then ['\\', 't']
  else if c.toNat = 8 then ['\\', 'b']
  else if c.toNat = 12 then ['\\', 'f']
  else if c.toNat < 32 then ['\\', 'u', '0', '0', hexChar (c.toNat / 16), hexChar (c.toNat % 16)]
  else [c]

def quote (s : String) : List Char := '"' :: (s.toList.flatMap escape ++ ['"'])

def intChars (n : Int) : List Char :=
  if n < 0 then '-' :: Nat.toDigits 10 n.natAbs else Nat.toDigits 10 n.natAbs

mutual
/-- Compact text: no blanks between tokens. -/
def chars : Json → List Char
  | .null => ['n', 'u', 'l', 'l']
  | .bool true => ['t', 'r', 'u', 'e']
  | .bool false => ['f', 'a', 'l', 's', 'e']
  | .int n => intChars n
  | .float t => t.chars
  | .str s => quote s
  | .arr [] => ['[', ']']
  | .arr (x :: xs) => '[' :: (chars x ++ elemChars xs)
  | .obj [] => ['{', '}']
  | .obj ((k, x) :: ms) => '{' :: (quote k ++ ':' :: (chars x ++ memberChars ms))
def elemChars : List Json → List Char
  | [] => [']']
  | x :: xs => ',' :: (chars x ++ elemChars xs)
def memberChars : List (String × Json) → List Char
  | [] => ['}']
  | (k, x) :: ms => ',' :: (quote k ++ ':' :: (chars x ++ memberChars ms))
end

def dumps (j : Json) : String := String.ofList j.chars

def hexEscape (a b c d : Char) : Option Char := do
  let n := 4096 * (← hexValue a) + 256 * (← hexValue b) + 16 * (← hexValue c) + (← hexValue d)
  if n.isValidChar then some (Char.ofNat n) else none

def unescape : Char → Option Char
  | '"' => some '"'
  | '\\' => some '\\'
  | '/' => some '/'
  | 'n' => some '\n'
  | 'r' => some '\r'
  | 't' => some '\t'
  | 'b' => some (Char.ofNat 8)
  | 'f' => some (Char.ofNat 12)
  | _ => none

def pushChar (x : Char) (p : List Char × List Char) : List Char × List Char := (x :: p.1, p.2)

/-- The characters of a string up to its closing quote, and what follows it. -/
def readString : List Char → Option (List Char × List Char)
  | [] => none
  | '"' :: r => some ([], r)
  | '\\' :: 'u' :: a :: b :: c :: d :: r =>
    (hexEscape a b c d).bind (fun x => (readString r).map (pushChar x))
  | '\\' :: e :: r => (unescape e).bind (fun x => (readString r).map (pushChar x))
  | ['\\'] => none
  | x :: r => if x.toNat < 32 then none else (readString r).map (pushChar x)

def readInt (cs : List Char) : Option Int :=
  match cs with
  | '-' :: ds => (readNat ds).map (fun n => -(n : Int))
  | ds => (readNat ds).map (fun n => (n : Int))
where
  readNat (ds : List Char) : Option Nat :=
    if ds.isEmpty || !ds.all Char.isDigit || (ds.head? == some '0' && ds.length != 1) then none
    else some (Nat.ofDigitChars 10 ds 0)

def readNumber (cs : List Char) : Option Json :=
  if h : isFloatChars cs = true then some (.float ⟨cs, h⟩) else (readInt cs).map .int

mutual
def readValue : Nat → List Char → Option (Json × List Char)
  | 0, _ => none
  | n + 1, cs =>
    match cs with
    | '"' :: r => (readString r).map (fun p => (.str (String.ofList p.1), p.2))
    | '[' :: ']' :: r => some (.arr [], r)
    | '[' :: r => do
      let (x, r) ← readValue n r
      let (xs, r) ← readElems n r
      some (.arr (x :: xs), r)
    | '{' :: '}' :: r => some (.obj [], r)
    | '{' :: r => do
      let (m, r) ← readMember n r
      let (ms, r) ← readMembers n r
      some (.obj (m :: ms), r)
    | 'n' :: 'u' :: 'l' :: 'l' :: r => some (.null, r)
    | 't' :: 'r' :: 'u' :: 'e' :: r => some (.bool true, r)
    | 'f' :: 'a' :: 'l' :: 's' :: 'e' :: r => some (.bool false, r)
    | r => (readNumber (r.takeWhile numericChar)).map (fun j => (j, r.dropWhile numericChar))
def readElems : Nat → List Char → Option (List Json × List Char)
  | 0, _ => none
  | n + 1, cs =>
    match cs with
    | ']' :: r => some ([], r)
    | ',' :: r => do
      let (x, r) ← readValue n r
      let (xs, r) ← readElems n r
      some (x :: xs, r)
    | _ => none
def readMember : Nat → List Char → Option ((String × Json) × List Char)
  | 0, _ => none
  | n + 1, cs =>
    match cs with
    | '"' :: r => do
      let (k, r) ← readString r
      match r with
      | ':' :: r =>
        let (x, r) ← readValue n r
        some ((String.ofList k, x), r)
      | _ => none
    | _ => none
def readMembers : Nat → List Char → Option (List (String × Json) × List Char)
  | 0, _ => none
  | n + 1, cs =>
    match cs with
    | '}' :: r => some ([], r)
    | ',' :: r => do
      let (m, r) ← readMember n r
      let (ms, r) ← readMembers n r
      some (m :: ms, r)
    | _ => none
end

/-- Reads compact text. Every call consumes a character, so its length is fuel enough. -/
def loads (s : String) : Option Json :=
  match readValue s.toList.length s.toList with
  | some (j, []) => some j
  | _ => none

theorem hexValue_hexChar : ∀ n < 16, hexValue (hexChar n) = some n := by decide

theorem hexEscape_control (c : Char) (h : c.toNat < 32) :
    hexEscape '0' '0' (hexChar (c.toNat / 16)) (hexChar (c.toNat % 16)) = some c := by
  have h1 := hexValue_hexChar (c.toNat / 16) (by omega)
  have h2 := hexValue_hexChar (c.toNat % 16) (by omega)
  have h0 : hexValue '0' = some 0 := by decide
  have hn : 16 * (c.toNat / 16) + c.toNat % 16 = c.toNat := by omega
  have hv : c.toNat.isValidChar := c.valid
  simp [hexEscape, h0, h1, h2, hn, hv]

theorem readString_plain {c : Char} (hq : ¬ c = '"') (hb : ¬ c = '\\') (hlt : ¬ c.toNat < 32)
    (r : List Char) : readString (c :: r) = (readString r).map (pushChar c) := by
  rw [readString.eq_def]
  split
  · next h => cases h
  · next h => exact absurd (List.cons.inj h).1 hq
  · next h => exact absurd (List.cons.inj h).1 hb
  · next h => exact absurd (List.cons.inj h).1 hb
  · next h => exact absurd (List.cons.inj h).1 hb
  · next h =>
    obtain ⟨rfl, rfl⟩ := List.cons.inj h
    rw [if_neg hlt]

/-- Reading an escaped character gives the character back, whatever follows. -/
theorem readString_escape (c : Char) (r : List Char) :
    readString (escape c ++ r) = (readString r).map (pushChar c) := by
  unfold escape
  by_cases hq : c = '"'
  · simp [hq, readString, unescape]
  by_cases hb : c = '\\'
  · simp [hb, readString, unescape]
  by_cases hn : c = '\n'
  · simp [hn, readString, unescape]
  by_cases hr : c = '\r'
  · simp [hr, readString, unescape]
  by_cases ht : c = '\t'
  · simp [ht, readString, unescape]
  by_cases h8 : c.toNat = 8
  · have hc : c = Char.ofNat 8 := by rw [← h8, Char.ofNat_toNat]
    simp [hc, readString, unescape]
  by_cases hf : c.toNat = 12
  · have hc : c = Char.ofNat 12 := by rw [← hf, Char.ofNat_toNat]
    simp [hc, readString, unescape]
  by_cases hlt : c.toNat < 32
  · simp [hq, hb, hn, hr, ht, h8, hf, hlt, readString, hexEscape_control c hlt]
  · simp only [hq, hb, hn, hr, ht, h8, hf, hlt, if_false, List.cons_append, List.nil_append]
    exact readString_plain hq hb hlt r

theorem readString_quoted (cs r : List Char) :
    readString (cs.flatMap escape ++ '"' :: r) = some (cs, r) := by
  induction cs with
  | nil => simp [readString]
  | cons c cs ih =>
    rw [List.flatMap_cons, List.append_assoc, readString_escape, ih]
    rfl

theorem readString_quote (k : String) (r : List Char) :
    readString ((k.toList.flatMap escape ++ ['"']) ++ r) = some (k.toList, r) := by
  rw [List.append_assoc]
  exact readString_quoted k.toList r

/-- What may follow a number inside a document. -/
def Stops (r : List Char) : Prop := ∀ c ∈ r.head?, numericChar c = false

theorem stops_cons {c : Char} (h : numericChar c = false) (r : List Char) : Stops (c :: r) := by
  intro d hd
  simp only [List.head?_cons, Option.mem_def, Option.some.injEq] at hd
  exact hd ▸ h

theorem span_number {cs r : List Char} (hc : ∀ c ∈ cs, numericChar c = true) (hr : Stops r) :
    (cs ++ r).takeWhile numericChar = cs ∧ (cs ++ r).dropWhile numericChar = r := by
  induction cs with
  | nil =>
    cases r with
    | nil => simp
    | cons d r =>
      have hd := hr d (by simp)
      simp [hd]
  | cons c cs ih =>
    have hcc := hc c (by simp)
    obtain ⟨ht, hd⟩ := ih (fun x hx => hc x (by simp [hx]))
    simp [hcc, ht, hd]

theorem digits_isDigit (n : Nat) : ∀ c ∈ Nat.toDigits 10 n, c.isDigit = true :=
  fun _ hc => Nat.isDigit_of_mem_toDigits (by decide) (by decide) hc

theorem numeric_of_isDigit {c : Char} (h : c.isDigit = true) : numericChar c = true := by
  simp [numericChar, h]

theorem intChars_numeric (n : Int) : ∀ c ∈ intChars n, numericChar c = true := by
  intro c hc
  unfold intChars at hc
  split at hc
  · rcases List.mem_cons.mp hc with rfl | hc
    · decide
    · exact numeric_of_isDigit (digits_isDigit _ c hc)
  · exact numeric_of_isDigit (digits_isDigit _ c hc)

theorem not_mark_of_isDigit {c : Char} (h : c.isDigit = true) :
    (c == '.' || c == 'e' || c == 'E') = false := by
  rw [Bool.eq_false_iff]
  intro hm
  simp only [Bool.or_eq_true, beq_iff_eq] at hm
  rcases hm with (rfl | rfl) | rfl <;> revert h <;> decide

theorem intChars_not_float (n : Int) : isFloatChars (intChars n) = false := by
  have hm : (intChars n).any (fun c => c == '.' || c == 'e' || c == 'E') = false := by
    rw [List.any_eq_false]
    intro c hc
    unfold intChars at hc
    split at hc
    · rcases List.mem_cons.mp hc with rfl | hc
      · decide
      · simpa using not_mark_of_isDigit (digits_isDigit _ c hc)
    · simpa using not_mark_of_isDigit (digits_isDigit _ c hc)
  simp [isFloatChars, hm]

theorem digits_head (n : Nat) (h : (Nat.toDigits 10 n).head? = some '0') :
    (Nat.toDigits 10 n).length = 1 := by
  by_cases hn : n < 10
  · simp [Nat.toDigits_of_lt_base hn]
  · exfalso
    induction n using Nat.strongRecOn with
    | _ n ih =>
      rw [Nat.toDigits_of_base_le (by decide) (by omega)] at h
      by_cases hq : n / 10 < 10
      · rw [Nat.toDigits_of_lt_base hq] at h
        simp only [List.cons_append, List.head?_cons, Option.some.injEq,
          Nat.digitChar_eq_zero] at h
        omega
      · rw [List.head?_append_of_ne_nil _ Nat.toDigits_ne_nil] at h
        exact ih (n / 10) (by omega) h hq

theorem readNat_digits (n : Nat) : readInt.readNat (Nat.toDigits 10 n) = some n := by
  unfold readInt.readNat
  have hall : (Nat.toDigits 10 n).all Char.isDigit = true :=
    List.all_eq_true.mpr (digits_isDigit n)
  have hne : (Nat.toDigits 10 n).isEmpty = false := by
    simp
  have hz : ((Nat.toDigits 10 n).head? == some '0' && (Nat.toDigits 10 n).length != 1) = false := by
    cases hh : (Nat.toDigits 10 n).head? == some '0' with
    | false => rfl
    | true => simp [digits_head n (by simpa using hh)]
  simp [hall, hne, hz, Nat.ofDigitChars_ten_toDigits]

theorem readInt_intChars (n : Int) : readInt (intChars n) = some n := by
  unfold intChars
  split
  · simp only [readInt, readNat_digits]
    have habs : -(n.natAbs : Int) = n := by omega
    exact congrArg some habs
  · have hd : ∀ r, Nat.toDigits 10 n.natAbs ≠ '-' :: r := by
      intro r he
      have := digits_isDigit n.natAbs '-' (by rw [he]; simp)
      exact absurd this (by decide)
    unfold readInt
    split
    · rename_i r he
      exact absurd he (hd r)
    · simp [readNat_digits]
      omega

mutual
/-- Fuel the reader needs for a document. -/
def cost : Json → Nat
  | .arr [] => 1
  | .arr (x :: xs) => 1 + cost x + costElems xs
  | .obj [] => 1
  | .obj ((_, x) :: ms) => 2 + cost x + costMembers ms
  | _ => 1
def costElems : List Json → Nat
  | [] => 1
  | x :: xs => 1 + cost x + costElems xs
def costMembers : List (String × Json) → Nat
  | [] => 1
  | (_, x) :: ms => 2 + cost x + costMembers ms
end

theorem float_chars_ne_nil (t : FloatText) : t.chars ≠ [] := by
  intro h
  have := t.ok
  simp [isFloatChars, h] at this

theorem intChars_ne_nil (n : Int) : intChars n ≠ [] := by
  unfold intChars
  split <;> simp

mutual
theorem cost_le : ∀ j : Json, cost j ≤ (chars j).length
  | .null | .bool true | .bool false => by simp [cost, chars]
  | .int n => by
    have := List.length_pos_iff.mpr (intChars_ne_nil n)
    simp only [cost, chars]
    omega
  | .float t => by
    have := List.length_pos_iff.mpr (float_chars_ne_nil t)
    simp only [cost, chars]
    omega
  | .str s => by simp [cost, chars, quote]
  | .arr [] => by simp [cost, chars]
  | .arr (x :: xs) => by
    have h1 := cost_le x
    have h2 := costElems_le xs
    simp only [cost, chars, List.length_cons, List.length_append]
    omega
  | .obj [] => by simp [cost, chars]
  | .obj ((k, x) :: ms) => by
    have h1 := cost_le x
    have h2 := costMembers_le ms
    simp only [cost, chars, quote, List.length_cons, List.length_append]
    omega
theorem costElems_le : ∀ xs : List Json, costElems xs ≤ (elemChars xs).length
  | [] => by simp [costElems, elemChars]
  | x :: xs => by
    have h1 := cost_le x
    have h2 := costElems_le xs
    simp only [costElems, elemChars, List.length_cons, List.length_append]
    omega
theorem costMembers_le : ∀ ms : List (String × Json), costMembers ms ≤ (memberChars ms).length
  | [] => by simp [costMembers, memberChars]
  | (k, x) :: ms => by
    have h1 := cost_le x
    have h2 := costMembers_le ms
    simp only [costMembers, memberChars, quote, List.length_cons, List.length_append]
    omega
end

theorem elemChars_stops (xs : List Json) (r : List Char) : Stops (elemChars xs ++ r) := by
  cases xs <;> exact stops_cons (by decide) _

theorem memberChars_stops (ms : List (String × Json)) (r : List Char) :
    Stops (memberChars ms ++ r) := by
  cases ms <;> exact stops_cons (by decide) _

/-- A text made of number characters alone is read as a number. -/
theorem readValue_number {cs r : List Char} {j : Json} (n : Nat)
    (hc : ∀ c ∈ cs, numericChar c = true) (hne : cs ≠ []) (hr : Stops r)
    (hj : readNumber cs = some j) : readValue (n + 1) (cs ++ r) = some (j, r) := by
  obtain ⟨ht, hd⟩ := span_number hc hr
  cases cs with
  | nil => exact absurd rfl hne
  | cons c cs =>
    have hcc := hc c (by simp)
    have h1 : c ≠ '"' := by rintro rfl; revert hcc; decide
    have h2 : c ≠ '[' := by rintro rfl; revert hcc; decide
    have h3 : c ≠ '{' := by rintro rfl; revert hcc; decide
    have h4 : c ≠ 'n' := by rintro rfl; revert hcc; decide
    have h5 : c ≠ 't' := by rintro rfl; revert hcc; decide
    have h6 : c ≠ 'f' := by rintro rfl; revert hcc; decide
    rw [List.cons_append] at ht hd ⊢
    rw [readValue]
    · rw [ht, hd, hj]
      rfl
    all_goals simp_all

theorem readNumber_int (n : Int) : readNumber (intChars n) = some (.int n) := by
  simp [readNumber, intChars_not_float, readInt_intChars]

theorem readNumber_float (t : FloatText) : readNumber t.chars = some (.float t) := by
  simp [readNumber, t.ok]

theorem float_numeric (t : FloatText) : ∀ c ∈ t.chars, numericChar c = true := by
  have h := t.ok
  simp only [isFloatChars, Bool.and_eq_true] at h
  exact List.all_eq_true.mp h.1.1.1

/-- No document's text begins with a bracket that closes its container. -/
theorem chars_head_ne_close (j : Json) (r : List Char) :
    (∀ t, chars j ++ r ≠ ']' :: t) := by
  intro t he
  cases j with
  | null | bool b | str s => 
    first
      | (cases b <;> simp [chars] at he)
      | simp [chars, quote] at he
  | int n =>
    cases hc : intChars n with
    | nil => exact intChars_ne_nil n hc
    | cons c cs =>
      have hn := intChars_numeric n c (by simp [hc])
      simp only [chars, hc, List.cons_append, List.cons.injEq] at he
      rw [he.1] at hn
      exact absurd hn (by decide)
  | float f =>
    cases hc : f.chars with
    | nil => exact float_chars_ne_nil f hc
    | cons c cs =>
      have hn := float_numeric f c (by simp [hc])
      simp only [chars, hc, List.cons_append, List.cons.injEq] at he
      rw [he.1] at hn
      exact absurd hn (by decide)
  | arr xs => cases xs <;> simp [chars] at he
  | obj ms =>
    cases ms with
    | nil => simp [chars] at he
    | cons m ms => simp [chars] at he

mutual
/-- The reader inverts the writer in front of any text that does not extend a number. -/
theorem readValue_chars : ∀ (j : Json) (n : Nat) (r : List Char), cost j ≤ n → Stops r →
    readValue n (chars j ++ r) = some (j, r)
  | j, 0, r, hn, _ => by
    exfalso
    rcases j with _ | _ | _ | _ | _ | (_ | ⟨_, _⟩) | (_ | ⟨_, _⟩) <;> simp [cost] at hn
  | .null, n + 1, r, _, _ => by simp [chars, readValue]
  | .bool true, n + 1, r, _, _ => by simp [chars, readValue]
  | .bool false, n + 1, r, _, _ => by simp [chars, readValue]
  | .int i, n + 1, r, _, hr => by
    exact readValue_number n (intChars_numeric i) (intChars_ne_nil i) hr (readNumber_int i)
  | .float t, n + 1, r, _, hr => by
    exact readValue_number n (float_numeric t) (float_chars_ne_nil t) hr (readNumber_float t)
  | .str s, n + 1, r, _, _ => by
    simp only [chars, quote, List.cons_append, readValue]
    rw [readString_quote]
    simp
  | .arr [], n + 1, r, _, _ => by simp [chars, readValue]
  | .arr (x :: xs), n + 1, r, hn, _ => by
    simp only [cost] at hn
    have hx := readValue_chars x n (elemChars xs ++ r) (by omega) (elemChars_stops xs r)
    have hxs := readElems_chars xs n r (by omega)
    simp only [chars, List.cons_append, List.append_assoc]
    rw [readValue]
    · simp [hx, hxs]
    · exact chars_head_ne_close x _
  | .obj [], n + 1, r, _, _ => by simp [chars, readValue]
  | .obj ((k, x) :: ms), n + 1, r, hn, _ => by
    simp only [cost] at hn
    have hm := readMember_chars k x n (memberChars ms ++ r) (by omega) (memberChars_stops ms r)
    have hms := readMembers_chars ms n r (by omega)
    simp only [quote, List.cons_append, List.append_assoc, List.nil_append] at hm
    simp only [chars, quote, List.cons_append, List.append_assoc, List.nil_append]
    rw [readValue]
    · simp [hm, hms]
    · simp
theorem readMember_chars : ∀ (k : String) (x : Json) (n : Nat) (r : List Char),
    cost x + 1 ≤ n → Stops r →
    readMember n (quote k ++ ':' :: (chars x ++ r)) = some ((k, x), r)
  | k, x, 0, r, hn, _ => by omega
  | k, x, n + 1, r, hn, hr => by
    have hx := readValue_chars x n r (by omega) hr
    simp only [quote, List.cons_append, readMember]
    rw [readString_quote]
    simp [hx]
theorem readElems_chars : ∀ (xs : List Json) (n : Nat) (r : List Char), costElems xs ≤ n →
    readElems n (elemChars xs ++ r) = some (xs, r)
  | xs, 0, r, hn => by cases xs <;> simp [costElems] at hn
  | [], n + 1, r, _ => by simp [elemChars, readElems]
  | x :: xs, n + 1, r, hn => by
    simp only [costElems] at hn
    have hx := readValue_chars x n (elemChars xs ++ r) (by omega) (elemChars_stops xs r)
    have hxs := readElems_chars xs n r (by omega)
    simp [elemChars, readElems, hx, hxs]
theorem readMembers_chars : ∀ (ms : List (String × Json)) (n : Nat) (r : List Char),
    costMembers ms ≤ n → readMembers n (memberChars ms ++ r) = some (ms, r)
  | ms, 0, r, hn => by cases ms <;> simp [costMembers] at hn
  | [], n + 1, r, _ => by simp [memberChars, readMembers]
  | (k, x) :: ms, n + 1, r, hn => by
    simp only [costMembers] at hn
    have hm := readMember_chars k x n (memberChars ms ++ r) (by omega) (memberChars_stops ms r)
    have hms := readMembers_chars ms n r (by omega)
    simp [memberChars, readMembers, hm, hms]
end

/-- Every document survives being written and read. -/
@[simp] theorem loads_dumps (j : Json) : loads (dumps j) = some j := by
  have h := readValue_chars j (chars j).length [] (cost_le j) (by intro c hc; simp at hc)
  rw [List.append_nil] at h
  simp [loads, dumps, h]

theorem dumps_injective : Function.Injective dumps := by
  intro a b h
  have := congrArg loads h
  simpa using this

instance : DecidableEq Json := fun a b =>
  decidable_of_iff (dumps a = dumps b) dumps_injective.eq_iff

end ModularPipelines.Library.Json
