import Mathlib.Algebra.Group.Nat.Defs
import Mathlib.Data.List.Basic

namespace ModularPipelines.Library

def bigEndian : Nat → Nat → List UInt8
  | 0, _ => []
  | width + 1, n => bigEndian width (n / 256) ++ [UInt8.ofNat (n % 256)]

@[simp] theorem length_bigEndian (width n : Nat) : (bigEndian width n).length = width := by
  induction width generalizing n with
  | zero => rfl
  | succ width ih => simp [bigEndian, ih]

theorem byte_injective {n m : Nat} (hn : n < 256) (hm : m < 256) (h : UInt8.ofNat n = UInt8.ofNat m) : n = m := by
  have hval := congrArg UInt8.toNat h
  simp only [UInt8.toNat_ofNat'] at hval
  omega

theorem bigEndian_injective {width n m : Nat} (hn : n < 256 ^ width) (hm : m < 256 ^ width)
    (h : bigEndian width n = bigEndian width m) : n = m := by
  induction width generalizing n m with
  | zero =>
    simp only [Nat.pow_zero] at hn hm
    omega
  | succ width ih =>
    simp only [bigEndian] at h
    obtain ⟨hhigh, hlow⟩ := List.append_inj' h rfl
    have hlow := byte_injective (Nat.mod_lt _ (by omega)) (Nat.mod_lt _ (by omega)) (List.cons.inj hlow).1
    have hhigh := ih (by rw [Nat.pow_succ] at hn; omega) (by rw [Nat.pow_succ] at hm; omega) hhigh
    omega

/-- A field of any length behind its own length, and one of a fixed length behind that. -/
def frame (width : Nat) (record : List UInt8 × List UInt8) : List UInt8 :=
  bigEndian width record.1.length ++ record.1 ++ record.2

def Framed (width size : Nat) (records : List (List UInt8 × List UInt8)) : Prop :=
  ∀ r ∈ records, r.1.length < 256 ^ width ∧ r.2.length = size

theorem frame_append_injective {width size : Nat} {a b : List UInt8 × List UInt8} {xs ys : List UInt8}
    (ha : a.1.length < 256 ^ width ∧ a.2.length = size) (hb : b.1.length < 256 ^ width ∧ b.2.length = size)
    (h : frame width a ++ xs = frame width b ++ ys) : a = b ∧ xs = ys := by
  simp only [frame, List.append_assoc] at h
  obtain ⟨hlength, h⟩ := List.append_inj h (by simp)
  have hlength := bigEndian_injective ha.1 hb.1 hlength
  obtain ⟨hfirst, h⟩ := List.append_inj h hlength
  obtain ⟨hsecond, hrest⟩ := List.append_inj h (ha.2.trans hb.2.symm)
  exact ⟨Prod.ext hfirst hsecond, hrest⟩

/-- A sequence of framed records can be read back from its bytes. -/
theorem frames_injective {width size : Nat} (hwidth : 0 < width) {xs ys : List (List UInt8 × List UInt8)}
    (hx : Framed width size xs) (hy : Framed width size ys)
    (h : xs.flatMap (frame width) = ys.flatMap (frame width)) : xs = ys := by
  have hne : ∀ r, frame width r ≠ [] := by
    intro r hempty
    have hlength := congrArg List.length hempty
    simp only [frame, List.length_append, length_bigEndian, List.length_nil] at hlength
    omega
  induction xs generalizing ys with
  | nil =>
    cases ys with
    | nil => rfl
    | cons b ys =>
      rw [List.flatMap_nil, List.flatMap_cons] at h
      exact absurd (List.append_eq_nil_iff.mp h.symm).1 (hne b)
  | cons a xs ih =>
    cases ys with
    | nil =>
      rw [List.flatMap_nil, List.flatMap_cons] at h
      exact absurd (List.append_eq_nil_iff.mp h).1 (hne a)
    | cons b ys =>
      rw [List.flatMap_cons, List.flatMap_cons] at h
      obtain ⟨rfl, hrest⟩ := frame_append_injective (hx a List.mem_cons_self) (hy b List.mem_cons_self) h
      rw [ih (fun r hr => hx r (List.mem_cons_of_mem _ hr)) (fun r hr => hy r (List.mem_cons_of_mem _ hr)) hrest]

end ModularPipelines.Library
