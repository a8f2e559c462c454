import Mathlib.Algebra.CharP.Two
import Mathlib.Algebra.Field.ZMod
import Mathlib.Algebra.Polynomial.Div

/-!
# Bits as polynomials over GF(2)

A list of bits is read as a polynomial, the coefficient of the highest power first. A word is read as the
list of its bits, the least significant one first: bit `i` of a word of `n` bits is the coefficient of
`X ^ (n - 1 - i)`.
-/

namespace BitPolynomial

open Polynomial

/-- The coefficient that a bit stands for. -/
def coefficient (b : Bool) : ZMod 2 := if b then 1 else 0

theorem coefficient_injective : Function.Injective coefficient := by decide

theorem coefficient_xor (a b : Bool) : coefficient (a ^^ b) = coefficient a + coefficient b := by
  cases a <;> cases b <;> decide

/-- The polynomial with these coefficients, that of the highest power first. -/
noncomputable def ofBits : List Bool → (ZMod 2)[X]
  | [] => 0
  | b :: bits => C (coefficient b) * X ^ bits.length + ofBits bits

theorem ofBits_append (bits bits' : List Bool) :
    ofBits (bits ++ bits') = ofBits bits * X ^ bits'.length + ofBits bits' := by
  induction bits with
  | nil => simp [ofBits]
  | cons b bits ih =>
    rw [List.cons_append, ofBits, ih, ofBits, List.length_append, pow_add]
    ring

theorem ofBits_replicate_false (k : ℕ) : ofBits (List.replicate k false) = 0 := by
  induction k with
  | zero => rfl
  | succ k ih => simp [List.replicate_succ, ofBits, ih, coefficient]

theorem ofBits_zipWith_xor {bits bits' : List Bool} (h : bits.length = bits'.length) :
    ofBits (List.zipWith xor bits bits') = ofBits bits + ofBits bits' := by
  induction bits generalizing bits' with
  | nil =>
    obtain rfl := List.length_eq_zero_iff.1 h.symm
    simp [ofBits]
  | cons b bits ih =>
    obtain ⟨b', bits', rfl⟩ := List.exists_cons_of_length_eq_add_one h.symm
    have htail : bits.length = bits'.length := Nat.succ.inj h
    rw [List.zipWith_cons_cons, ofBits, ofBits, ofBits, ih htail, List.length_zipWith, ← htail,
      Nat.min_self, coefficient_xor, C_add]
    ring

theorem degree_ofBits_lt (bits : List Bool) : (ofBits bits).degree < bits.length := by
  induction bits with
  | nil => simp [ofBits]
  | cons b bits ih =>
    have hhead : (C (coefficient b) * X ^ bits.length).degree ≤ (bits.length : WithBot ℕ) :=
      degree_C_mul_X_pow_le _ _
    refine lt_of_le_of_lt (degree_add_le _ _) ?_
    rw [List.length_cons]
    exact max_lt (lt_of_le_of_lt hhead (by exact_mod_cast Nat.lt_succ_self _))
      (ih.trans (by exact_mod_cast Nat.lt_succ_self _))

/-- The coefficients, by position in the list. -/
theorem coeff_ofBits {bits : List Bool} {i : ℕ} (hi : i < bits.length) :
    (ofBits bits).coeff (bits.length - 1 - i) = coefficient bits[i] := by
  induction bits generalizing i with
  | nil => exact absurd hi (Nat.not_lt_zero i)
  | cons b bits ih =>
    rw [ofBits, coeff_add, coeff_C_mul_X_pow]
    cases i with
    | zero =>
      have htail : (ofBits bits).coeff bits.length = 0 :=
        coeff_eq_zero_of_degree_lt (degree_ofBits_lt bits)
      simp [htail]
    | succ i =>
      have hi' : i < bits.length := Nat.lt_of_succ_lt_succ hi
      have hpower : (b :: bits).length - 1 - (i + 1) = bits.length - 1 - i := by
        rw [List.length_cons]
        omega
      rw [hpower, if_neg (by omega), zero_add, ih hi', List.getElem_cons_succ]

theorem eq_of_ofBits_eq {bits bits' : List Bool} (hlen : bits.length = bits'.length)
    (h : ofBits bits = ofBits bits') : bits = bits' := by
  refine List.ext_getElem hlen fun i hi hi' => coefficient_injective ?_
  rw [← coeff_ofBits hi, ← coeff_ofBits hi', h, hlen]

/-- The first `k` bits complemented. -/
def complementFirst (k : ℕ) (bits : List Bool) : List Bool := (bits.take k).map not ++ bits.drop k

/-- Complementing bits adds one to their coefficients. -/
theorem ofBits_complementFirst {k : ℕ} {bits : List Bool} (h : k ≤ bits.length) :
    ofBits (complementFirst k bits) =
      ofBits bits + ofBits (List.replicate k true) * X ^ (bits.length - k) := by
  have hlen : (bits.take k).length = (List.replicate k true).length := by
    rw [List.length_take, List.length_replicate, Nat.min_eq_left h]
  have hxor : (bits.take k).map not = List.zipWith xor (bits.take k) (List.replicate k true) := by
    refine List.ext_getElem (by simp [← hlen]) fun i hi hi' => ?_
    simp
  have hsplit : ofBits bits = ofBits (bits.take k) * X ^ (bits.length - k) + ofBits (bits.drop k) := by
    have := ofBits_append (bits.take k) (bits.drop k)
    rwa [List.take_append_drop, List.length_drop] at this
  rw [complementFirst, ofBits_append, hxor, ofBits_zipWith_xor hlen, hsplit, List.length_drop]
  ring

/-! ## Words -/

variable {n m : ℕ}

/-- The bits of a word, the least significant one first. -/
def lsbFirst (w : BitVec n) : List Bool := (List.range n).map w.getLsbD

@[simp] theorem length_lsbFirst (w : BitVec n) : (lsbFirst w).length = n := by simp [lsbFirst]

theorem getElem_lsbFirst (w : BitVec n) {i : ℕ} (hi : i < (lsbFirst w).length) :
    (lsbFirst w)[i] = w.getLsbD i := by
  simp [lsbFirst]

theorem lsbFirst_injective : Function.Injective (lsbFirst (n := n)) := by
  intro v w h
  refine BitVec.eq_of_getLsbD_eq fun i hi => ?_
  exact List.map_inj_left.1 h i (List.mem_range.2 hi)

theorem lsbFirst_xor (v w : BitVec n) :
    lsbFirst (v ^^^ w) = List.zipWith xor (lsbFirst v) (lsbFirst w) := by
  rw [lsbFirst, lsbFirst, lsbFirst, List.zipWith_map, List.zipWith_self]
  exact List.map_congr_left fun i _ => BitVec.getLsbD_xor

theorem ofBits_lsbFirst_xor (v w : BitVec n) :
    ofBits (lsbFirst (v ^^^ w)) = ofBits (lsbFirst v) + ofBits (lsbFirst w) := by
  rw [lsbFirst_xor, ofBits_zipWith_xor (by simp)]

theorem coeff_ofBits_lsbFirst (w : BitVec n) {i : ℕ} (hi : i < n) :
    (ofBits (lsbFirst w)).coeff (n - 1 - i) = coefficient (w.getLsbD i) := by
  have hcoeff := @coeff_ofBits (lsbFirst w) i (by rwa [length_lsbFirst])
  rw [getElem_lsbFirst] at hcoeff
  rwa [length_lsbFirst] at hcoeff

theorem ofBits_lsbFirst_zero : ofBits (lsbFirst (0 : BitVec n)) = 0 := by
  have hzero : lsbFirst (0 : BitVec n) = List.replicate n false := by
    refine List.eq_replicate_iff.2 ⟨length_lsbFirst _, fun b hb => ?_⟩
    obtain ⟨i, -, rfl⟩ := List.mem_map.1 hb
    exact BitVec.getLsbD_zero
  rw [hzero, ofBits_replicate_false]

/-- Zeros at the more significant end are coefficients of low powers. -/
theorem lsbFirst_setWidth (h : m ≤ n) (w : BitVec m) :
    lsbFirst (w.setWidth n) = lsbFirst w ++ List.replicate (n - m) false := by
  refine List.ext_getElem (by simp [h]) fun i hi hi' => ?_
  have hlt : i < n := by simpa using hi
  rw [getElem_lsbFirst, List.getElem_append, BitVec.getLsbD_setWidth]
  split
  · simp [getElem_lsbFirst, hlt]
  · rename_i hge
    have hm : m ≤ i := by simpa using hge
    simp [BitVec.getLsbD_of_ge w i hm]

/-- A shift to the right drops the coefficient of the highest power, and multiplies by `X`. -/
theorem ofBits_lsbFirst_shift (w : BitVec n) :
    ofBits (lsbFirst (w >>> 1)) + C (coefficient (w.getLsbD 0)) * X ^ n =
      X * ofBits (lsbFirst w) := by
  cases n with
  | zero => simp [lsbFirst, ofBits, coefficient]
  | succ n =>
    -- the bits above the lowest one
    set high := (List.range n).map fun i => w.getLsbD (i + 1) with hhigh
    have hw : lsbFirst w = w.getLsbD 0 :: high := by
      rw [lsbFirst, List.range_succ_eq_map, List.map_cons, List.map_map]
      rfl
    have hshift : lsbFirst (w >>> 1) = high ++ [false] := by
      rw [lsbFirst, List.range_succ, List.map_append, hhigh]
      simp [BitVec.getLsbD_ushiftRight, Nat.add_comm]
    have hlen : high.length = n := by simp [hhigh]
    have hfalse : ofBits [false] = 0 := ofBits_replicate_false 1
    rw [hw, hshift, ofBits_append, hfalse, ofBits, hlen, List.length_singleton]
    ring

/-- The word whose bits are the coefficients of the powers below `n`. -/
noncomputable def reflected (n : ℕ) (p : (ZMod 2)[X]) : BitVec n :=
  (BitVec.ofBoolListLE ((List.range n).map fun i => decide (p.coeff (n - 1 - i) = 1))).setWidth n

theorem getLsbD_reflected (p : (ZMod 2)[X]) {i : ℕ} (hi : i < n) :
    (reflected n p).getLsbD i = decide (p.coeff (n - 1 - i) = 1) := by
  rw [reflected, BitVec.getLsbD_setWidth, BitVec.getLsbD_ofBoolListLE, List.getD_eq_getElem?_getD,
    List.getElem?_map, List.getElem?_range hi]
  simp [hi]

/-- A word is made of its own coefficients. -/
theorem reflected_ofBits_lsbFirst (w : BitVec n) : reflected n (ofBits (lsbFirst w)) = w := by
  refine BitVec.eq_of_getLsbD_eq fun i hi => ?_
  rw [getLsbD_reflected _ hi, coeff_ofBits_lsbFirst w hi]
  cases w.getLsbD i <;> decide

end BitPolynomial
