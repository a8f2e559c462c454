import Mathlib.Algebra.Polynomial.FieldDivision
import Mathlib.RingTheory.AdjoinRoot
import Mathlib.Tactic.LinearCombination
import NicObFw.Lib.BitPolynomial

/-!
# Cyclic redundancy checks

The shift register of a reflected CRC of any width, and what it computes. A step multiplies what the
register holds by `X` in the quotient by the modulus (`residue_step`), so after a message the register
holds the remainder of the message polynomial (`ofBits_foldl_absorb`). If the modulus is not divisible by
`X`, two messages of one length with the same remainder cannot differ in a window of the register's
width only (`burst_detected`).
-/

namespace Crc

open Polynomial BitPolynomial

variable {n m : ℕ} (g : BitVec n)

/-- The modulus that belongs to the feedback word `g`. -/
noncomputable def modulus : (ZMod 2)[X] := X ^ n + ofBits (lsbFirst g)

theorem degree_ofBits_lsbFirst_lt (w : BitVec n) : (ofBits (lsbFirst w)).degree < n := by
  have hlt := degree_ofBits_lt (lsbFirst w)
  rwa [length_lsbFirst] at hlt

theorem modulus_monic : (modulus g).Monic := monic_X_pow_add (degree_ofBits_lsbFirst_lt g)

theorem degree_modulus : (modulus g).degree = n := by
  rw [modulus, degree_add_eq_left_of_degree_lt, degree_X_pow]
  rw [degree_X_pow]
  exact degree_ofBits_lsbFirst_lt g

/-! ## The register -/

/-- One step of the register: a shift, and the feedback if the bit that falls out is set. -/
def step (w : BitVec n) : BitVec n := (w >>> 1) ^^^ (if w.getLsbD 0 then g else 0)

/-- The word `b` is added at the end where bits fall out, and shifted through the register. -/
def absorb (w : BitVec n) (b : BitVec m) : BitVec n := (step g)^[m] (w ^^^ b.setWidth n)

/-- What a register holds, modulo the modulus. -/
noncomputable def residue (w : BitVec n) : AdjoinRoot (modulus g) :=
  AdjoinRoot.mk (modulus g) (ofBits (lsbFirst w))

theorem residue_xor (v w : BitVec n) : residue g (v ^^^ w) = residue g v + residue g w := by
  rw [residue, ofBits_lsbFirst_xor, map_add]
  rfl

/-- A step multiplies by `X`: the coefficient that falls out is replaced by the rest of the modulus. -/
theorem residue_step (w : BitVec n) :
    residue g (step g w) = AdjoinRoot.root (modulus g) * residue g w := by
  have hfeedback : ofBits (lsbFirst (if w.getLsbD 0 then g else 0)) =
      C (coefficient (w.getLsbD 0)) * ofBits (lsbFirst g) := by
    cases w.getLsbD 0 with
    | true => simp [coefficient]
    | false =>
      rw [if_neg Bool.false_ne_true, ofBits_lsbFirst_zero]
      simp [coefficient]
  have hstep : X * ofBits (lsbFirst w) - ofBits (lsbFirst (step g w)) =
      modulus g * C (coefficient (w.getLsbD 0)) := by
    rw [step, ofBits_lsbFirst_xor, hfeedback, ← ofBits_lsbFirst_shift, modulus, CharTwo.sub_eq_add]
    have htwo := CharTwo.add_self_eq_zero (ofBits (lsbFirst (w >>> 1)))
    linear_combination htwo
  rw [residue, residue, ← AdjoinRoot.mk_X, ← map_mul, eq_comm, AdjoinRoot.mk_eq_mk, hstep]
  exact dvd_mul_right _ _

theorem residue_iterate_step (k : ℕ) (w : BitVec n) :
    residue g ((step g)^[k] w) = AdjoinRoot.root (modulus g) ^ k * residue g w := by
  induction k generalizing w with
  | zero => simp
  | succ k ih => rw [Function.iterate_succ_apply, ih, residue_step, pow_succ, mul_assoc]

/-- Absorbing a word appends its bits to the message. -/
theorem residue_absorb (h : m ≤ n) (w : BitVec n) (b : BitVec m) :
    residue g (absorb g w b) = AdjoinRoot.root (modulus g) ^ m * residue g w +
      AdjoinRoot.mk (modulus g) (ofBits (lsbFirst b) * X ^ n) := by
  have hword : residue g (b.setWidth n) =
      AdjoinRoot.mk (modulus g) (ofBits (lsbFirst b) * X ^ (n - m)) := by
    rw [residue, lsbFirst_setWidth h, ofBits_append, ofBits_replicate_false, add_zero,
      List.length_replicate]
  have hpow : (X : (ZMod 2)[X]) ^ n = X ^ m * X ^ (n - m) := by
    rw [← pow_add, Nat.add_sub_cancel' h]
  rw [absorb, residue_iterate_step, residue_xor, hword, mul_add, hpow, ← AdjoinRoot.mk_X]
  simp only [map_mul, map_pow]
  ring

/-- The register after a message that is absorbed word by word. -/
theorem residue_foldl_absorb (h : m ≤ n) (w : BitVec n) (words : List (BitVec m)) :
    residue g (words.foldl (absorb g) w) =
      AdjoinRoot.mk (modulus g) (ofBits (lsbFirst w) * X ^ (words.flatMap lsbFirst).length +
        ofBits (words.flatMap lsbFirst) * X ^ n) := by
  induction words generalizing w with
  | nil => simp [ofBits, residue]
  | cons b words ih =>
    have habsorb := residue_absorb g h w b
    rw [residue, residue] at habsorb
    rw [List.foldl_cons, ih, List.flatMap_cons, List.length_append, length_lsbFirst, ofBits_append,
      map_add, map_mul, habsorb, ← AdjoinRoot.mk_X]
    simp only [map_add, map_mul, map_pow]
    ring

/-- A register holds a polynomial of degree below its width, so it holds the remainder. -/
theorem ofBits_foldl_absorb (h : m ≤ n) (w : BitVec n) (words : List (BitVec m)) :
    ofBits (lsbFirst (words.foldl (absorb g) w)) =
      (ofBits (lsbFirst w) * X ^ (words.flatMap lsbFirst).length +
        ofBits (words.flatMap lsbFirst) * X ^ n) %ₘ modulus g := by
  have hdvd := AdjoinRoot.mk_eq_mk.1 (residue_foldl_absorb g h w words)
  rw [← modByMonic_eq_of_dvd_sub (modulus_monic g) hdvd, eq_comm,
    modByMonic_eq_self_iff (modulus_monic g), degree_modulus]
  exact degree_ofBits_lsbFirst_lt _

/-! ## Bursts -/

/-- A polynomial whose coefficients vanish outside `n` consecutive powers, and that the modulus divides
when it is multiplied by a power of `X`, is zero. -/
theorem eq_zero_of_dvd (hg : (modulus g).coeff 0 = 1) {p : (ZMod 2)[X]} {low k : ℕ}
    (hcoeff : ∀ d, d < low ∨ low + n ≤ d → p.coeff d = 0) (hdvd : modulus g ∣ p * X ^ k) : p = 0 := by
  have hcoprime : IsCoprime (X : (ZMod 2)[X]) (modulus g) := by
    refine irreducible_X.coprime_iff_not_dvd.2 fun hX => ?_
    rw [X_dvd_iff, hg] at hX
    exact one_ne_zero hX
  obtain ⟨q, rfl⟩ := X_pow_dvd_iff.2 fun d hd => hcoeff d (Or.inl hd)
  have hq : modulus g ∣ q := by
    have hpow : X ^ low * q * X ^ k = X ^ (low + k) * q := by ring
    rw [hpow] at hdvd
    exact (IsCoprime.pow_left hcoprime).symm.dvd_of_dvd_mul_left hdvd
  have hdeg : q.degree < (modulus g).degree := by
    rw [degree_modulus]
    refine (degree_lt_iff_coeff_zero q n).2 fun d hd => ?_
    rw [← coeff_X_pow_mul q low d]
    exact hcoeff _ (Or.inr (by omega))
  rw [eq_zero_of_dvd_of_degree_lt hq hdeg, mul_zero]

/-- Two lists of bits of one length that differ in `n` consecutive places only, and leave the same
remainder, are the same. -/
theorem burst_detected (hg : (modulus g).coeff 0 = 1) {bits bits' : List Bool}
    (hlen : bits.length = bits'.length) {start k : ℕ}
    (hburst : ∀ i, bits[i]? ≠ bits'[i]? → start ≤ i ∧ i < start + n)
    (hdvd : modulus g ∣ ofBits bits * X ^ k - ofBits bits' * X ^ k) : bits = bits' := by
  rw [← sub_mul] at hdvd
  have hcoeff : ∀ d, d < bits.length - (start + n) ∨ bits.length - (start + n) + n ≤ d →
      (ofBits bits - ofBits bits').coeff d = 0 := by
    intro d hd
    rw [coeff_sub, sub_eq_zero]
    by_cases hlt : d < bits.length
    · -- the power `d` belongs to the place `i`, which is outside the window
      obtain ⟨i, hi, rfl⟩ : ∃ i, i < bits.length ∧ bits.length - 1 - i = d :=
        ⟨bits.length - 1 - d, by omega, by omega⟩
      have hi' : i < bits'.length := hlen ▸ hi
      have hsame : bits[i]? = bits'[i]? := by
        by_contra hne
        have := hburst i hne
        omega
      rw [List.getElem?_eq_getElem hi, List.getElem?_eq_getElem hi', Option.some.injEq] at hsame
      have hplace := coeff_ofBits hi
      rw [hplace, hlen, coeff_ofBits hi', hsame]
    · have hdeg := (degree_ofBits_lt bits).trans_le (Nat.cast_le.2 (not_lt.1 hlt))
      have hdeg' := (degree_ofBits_lt bits').trans_le (Nat.cast_le.2 (hlen ▸ not_lt.1 hlt))
      rw [coeff_eq_zero_of_degree_lt hdeg, coeff_eq_zero_of_degree_lt hdeg']
  exact eq_of_ofBits_eq hlen (sub_eq_zero.1 (eq_zero_of_dvd g hg hcoeff hdvd))

theorem length_flatMap_lsbFirst (words : List (BitVec m)) :
    (words.flatMap lsbFirst).length = m * words.length := by
  induction words with
  | nil => rfl
  | cons b words ih =>
    rw [List.flatMap_cons, List.length_append, ih, length_lsbFirst, List.length_cons]
    ring

/-- The register tells such messages apart. -/
theorem foldl_absorb_burst (hg : (modulus g).coeff 0 = 1) (h : m ≤ n) (w : BitVec n)
    {words words' : List (BitVec m)} (hlen : words.length = words'.length) {start : ℕ}
    (hburst : ∀ i, (words.flatMap lsbFirst)[i]? ≠ (words'.flatMap lsbFirst)[i]? →
      start ≤ i ∧ i < start + n)
    (heq : words.foldl (absorb g) w = words'.foldl (absorb g) w) :
    words.flatMap lsbFirst = words'.flatMap lsbFirst := by
  have hbits : (words.flatMap lsbFirst).length = (words'.flatMap lsbFirst).length := by
    rw [length_flatMap_lsbFirst, length_flatMap_lsbFirst, hlen]
  have hresidue := residue_foldl_absorb g h w words
  rw [heq, residue_foldl_absorb g h w words', AdjoinRoot.mk_eq_mk, hbits, add_sub_add_left_eq_sub]
    at hresidue
  exact (burst_detected g hg hbits.symm (fun i hi => hburst i hi.symm) hresidue).symm

end Crc
