import NicObFw.Crc32
import NicObFw.Lib.Crc
import NicObFw.Lib.Unrolled

/-!
# Proofs: `crc32_compute` is CRC-32

The lines of `crc32_byte` are steps of a shift register whose feedback word is the constant in them, and
`crc32_compute` absorbs the bytes of the message one by one. What the register holds then, and which
errors it detects, is a matter of polynomials.
-/

namespace NicObFw

open Polynomial BitPolynomial

/-- The constant of `crc32_byte`. -/
def crc32Feedback : BitVec 32 := 0xEDB88320#32

/-! ## The register -/

/-- The negated bit is a mask. -/
theorem crc32Bit_toBitVec (crc : UInt32) :
    (crc32Bit crc).toBitVec = Crc.step crc32Feedback crc.toBitVec := by
  have hbit : crc.toBitVec &&& 1#32 = if crc.toBitVec.getLsbD 0 then 1#32 else 0#32 := by
    rw [BitVec.and_one_eq_setWidth_ofBool_getLsbD]
    cases crc.toBitVec.getLsbD 0 <;> rfl
  have hmask : 0xEDB88320#32 &&& -(crc.toBitVec &&& 1#32) =
      if crc.toBitVec.getLsbD 0 then crc32Feedback else 0 := by
    rw [hbit]
    cases crc.toBitVec.getLsbD 0 <;> rfl
  rw [Crc.step, ← hmask]
  rfl

theorem crc32Byte_toBitVec (crc : UInt32) (byte : UInt8) :
    (crc32Byte crc byte).toBitVec = Crc.absorb crc32Feedback crc.toBitVec byte.toBitVec := by
  simp only [crc32Byte, crc32Bit_toBitVec]
  rfl

theorem foldl_crc32Byte_toBitVec (data : List UInt8) (crc : UInt32) :
    (data.foldl crc32Byte crc).toBitVec =
      (data.map UInt8.toBitVec).foldl (Crc.absorb crc32Feedback) crc.toBitVec := by
  induction data generalizing crc with
  | nil => rfl
  | cons byte data ih => rw [List.foldl_cons, ih, crc32Byte_toBitVec, List.map_cons, List.foldl_cons]

/-! ## The loops -/

/-- The mask rounds down to a multiple of four, in a `size_t` of any width. -/
theorem and_mask_eq (len : ℕ) : ∃ k, len &&& 0xFFFFFFFC = 4 * k ∧ 4 * k ≤ len := by
  have hmod : (len &&& 0xFFFFFFFC) % 2 ^ 2 = 0 := by
    rw [Nat.and_mod_two_pow]
    simp
  have hle : len &&& 0xFFFFFFFC ≤ len := Nat.and_le_left
  exact ⟨(len &&& 0xFFFFFFFC) / 4, by omega, by omega⟩

/-- One byte at a time. -/
theorem foldlM_crc32Compute1 (data : List UInt8) (crc : UInt32) {k : ℕ} (hk : k ≤ data.length) :
    (List.range k).foldlM (crc32Compute1 data) crc = some ((data.take k).foldl crc32Byte crc) := by
  induction k with
  | zero => rfl
  | succ k ih =>
    have hlt : k < data.length := hk
    rw [List.range_succ, List.foldlM_append, ih (Nat.le_of_lt hlt), List.take_add_one,
      List.getElem?_eq_getElem hlt, List.foldl_append]
    simp [crc32Compute1, List.getElem?_eq_getElem hlt]

/-- The two loops together read every byte once, in order. -/
theorem crc32Compute_eq_foldl (data : List UInt8) :
    crc32Compute data data.length = some (data.foldl crc32Byte 0xFFFFFFFF ^^^ 0xFFFFFFFF) := by
  obtain ⟨k, hmask, hle⟩ := and_mask_eq data.length
  have hbody : ∀ crc i, crc32Compute4 data crc i = (crc32Compute1 data crc i).bind fun crc =>
      (crc32Compute1 data crc (i + 1)).bind fun crc =>
      (crc32Compute1 data crc (i + 2)).bind fun crc => crc32Compute1 data crc (i + 3) := by
    intro crc i
    simp [crc32Compute4, crc32Compute1, Option.bind_assoc]
  have hloops := Unrolled.foldlM_unrolled hbody hle 0xFFFFFFFF
  rw [foldlM_crc32Compute1 data _ le_rfl, List.take_length] at hloops
  rw [crc32Compute, hmask, Nat.mul_div_cancel_left _ (by decide)]
  simp only [Option.bind_eq_bind, ← Option.bind_assoc, hloops]
  rfl

/-! ## The polynomial -/

/-- The feedback word holds the coefficients of the generator below `X ^ 32`. -/
theorem modulus_crc32Feedback : Crc.modulus crc32Feedback = crc32Generator := by
  have hbits : lsbFirst crc32Feedback =
      [false, false, false, false, false, true, false, false, true, true, false, false, false, false,
        false, true, false, false, false, true, true, true, false, true, true, false, true, true, false,
        true, true, true] := by
    decide
  rw [Crc.modulus, hbits, crc32Generator]
  simp only [ofBits, coefficient, Bool.false_eq_true, if_true, if_false, map_zero, List.length_cons,
    List.length_nil, zero_add, Nat.reduceAdd, zero_mul, map_one, one_mul, pow_one, pow_zero, mul_one,
    add_zero]
  ring

/-- The words that the register absorbs are those of the message. -/
theorem messageBits_eq (data : List UInt8) :
    (data.map UInt8.toBitVec).flatMap lsbFirst = messageBits data :=
  List.flatMap_map ..

/-- What the register holds after the message. -/
theorem ofBits_foldl_crc32Byte (data : List UInt8) :
    ofBits (lsbFirst (data.foldl crc32Byte 0xFFFFFFFF).toBitVec) =
      (ofBits (List.replicate 32 true) * X ^ (messageBits data).length +
        ofBits (messageBits data) * X ^ 32) %ₘ crc32Generator := by
  have hones : lsbFirst (0xFFFFFFFF : UInt32).toBitVec = List.replicate 32 true := by decide
  rw [foldl_crc32Byte_toBitVec, Crc.ofBits_foldl_absorb _ (by decide), messageBits_eq, hones,
    modulus_crc32Feedback]

/-- The dividend of CRC-32: the ones of the initial register complement the first 32 bits. -/
theorem ofBits_dividend (bits : List Bool) :
    ofBits (complementFirst 32 (bits ++ List.replicate 32 false)) =
      ofBits (List.replicate 32 true) * X ^ bits.length + ofBits bits * X ^ 32 := by
  have hlen : (bits ++ List.replicate 32 false).length = bits.length + 32 := by simp
  rw [ofBits_complementFirst (by omega), hlen, Nat.add_sub_cancel, ofBits_append, ofBits_replicate_false,
    List.length_replicate, add_zero, add_comm]

/-- `crc32_compute` is CRC-32, for messages of every length, and its loops together do what one byte at a
time does. -/
theorem crc32Compute_eq (data : List UInt8) :
    crc32Compute data data.length = some (crc32 data) ∧
      crc32Compute data data.length = some (data.foldl crc32Byte 0xFFFFFFFF ^^^ 0xFFFFFFFF) := by
  refine ⟨?_, crc32Compute_eq_foldl data⟩
  have hcomplement : ∀ crc : UInt32, crc ^^^ 0xFFFFFFFF = ~~~ crc := fun crc => UInt32.xor_neg_one
  rw [crc32Compute_eq_foldl, crc32, ofBits_dividend, ← ofBits_foldl_crc32Byte,
    reflected_ofBits_lsbFirst, hcomplement]

example : crc32Compute [0x31, 0x32, 0x33, 0x34, 0x35, 0x36, 0x37, 0x38, 0x39] 9 = some 0xCBF43926 := by
  decide +kernel

/-! ## Bursts -/

theorem messageBits_injective : Function.Injective messageBits := by
  intro data data' h
  induction data generalizing data' with
  | nil =>
    cases data' with
    | nil => rfl
    | cons byte' data' => simp [messageBits, lsbFirst] at h
  | cons byte data ih =>
    cases data' with
    | nil => simp [messageBits, lsbFirst] at h
    | cons byte' data' =>
      obtain ⟨hbyte, hrest⟩ := List.append_inj h (by simp)
      rw [UInt8.toBitVec_inj.1 (lsbFirst_injective hbyte), ih hrest]

theorem coeff_zero_modulus : (Crc.modulus crc32Feedback).coeff 0 = 1 := by
  rw [modulus_crc32Feedback, crc32Generator]
  simp [coeff_one]

/-- Two different messages of one length whose differing bits lie within 32 consecutive ones have
different results. -/
theorem crc32Compute_detectsBurst (data data' : List UInt8) (hlen : data.length = data'.length)
    (hne : data ≠ data') (start : ℕ)
    (hburst : ∀ i, (messageBits data)[i]? ≠ (messageBits data')[i]? → start ≤ i ∧ i < start + 32) :
    crc32Compute data data.length ≠ crc32Compute data' data'.length := by
  intro heq
  rw [crc32Compute_eq_foldl, crc32Compute_eq_foldl, Option.some.injEq, UInt32.xor_left_inj] at heq
  have hregister := congrArg UInt32.toBitVec heq
  rw [foldl_crc32Byte_toBitVec, foldl_crc32Byte_toBitVec] at hregister
  rw [← messageBits_eq, ← messageBits_eq] at hburst
  have hwords : (data.map UInt8.toBitVec).length = (data'.map UInt8.toBitVec).length := by
    rw [List.length_map, List.length_map, hlen]
  have hbits := Crc.foldl_absorb_burst crc32Feedback coeff_zero_modulus (by decide) _ hwords hburst
    hregister
  rw [messageBits_eq, messageBits_eq] at hbits
  exact hne (messageBits_injective hbits)

/-- A burst of 32 bits that straddles five bytes, and the end of the unrolled loop. -/
theorem crc32Compute_detectsBurst_five :
    crc32Compute [0x00, 0x00, 0x00, 0x00, 0x00] 5 ≠ crc32Compute [0x80, 0xFF, 0xFF, 0xFF, 0x7F] 5 := by
  refine crc32Compute_detectsBurst [0x00, 0x00, 0x00, 0x00, 0x00] [0x80, 0xFF, 0xFF, 0xFF, 0x7F] rfl
    (by decide) 7 fun i hi => ?_
  have hplaces : ∀ i < 40, (messageBits [0x00, 0x00, 0x00, 0x00, 0x00])[i]? ≠
      (messageBits [0x80, 0xFF, 0xFF, 0xFF, 0x7F])[i]? → 7 ≤ i ∧ i < 39 := by
    decide
  by_cases hlt : i < 40
  · exact hplaces i hlt hi
  · refine absurd ?_ hi
    rw [List.getElem?_eq_none, List.getElem?_eq_none]
    · exact not_lt.1 hlt
    · exact not_lt.1 hlt

end NicObFw
