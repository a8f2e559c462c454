import Mathlib.Algebra.Polynomial.FieldDivision
import NicObFw.Lib.BitPolynomial

/-!
# CRC utility

`crc32_byte` and `crc32_compute` of `common_types.h`, and the CRC-32 that `crc32_compute` is there for, as
a remainder of polynomials over GF(2).
-/

namespace NicObFw

/-- One of the eight lines of `crc32_byte` that process a bit. -/
def crc32Bit (crc : UInt32) : UInt32 := (crc >>> 1) ^^^ (0xEDB88320 &&& -(crc &&& 1))

/-- `crc32_byte`. -/
def crc32Byte (crc : UInt32) (byte : UInt8) : UInt32 :=
  let crc := crc ^^^ byte.toUInt32
  let crc := crc32Bit crc
  let crc := crc32Bit crc
  let crc := crc32Bit crc
  let crc := crc32Bit crc
  let crc := crc32Bit crc
  let crc := crc32Bit crc
  let crc := crc32Bit crc
  crc32Bit crc

/-- The body of the second loop of `crc32_compute`; `none` beyond the end of the data. -/
def crc32Compute1 (data : List UInt8) (crc : UInt32) (i : ℕ) : Option UInt32 := do
  return crc32Byte crc (← data[i]?)

/-- The body of the unrolled loop. -/
def crc32Compute4 (data : List UInt8) (crc : UInt32) (i : ℕ) : Option UInt32 := do
  let crc := crc32Byte crc (← data[i]?)
  let crc := crc32Byte crc (← data[i + 1]?)
  let crc := crc32Byte crc (← data[i + 2]?)
  return crc32Byte crc (← data[i + 3]?)

/-- `crc32_compute`; `none` if it reads beyond the end of the data. -/
def crc32Compute (data : List UInt8) (len : ℕ) : Option UInt32 := do
  -- `~3U` has 32 bits, also where `size_t` has more
  let unrolled := len &&& 0xFFFFFFFC
  -- `for (i = 0; i < unrolled; i += 4)`, then `for (; i < len; i++)`
  let crc ← (List.range' 0 (unrolled / 4) 4).foldlM (crc32Compute4 data) 0xFFFFFFFF
  let crc ← (List.range' unrolled (len - unrolled)).foldlM (crc32Compute1 data) crc
  return crc ^^^ 0xFFFFFFFF

/-! ## What it computes -/

open Polynomial BitPolynomial

/-- The generator polynomial of CRC-32. -/
noncomputable def crc32Generator : (ZMod 2)[X] :=
  X ^ 32 + X ^ 26 + X ^ 23 + X ^ 22 + X ^ 16 + X ^ 12 + X ^ 11 + X ^ 10 + X ^ 8 + X ^ 7 + X ^ 5 + X ^ 4 +
    X ^ 2 + X + 1

/-- The bits of a message: bytes in order, each byte least significant bit first. -/
def messageBits (data : List UInt8) : List Bool := data.flatMap fun byte => lsbFirst byte.toBitVec

/-- CRC-32 by division: 32 zero bits are appended to the message and its first 32 bits are complemented
(in a message of less than four bytes, some of the zeros too); the remainder, its coefficients in the bits
of a word from the least significant one on, is complemented. -/
noncomputable def crc32 (data : List UInt8) : UInt32 :=
  let dividend := ofBits (complementFirst 32 (messageBits data ++ List.replicate 32 false))
  ~~~ UInt32.ofBitVec (reflected 32 (dividend %ₘ crc32Generator))

end NicObFw
