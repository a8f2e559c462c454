import NicObFw.BmcMgr
import NicObFw.FlashDevice
import NicObFw.Proofs.SpiFlashProofs

/-!
# Commands and addresses

What the transactions of the flash thread say to the flash, and the arithmetic of the addresses that
the staging loop runs through.
-/

namespace NicObFw

open NorFlash

/-! ## The commands that the transactions carry -/

@[simp] theorem cmd_writeEnable (rx : List UInt8) (ok : Bool) :
    FlashEvent.cmd (.spi (some [flashCmdWriteEnable]) rx ok) = some .writeEnable := rfl

@[simp] theorem cmd_readStatus (rx : List UInt8) (ok : Bool) :
    FlashEvent.cmd (.spi (some readStatusTx) rx ok) = some .readStatus := rfl

@[simp] theorem decode_writeEnableTx : decode [flashCmdWriteEnable] = .writeEnable := rfl

@[simp] theorem decode_readStatusTx : decode readStatusTx = .readStatus := rfl

@[simp] theorem decode_sectorEraseTx (addr : UInt32) :
    decode (sectorEraseTx addr) = .sectorErase (addr.toNat % capacity) := by
  show decode [0x20, _, _, _] = _
  rw [decode_sectorErase, addr24_bytes]

@[simp] theorem cmd_sectorEraseTx (addr : UInt32) (rx : List UInt8) (ok : Bool) :
    FlashEvent.cmd (.spi (some (sectorEraseTx addr)) rx ok) =
      some (.sectorErase (addr.toNat % capacity)) :=
  congrArg some (decode_sectorEraseTx addr)

theorem decode_pageProgramTx (addr : UInt32) (data : ℕ → UInt8) {len : ℕ} (h : 0 < len) :
    decode (pageProgramTx addr data len) =
      .pageProgram (addr.toNat % capacity) ((List.range len).map data) := by
  show decode (0x02 :: _ :: _ :: _ :: (List.range len).map data) = _
  rw [decode_pageProgram _ _ _ (by simp; omega), addr24_bytes]

@[simp] theorem cmd_pageProgramTx (addr : UInt32) (data : ℕ → UInt8) {len : ℕ} (h : 0 < len)
    (rx : List UInt8) (ok : Bool) :
    FlashEvent.cmd (.spi (some (pageProgramTx addr data len)) rx ok) =
      some (.pageProgram (addr.toNat % capacity) ((List.range len).map data)) :=
  congrArg some (decode_pageProgramTx addr data h)

@[simp] theorem length_sectorEraseTx (addr : UInt32) : (sectorEraseTx addr).length = 4 := rfl

@[simp] theorem length_pageProgramTx (addr : UInt32) (data : ℕ → UInt8) (len : ℕ) :
    (pageProgramTx addr data len).length = 4 + len := by
  simp [pageProgramTx, addrBytes]
  omega

/-! ## Addresses -/

/-- The address of the next chunk. -/
theorem nextAddr_toNat (addr remaining : UInt32) :
    (addr + (pageChunk remaining).toUInt32).toNat =
      (addr.toNat + min remaining.toNat 256) % 2 ^ 32 := by
  rw [UInt32.toNat_add, UInt16.toNat_toUInt32, pageChunk_toNat]

/-! ## The range of an update -/

/-- Joining a byte to the bits below it. -/
theorem or_shiftLeft_toNat (x : UInt32) (b : UInt8) {k : UInt32} (hk : k.toNat ≤ 24)
    (hx : x.toNat < 2 ^ k.toNat) :
    (x ||| b.toUInt32 <<< k).toNat = x.toNat + 2 ^ k.toNat * b.toNat := by
  have hb := b.toNat_lt
  have hfits : b.toNat * 2 ^ k.toNat < 2 ^ 32 :=
    calc b.toNat * 2 ^ k.toNat < 2 ^ 8 * 2 ^ 24 :=
          Nat.mul_lt_mul_of_lt_of_le hb (Nat.pow_le_pow_right (by decide) hk) (by decide)
      _ = 2 ^ 32 := by decide
  have hk' : k.toNat % 32 = k.toNat := Nat.mod_eq_of_lt (by omega)
  rw [UInt32.toNat_or, UInt32.toNat_shiftLeft, UInt8.toNat_toUInt32, hk', Nat.shiftLeft_eq,
    Nat.mod_eq_of_lt hfits, Nat.or_comm, Nat.mul_comm, ← Nat.two_pow_add_eq_or_of_lt hx, Nat.add_comm]

theorem uint32Of_toNat (b0 b1 b2 b3 : UInt8) :
    (uint32Of b0 b1 b2 b3).toNat =
      b0.toNat + 2 ^ 8 * b1.toNat + 2 ^ 16 * b2.toNat + 2 ^ 24 * b3.toNat := by
  have h0 : b0.toUInt32.toNat = b0.toNat := by simp
  have h0' := b0.toNat_lt
  have h1' := b1.toNat_lt
  have h2' := b2.toNat_lt
  have h1 := or_shiftLeft_toNat b0.toUInt32 b1 (k := 8) (by decide) (by rw [h0]; exact h0')
  rw [h0] at h1
  have h2 := or_shiftLeft_toNat _ b2 (k := 16) (by decide) (by rw [h1]; show _ < 2 ^ 16; simp; omega)
  rw [h1] at h2
  have h3 := or_shiftLeft_toNat _ b3 (k := 24) (by decide) (by rw [h2]; show _ < 2 ^ 24; simp; omega)
  rw [h2] at h3
  exact h3

/-- The command posted for a `REQUEST_UPDATE` message carries the range that its payload asks for. -/
theorem requestUpdateCmd_range (msg : PldmMsg) :
    (requestUpdateCmd msg).imageOffset.toNat = (requestedRange msg).1 ∧
      (requestUpdateCmd msg).imageSize.toNat = (requestedRange msg).2 := by
  unfold requestUpdateCmd requestedRange
  have hbyte : ∀ (i : ℕ) (hi : i < pldmMaxPayload),
      msg.payload.toList.getD i 0 = msg.payload[i] := fun i hi => Memory.getD_toList msg.payload hi 0
  by_cases h : 8 ≤ msg.payloadLen.toNat
  · simp only [ge_iff_le, if_pos h, uint32Of_toNat]
    refine ⟨?_, ?_⟩
    · rw [hbyte 0 (by decide), hbyte (0 + 1) (by decide), hbyte (0 + 2) (by decide),
        hbyte (0 + 3) (by decide)]
    · rw [hbyte 4 (by decide), hbyte (4 + 1) (by decide), hbyte (4 + 2) (by decide),
        hbyte (4 + 3) (by decide)]
  · simp only [ge_iff_le, if_neg h]
    exact ⟨rfl, rfl⟩

end NicObFw
