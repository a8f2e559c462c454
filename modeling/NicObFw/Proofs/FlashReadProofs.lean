import NicObFw.Proofs.FlashDeviceProofs

/-!
# Proofs: reading the flash

`spi_flash_cmd_read` hands the low 16 bits of the length to the HAL: what lies beyond them is never
transferred.
-/

namespace NicObFw

open Traced NorFlash

variable {W : Type} {env : FlashEnv W}

/-- The bytes of a `READ` command. -/
def readDataTx (addr : UInt32) : List UInt8 := flashCmdReadData :: addrBytes addr

/-- A read whose transfers succeed returns `RTOS_OK`, with the bytes of the second transfer. -/
theorem spiFlashCmdRead_succeeds {addr len : UInt32} {w : W}
    (hspi : ∀ e ∈ (spiFlashCmdRead env addr len w).trace, e.transferFailed = false) :
    ∃ rx w' data w'', env.spiDeviceTransmit w (some (readDataTx addr)) 4 = (true, rx, w') ∧
      env.spiDeviceTransmit w' none len.toUInt16.toNat = (true, data, w'') ∧
      (spiFlashCmdRead env addr len w).ret = .done data := by
  refine (triple_from_start (Q := fun r tr _ => (∀ e ∈ tr, e.transferFailed = false) →
    ∃ rx w' data w'', env.spiDeviceTransmit w (some (readDataTx addr)) 4 = (true, rx, w') ∧
      env.spiDeviceTransmit w' none len.toUInt16.toNat = (true, data, w'') ∧ r = .done data)).1 ?_ hspi
  have hbad : ∀ {tr : List FlashEvent} {e : FlashEvent}, e.transferFailed = true →
      ¬ ∀ x ∈ tr ++ [e], x.transferFailed = false := by
    intro tr e he h
    rw [h e (by simp)] at he
    cases he
  unfold spiFlashCmdRead
  refine triple_seq (M := fun _ _ w₁ => ∃ rx,
    env.spiDeviceTransmit w (some (readDataTx addr)) 4 = (true, rx, w₁))
    (nicChipHalSpiTransfer_triple ?_ ?_ ?_) fun _ => nicChipHalSpiTransfer_triple ?_ ?_ ?_
  · rintro tr _ rx w' ⟨-, rfl⟩ ht
    exact ⟨rx, ht⟩
  · exact fun tr _ rx w' _ _ h => absurd h (hbad rfl)
  · exact fun tr _ _ _ h => absurd h (hbad rfl)
  · rintro tr w' data w'' ⟨rx, ht⟩ hd -
    exact ⟨rx, w', data, w'', ht, hd, rfl⟩
  · exact fun tr _ rx w' _ _ h => absurd h (hbad rfl)
  · exact fun tr _ _ _ h => absurd h (hbad rfl)

theorem bufferAfter_of_lt {n : ℕ} (buf : ℕ → UInt8) (bytes : Vector UInt8 n) {i : ℕ} (hi : i < n) :
    bufferAfter buf bytes i = bytes[i] :=
  Memory.getD_toList bytes hi (buf i)

theorem bufferAfter_of_ge {n : ℕ} (buf : ℕ → UInt8) (bytes : Vector UInt8 n) {i : ℕ} (hi : n ≤ i) :
    bufferAfter buf bytes i = buf i := by
  unfold bufferAfter
  rw [List.getD_eq_getElem?_getD, List.getElem?_eq_none (by simpa using hi)]
  rfl

/-- A read whose transfers succeed is complete exactly for less than 2^16 bytes, or when the bytes that
are not transferred, from the low 16 bits of the length on, happen to be in the buffer already. -/
theorem spiFlashCmdRead_complete_iff (env : FlashEnv W) (memOf : W → ℕ → UInt8)
    (hread : ReadsFlash env memOf) (addr len : UInt32) (hcap : addr.toNat + len.toNat ≤ 2 ^ 24)
    (buf : ℕ → UInt8) (w : W)
    (hspi : ∀ e ∈ (spiFlashCmdRead env addr len w).trace, e.transferFailed = false) :
    (∃ data, (spiFlashCmdRead env addr len w).ret = .done data ∧
      ∀ i < len.toNat, bufferAfter buf data i = memOf w (addr.toNat + i)) ↔
    len.toNat < 2 ^ 16 ∨
      ∀ i, len.toNat % 2 ^ 16 ≤ i → i < len.toNat → buf i = memOf w (addr.toNat + i) := by
  obtain ⟨rx, w', data, w'', hcmd, hdata, hret⟩ := spiFlashCmdRead_succeeds hspi
  have hlow : len.toUInt16.toNat = len.toNat % 2 ^ 16 := UInt32.toNat_toUInt16 len
  -- what is transferred is what the flash holds
  have hgot : ∀ i < len.toNat, i < len.toNat % 2 ^ 16 →
      bufferAfter buf data i = memOf w (addr.toNat + i) := by
    intro i hi hi16
    have hin : i < len.toUInt16.toNat := by
      rw [hlow]
      exact hi16
    have haddr : addr24 (addr >>> 16).toUInt8 (addr >>> 8).toUInt8 addr.toUInt8 = addr.toNat := by
      rw [addr24_bytes]
      exact Nat.mod_eq_of_lt (by unfold capacity; omega)
    have hbyte := hread w _ _ _ rx w' hcmd _ data w'' hdata i hin
    rw [haddr] at hbyte
    rw [bufferAfter_of_lt buf data hin]
    exact hbyte (by unfold capacity; omega)
  constructor
  · rintro ⟨data', hret', hall⟩
    obtain rfl : data = data' := Ret.done.inj (hret.symm.trans hret')
    refine Or.inr fun i hge hi => ?_
    rw [← hall i hi, bufferAfter_of_ge buf data (by rw [hlow]; exact hge)]
  · intro h
    refine ⟨data, hret, fun i hi => ?_⟩
    by_cases hi16 : i < len.toNat % 2 ^ 16
    · exact hgot i hi hi16
    · rw [bufferAfter_of_ge buf data (by rw [hlow]; exact Nat.not_lt.1 hi16)]
      rcases h with hsmall | hold
      · rw [Nat.mod_eq_of_lt hsmall] at hi16
        exact absurd hi hi16
      · exact hold i (Nat.not_lt.1 hi16) hi

/-! ## A flash that reads 0xAA everywhere -/

/-- A flash of bytes `0xAA`, behind a driver that never fails; the world is the address of the last
`READ` command. -/
def readingEnv : FlashEnv ℕ where
  cfg := ⟨10, 100⟩
  sInitialized := true
  spiDeviceTransmit addr tx n :=
    (true, Vector.replicate n 0xAA,
      match tx with
      | some [0x03, a, b, c] => addr24 a b c
      | _ => addr)
  xTaskGetTickCount addr := (0, addr)
  vTaskDelay addr _ := addr

theorem readingEnv_readsFlash : ReadsFlash readingEnv fun _ _ => 0xAA := by
  intro w a b c rx w' _ n data w'' h i hi _
  obtain rfl : Vector.replicate n 0xAA = data := congrArg (fun r => r.2.1) h
  simp

/-- A read of 300 bytes is complete. -/
theorem spiFlashCmdRead_complete_300 :
    ∃ data, (spiFlashCmdRead readingEnv 4096 300 0).ret = .done data ∧
      ∀ i < (300 : UInt32).toNat, bufferAfter (fun _ => 0) data i = 0xAA :=
  (spiFlashCmdRead_complete_iff readingEnv (fun _ _ => 0xAA) readingEnv_readsFlash 4096 300 (by decide)
    (fun _ => 0) 0 (by decide +kernel)).2 (Or.inl (by decide))

/-- A read of 65536 bytes into a buffer of zeros returns `RTOS_OK` and transfers nothing. -/
theorem read_65536_incomplete :
    (∃ data, (spiFlashCmdRead readingEnv 0 65536 0).ret = .done data) ∧
      ¬ ∃ data, (spiFlashCmdRead readingEnv 0 65536 0).ret = .done data ∧
        ∀ i < (65536 : UInt32).toNat, bufferAfter (fun _ => 0) data i = 0xAA := by
  refine ⟨⟨Vector.replicate _ 0xAA, rfl⟩, ?_⟩
  rintro ⟨data, -, h⟩
  have hfirst := h 0 (by decide)
  rw [bufferAfter_of_ge (fun _ => 0) data (by decide)] at hfirst
  cases hfirst

end NicObFw
