import NicObFw.Proofs.FlashDeviceProofs

/-!
# The frame of a staging write

Which bytes `write_image_to_staging` leaves alone. Every chunk changes at most the sector that its
address modulo 2^24 lies in, so an update keeps to its own sectors as long as no chunk begins beyond
the flash; from there on the addresses start again at zero.
-/

namespace NicObFw

open Traced NorFlash

variable {W : Type} {env : FlashEnv W} {chipOf : W → Chip} {polls : ℕ}

/-! ## A byte that no command touches -/

/-- However a transfer ends, it does not change a byte that its command does not touch. -/
theorem DrivesChip.transfer_mem (hdev : DrivesChip env chipOf) {w w' : W} {tx : List UInt8} {n : ℕ}
    {ok : Bool} {rx : Vector UInt8 n} {a : ℕ} (hlen : tx.length = n) (hcmd : decode tx ≠ .other)
    (ha : ¬ (decode tx).Touches a) (ht : env.spiDeviceTransmit w (some tx) n = (ok, rx, w')) :
    (chipOf w').mem a = (chipOf w).mem a := by
  cases ok with
  | true =>
    have h := hdev.transmitted w tx n rx w' hlen hcmd ht
    rw [h.mem, Chip.exec_mem ha]
  | false =>
    rcases hdev.failed w tx n rx w' hlen hcmd ht with h | h
    · rw [h.mem]
    · rw [h.mem, Chip.exec_mem ha]

theorem DrivesChip.waitStable_mem (hdev : DrivesChip env chipOf) (a : ℕ) (v : UInt8) :
    WaitStable env fun _ w => (chipOf w).mem a = v where
  read _ _ _ _ _ h ht := by
    rw [hdev.transfer_mem rfl (by simp) (by simp [Cmd.Touches]) ht, h]
  refused _ _ h := h
  tick _ w h := by rw [(hdev.tick w).mem, h]
  delay _ w ticks h := by rw [(hdev.delay w ticks).mem, h]

theorem sendCommand_frame (hdev : DrivesChip env chipOf) {tx : List UInt8} {n a : ℕ} {v : UInt8}
    (hlen : tx.length = n) (hcmd : decode tx ≠ .other) (ha : ¬ (decode tx).Touches a) :
    Triple (fun _ w => (chipOf w).mem a = v) (sendCommand env tx n) fun _ _ w =>
      (chipOf w).mem a = v := by
  refine sendCommand_triple ?_ ?_ ?_
  · intro tr w rx w' h ht
    rw [hdev.transfer_mem hlen hcmd ha ht, h]
  · intro tr w rx w' h ht
    rw [hdev.transfer_mem hlen hcmd ha ht, h]
  · exact fun _ _ h _ => h

theorem flashOperation_frame (hdev : DrivesChip env chipOf) {tx : List UInt8} {n a : ℕ}
    {timeoutMs : UInt32} {v : UInt8} (hlen : tx.length = n) (hcmd : decode tx ≠ .other)
    (ha : ¬ (decode tx).Touches a) :
    Triple (fun _ w => (chipOf w).mem a = v) (flashOperation env polls tx n timeoutMs)
      fun _ _ w => (chipOf w).mem a = v := by
  have hwe : Triple (fun _ w => (chipOf w).mem a = v) (sendCommand env [flashCmdWriteEnable] 1)
      fun _ _ w => (chipOf w).mem a = v :=
    sendCommand_frame hdev rfl (by simp) (by simp [Cmd.Touches])
  unfold flashOperation
  refine triple_seq hwe.ends fun _ => ?_
  refine triple_seq (sendCommand_frame hdev hlen hcmd ha).ends fun _ => ?_
  exact spiFlashCmdWaitReady_triple (K := fun _ _ => True) (hdev.waitStable_mem a v)
    (fun _ _ _ _ _ _ _ => trivial) polls timeoutMs fun _ _ _ h => h.1

/-- No chunk that is still to be written lies in the sector of `a`. -/
def Clear (a addr remaining : ℕ) : Prop :=
  ∀ k, 256 * k < remaining → (addr + 256 * k) % capacity / 4096 ≠ a / 4096

theorem Clear.next {a : ℕ} {addr remaining : UInt32} (h : Clear a addr.toNat remaining.toNat) :
    Clear a (addr + (pageChunk remaining).toUInt32).toNat
      (remaining - (pageChunk remaining).toUInt32).toNat := by
  intro k hk
  rw [pageChunk_remaining] at hk
  have hk' := h (k + 1) (by omega)
  unfold capacity at hk' ⊢
  rw [nextAddr_toNat]
  have hmin : min remaining.toNat 256 = 256 := by omega
  rw [hmin]
  have : ((addr.toNat + 256) % 2 ^ 32 + 256 * k) % 2 ^ 24 =
      (addr.toNat + 256 * (k + 1)) % 2 ^ 24 := by omega
  rwa [this]

theorem eraseSectorEntered_frame (hdev : DrivesChip env chipOf) {addr : UInt32} {a : ℕ} {v : UInt8}
    (ha : addr.toNat % capacity / 4096 ≠ a / 4096) :
    Triple (fun _ w => (chipOf w).mem a = v) (eraseSectorEntered env polls addr)
      fun _ _ w => (chipOf w).mem a = v := by
  by_cases hboundary : addr.toNat % 4096 = 0
  · rw [eraseSectorEntered_boundary hboundary]
    refine flashOperation_frame hdev rfl (by simp) ?_
    rw [decode_sectorEraseTx]
    exact fun h => ha h.symm
  · rw [eraseSectorEntered_inside hboundary]
    exact triple_pure fun _ _ h => h

theorem writePage_frame (hdev : DrivesChip env chipOf) {addr remaining : UInt32} {a : ℕ} {v : UInt8}
    (data : ℕ → UInt8) (hpos : 0 < remaining.toNat) (ha : addr.toNat % capacity / 4096 ≠ a / 4096) :
    Triple (fun _ w => (chipOf w).mem a = v) (writePage env polls addr data (pageChunk remaining))
      fun _ _ w => (chipOf w).mem a = v := by
  have hlen := pageChunk_toNat remaining
  have hdec := decode_pageProgramTx addr data (show 0 < (pageChunk remaining).toNat by omega)
  rw [writePage_chunk]
  refine flashOperation_frame hdev (by simp) (by simp [hdec]) ?_
  rw [hdec]
  intro h
  have hpage : a / 256 = addr.toNat % capacity / 256 := h
  omega

/-- A byte in whose sector no chunk begins is unchanged, however the write ends. -/
theorem writeImageToStaging_frame (hdev : DrivesChip env chipOf) {offset size : UInt32}
    (data : ℕ → UInt8) (w : W) {a : ℕ} (ha : Clear a offset.toNat size.toNat) :
    (chipOf (writeImageToStaging env polls offset data size w).world).mem a = (chipOf w).mem a := by
  have hclear : ∀ {addr remaining : UInt32}, Clear a addr.toNat remaining.toNat →
      0 < remaining.toNat → addr.toNat % capacity / 4096 ≠ a / 4096 := fun h hpos => h 0 (by omega)
  refine writeImageLoop_triple
    (I := fun addr _ remaining _ w' =>
      Clear a addr.toNat remaining.toNat ∧ (chipOf w').mem a = (chipOf w).mem a)
    (M := fun addr _ remaining _ w' =>
      Clear a addr.toNat remaining.toNat ∧ (chipOf w').mem a = (chipOf w).mem a)
    (Q := fun _ _ w' => (chipOf w').mem a = (chipOf w).mem a) ?_ ?_ ?_ offset data size [] w ⟨ha, rfl⟩
  · intro addr data remaining hpos
    refine triple_of_imp fun h => (eraseSectorEntered_frame hdev (hclear h hpos)).ends_of ?_ ?_
    · exact fun _ _ _ hmem => ⟨h, hmem⟩
    · exact fun _ _ _ hmem => hmem
  · intro addr data remaining hpos
    refine triple_of_imp fun h => (writePage_frame hdev data hpos (hclear h hpos)).ends_of ?_ ?_
    · exact fun _ _ _ hmem => ⟨h.next, hmem⟩
    · exact fun _ _ _ hmem => hmem
  · exact fun _ _ _ _ _ _ h => h.2

/-! ## An update that runs past the end of the flash -/

/-- An operation on a chip that finishes everything at once. -/
theorem flashOperation_ideal {P N : (ℕ → UInt8) → Prop} {tx : List UInt8} {n : ℕ}
    {timeoutMs : UInt32} {Q : Ret RtosErr Unit → List FlashEvent → Chip → Prop}
    (hcmd : ∀ c : Chip, c.wel = true → c.busy = false → P c.mem → N (c.exec (decode tx)).mem) :
    Triple (fun _ c => c.busy = false ∧ P c.mem) (flashOperation idealEnv 1 tx n timeoutMs)
      (Ends (fun _ _ c => c.busy = false ∧ N c.mem) Q) := by
  rintro tr c ⟨hb, hp⟩
  have hret : (flashOperation idealEnv 1 tx n timeoutMs c).ret = .done () := rfl
  have hworld : (flashOperation idealEnv 1 tx n timeoutMs c).world =
      { Chip.exec { c.exec .writeEnable with busy := false } (decode tx) with busy := false } := rfl
  have hwe : c.exec .writeEnable = { c with wel := true } := by simp [Chip.exec, hb]
  rw [hret, hworld, hwe]
  exact ⟨rfl, hcmd { c with wel := true, busy := false } rfl rfl hp⟩

/-- The byte has been cleared or erased. -/
def Wiped (x : ℕ) (mem : ℕ → UInt8) : Prop := mem x = 0 ∨ mem x = 0xFF

theorem Wiped.erased {x : ℕ} {mem : ℕ → UInt8} (h : Wiped x mem) (addr : ℕ) :
    Wiped x (erased mem addr) := by
  show (if _ then _ else _) = _ ∨ (if _ then _ else _) = _
  split
  · exact Or.inr rfl
  · exact h

theorem Wiped.programmed {x : ℕ} {mem : ℕ → UInt8} (h : Wiped x mem) (addr : ℕ) {data : List UInt8}
    (h0 : ∀ byte ∈ data, byte = 0) : Wiped x (programmed mem addr data) := by
  unfold Wiped
  rcases programmed_zero mem addr x h0 with hz | hz
  · exact Or.inl hz
  · rw [hz]
    exact h

/-- A chunk that is still to be written begins at the byte. -/
def StillWiped (x addr remaining : ℕ) : Prop :=
  ∃ k, 256 * k < remaining ∧ (addr + 256 * k) % capacity = x

theorem eraseSectorEntered_wipes {x : ℕ} {addr : UInt32} {φ : Prop}
    {Q : Ret RtosErr Unit → List FlashEvent → Chip → Prop} :
    Triple (fun _ c => c.busy = false ∧ (Wiped x c.mem ∨ φ)) (eraseSectorEntered idealEnv 1 addr)
      (Ends (fun _ _ c => c.busy = false ∧ (Wiped x c.mem ∨ φ)) Q) := by
  by_cases hboundary : addr.toNat % 4096 = 0
  · rw [eraseSectorEntered_boundary hboundary]
    refine flashOperation_ideal (P := fun mem => Wiped x mem ∨ φ) (N := fun mem => Wiped x mem ∨ φ) ?_
    intro c hwel hbusy h
    simp only [decode_sectorEraseTx, Chip.exec, hwel, hbusy]
    exact h.imp_left fun h => h.erased _
  · rw [eraseSectorEntered_inside hboundary]
    exact triple_pure fun _ _ h => h

theorem writePage_wipes {x : ℕ} {addr remaining : UInt32} (hpos : 0 < remaining.toNat)
    {Q : Ret RtosErr Unit → List FlashEvent → Chip → Prop} :
    Triple (fun _ c => c.busy = false ∧ (Wiped x c.mem ∨ StillWiped x addr.toNat remaining.toNat))
      (writePage idealEnv 1 addr (fun _ => 0) (pageChunk remaining))
      (Ends (fun _ _ c => c.busy = false ∧
        (Wiped x c.mem ∨ StillWiped x (addr + (pageChunk remaining).toUInt32).toNat
          (remaining - (pageChunk remaining).toUInt32).toNat)) Q) := by
  have hlen := pageChunk_toNat remaining
  have hzero : ∀ byte ∈ (List.range (pageChunk remaining).toNat).map fun _ => (0 : UInt8),
      byte = 0 := by simp
  rw [writePage_chunk]
  refine flashOperation_ideal
    (P := fun mem => Wiped x mem ∨ StillWiped x addr.toNat remaining.toNat)
    (N := fun mem => Wiped x mem ∨ StillWiped x (addr + (pageChunk remaining).toUInt32).toNat
      (remaining - (pageChunk remaining).toUInt32).toNat) ?_
  intro c hwel hbusy h
  simp only [decode_pageProgramTx addr _ (show 0 < (pageChunk remaining).toNat by omega), Chip.exec,
    hwel, hbusy]
  rcases h with h | ⟨k, hk, hx⟩
  · exact Or.inl (h.programmed _ hzero)
  · cases k with
    | zero =>
      -- this chunk begins at the byte
      left; left
      subst hx
      show programmed c.mem (addr.toNat % capacity) _ (addr.toNat % capacity) = 0
      rw [programmed_start (by simp; omega) (by simp [pageSize]; omega)]
      simp
    | succ k =>
      refine Or.inr ⟨k, by rw [pageChunk_remaining]; omega, ?_⟩
      unfold capacity at hx ⊢
      rw [nextAddr_toNat]
      omega

/-- With an image of zeros, a byte at which a chunk begins does not survive. -/
theorem writeImageToStaging_wipes {offset size : UInt32} {x : ℕ} {c : Chip}
    (hx : StillWiped x offset.toNat size.toNat) (hb : c.busy = false) :
    (writeImageToStaging idealEnv 1 offset (fun _ => 0) size c).ret = .done () ∧
      Wiped x (writeImageToStaging idealEnv 1 offset (fun _ => 0) size c).world.mem := by
  refine writeImageLoop_triple
    (I := fun addr data remaining _ c => (data = fun _ => 0) ∧
      (c.busy = false ∧ (Wiped x c.mem ∨ StillWiped x addr.toNat remaining.toNat)))
    (M := fun addr data remaining _ c => (data = fun _ => 0) ∧
      (c.busy = false ∧ (Wiped x c.mem ∨ StillWiped x addr.toNat remaining.toNat)))
    (Q := fun r _ c => r = .done () ∧ Wiped x c.mem) ?_ ?_ ?_ offset _ size [] c
    ⟨rfl, hb, Or.inr hx⟩
  · intro addr data remaining hpos
    refine triple_of_imp fun hdata => ?_
    exact eraseSectorEntered_wipes.done_imp fun _ _ _ h => ⟨hdata, h⟩
  · intro addr data remaining hpos
    refine triple_of_imp fun hdata => ?_
    subst hdata
    exact (writePage_wipes hpos).done_imp fun _ _ _ h => ⟨rfl, h⟩
  · rintro addr data remaining tr c hzero ⟨-, -, h | ⟨k, hk, -⟩⟩
    · exact ⟨rfl, h⟩
    · omega

/-! ## Updates that keep to their range -/

/-- No chunk of such an update begins in the sector of a byte outside its sectors. -/
theorem clear_of_outside {offset size a : ℕ}
    (h : size = 0 ∨ offset < 4096 ∨ offset + 256 * ((size - 1) / 256) < 2 ^ 24) (ha : a < capacity)
    (hout : ¬ InUpdateSectors offset size a) : Clear a offset size := by
  unfold capacity at ha
  intro k hk hsec
  unfold capacity at hsec
  by_cases hin : offset + 256 * k < 2 ^ 24
  · rw [Nat.mod_eq_of_lt hin] at hsec
    exact hout ⟨offset + 256 * k, by omega, by omega, hsec⟩
  · -- the range covers the flash from its first sector to its end
    have hfirst : offset < 4096 := by omega
    by_cases hle : offset ≤ a
    · exact hout ⟨a, hle, by omega, rfl⟩
    · exact hout ⟨offset, Nat.le_refl _, by omega, by unfold sectorSize; omega⟩

/-- A chunk of any other update begins at a byte outside its sectors. -/
theorem exists_stillWiped {offset size : ℕ}
    (h : ¬ (size = 0 ∨ offset < 4096 ∨ offset + 256 * ((size - 1) / 256) < 2 ^ 24)) :
    ∃ x, x < capacity ∧ StillWiped x offset size ∧ ¬ InUpdateSectors offset size x := by
  unfold capacity StillWiped InUpdateSectors capacity sectorSize
  by_cases hfar : 2 ^ 24 ≤ offset
  · refine ⟨offset % 2 ^ 24, by omega, ⟨0, by omega, by simp⟩, ?_⟩
    rintro ⟨b, hle, -, hsec⟩
    omega
  · refine ⟨offset + 256 * ((2 ^ 24 - offset + 255) / 256) - 2 ^ 24, by omega,
      ⟨(2 ^ 24 - offset + 255) / 256, by omega, by omega⟩, ?_⟩
    rintro ⟨b, hle, -, hsec⟩
    omega

/-- The update that a `REQUEST_UPDATE` message asks for keeps to its range exactly when it is empty,
or no chunk of it begins beyond the flash, or its range begins in the first sector, and so covers the
whole flash if it runs past its end. -/
theorem requestUpdate_keepsToRange_iff (msg : PldmMsg) :
    KeepsToRange (requestUpdateCmd msg) (requestedRange msg) ↔
      (requestedRange msg).2 = 0 ∨ (requestedRange msg).1 < 4096 ∨
        (requestedRange msg).1 + 256 * (((requestedRange msg).2 - 1) / 256) < 2 ^ 24 := by
  obtain ⟨hoffset, hsize⟩ := requestUpdateCmd_range msg
  unfold KeepsToRange
  rw [← hoffset, ← hsize]
  constructor
  · intro hkeeps
    by_contra hno
    obtain ⟨x, hx, hwiped, hout⟩ := exists_stillWiped hno
    obtain ⟨hret, hmem⟩ := writeImageToStaging_wipes (c := ⟨fun _ => 0xAA, false, false⟩) hwiped rfl
    have hkept := hkeeps Chip idealEnv id idealEnv_drivesChip 1 (fun _ => 0)
      ⟨fun _ => 0xAA, false, false⟩ (by rw [hret]; simp) x hx hout
    rcases hmem with h0 | hff
    · exact absurd (show (0xAA : UInt8) = 0 from hkept.symm.trans h0) (by decide)
    · exact absurd (show (0xAA : UInt8) = 0xFF from hkept.symm.trans hff) (by decide)
  · intro h W env chipOf hdev polls image w _ a ha hout
    exact writeImageToStaging_frame hdev image w (clear_of_outside h ha hout)

/-- A request for the one byte at 2^24. -/
def beyondFlashMsg : PldmMsg where
  instanceId := 0
  pldmType := pldmTypeFwUpdate
  command := pldmCmdRequestUpdate
  completionCode := 0
  payloadLen := 8
  reserved := 0
  payload := Vector.ofFn fun i => if i.val = 3 ∨ i.val = 4 then 1 else 0

/-- The update of the byte at 2^24 erases the first sector and programs the byte at 0. -/
theorem beyondFlash_wraps :
    requestedRange beyondFlashMsg = (2 ^ 24, 1) ∧
      ¬ KeepsToRange (requestUpdateCmd beyondFlashMsg) (requestedRange beyondFlashMsg) := by
  refine ⟨by decide +kernel, fun hkeeps => ?_⟩
  have hkept := hkeeps Chip idealEnv id idealEnv_drivesChip 1 (fun _ => 0)
    ⟨fun _ => 0xAA, false, false⟩ (by decide +kernel) 0 (by decide)
  rw [show requestedRange beyondFlashMsg = (2 ^ 24, 1) by decide +kernel] at hkept
  have hout : ¬ InUpdateSectors (2 ^ 24) 1 0 := by
    rintro ⟨b, hle, -, hsec⟩
    unfold sectorSize at hsec
    omega
  exact absurd (hkept hout) (by decide +kernel)

end NicObFw
