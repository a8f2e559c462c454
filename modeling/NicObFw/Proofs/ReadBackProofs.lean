import NicObFw.Proofs.FlashReadProofs
import NicObFw.Proofs.FlashSystemProofs

/-!
# Proofs: reading staged images back

`spi_flash_cmd_read` after any run of the system that meets no failure: it delivers the images of the
updates that the BMC was granted.
-/

namespace NicObFw

open NorFlash

variable {W : Type} {env : FlashEnv W} {chipOf : W → Chip}

/-- A read of less than 2^16 bytes whose transfers succeed fills the buffer with what the flash holds. -/
theorem spiFlashCmdRead_bytes {memOf : W → ℕ → UInt8} (hread : ReadsFlash env memOf) {addr len : UInt32}
    (hlen : len.toNat < 2 ^ 16) (hcap : addr.toNat + len.toNat ≤ capacity) {w : W}
    (hspi : ∀ e ∈ (spiFlashCmdRead env addr len w).trace, e.transferFailed = false) :
    ∃ data, (spiFlashCmdRead env addr len w).ret = .done data ∧
      ∀ buf, ∀ i < len.toNat, bufferAfter buf data i = memOf w (addr.toNat + i) := by
  obtain ⟨rx, w', data, w'', hcmd, hdata, hret⟩ := spiFlashCmdRead_succeeds hspi
  refine ⟨data, hret, fun buf i hi => ?_⟩
  have hin : i < len.toUInt16.toNat := by
    rw [UInt32.toNat_toUInt16, Nat.mod_eq_of_lt hlen]
    exact hi
  have haddr : addr24 (addr >>> 16).toUInt8 (addr >>> 8).toUInt8 addr.toUInt8 = addr.toNat := by
    rw [addr24_bytes]
    exact Nat.mod_eq_of_lt (by omega)
  have hbyte := hread w _ _ _ rx w' hcmd _ data w'' hdata i hin
  rw [haddr] at hbyte
  rw [bufferAfter_of_lt buf data hin]
  exact hbyte (by omega)

/-- A read after a run without a failure, while no update is in execution, fills the buffer with what the
executed ones have staged: the image of each, `0xFF` in the rest of its last sector, and the old bytes
outside the sectors of all of them. -/
theorem flashSystem_readsBack (cfg : TickConfig) (env : FlashEnv W) (chipOf : W → Chip)
    (hdev : DrivesChip env chipOf) (hread : ReadsFlash env fun w => (chipOf w).mem) (ticks : ℕ) (w : W)
    (hidle : (chipOf w).busy = false) (acts : List (FlashSystemAction W)) (s : FlashSystem W)
    (tr : List FlashSystemEvent)
    (hrun : (flashSystem cfg env).exec (flashSystemInit cfg ticks w) acts = some (s, tr))
    (hfav : Favourable chipOf acts tr) (addr len : UInt32) (hlen : len.toNat < 2 ^ 16)
    (hcap : addr.toNat + len.toNat ≤ capacity)
    (hspi : ∀ e ∈ (spiFlashCmdRead env addr len s.task.world).trace, e.transferFailed = false)
    (buf : ℕ → UInt8) :
    s.fw.flashTask = none → ∃ data, (spiFlashCmdRead env addr len s.task.world).ret = .done data ∧
      ∀ i < len.toNat, bufferAfter buf data i = stagedAll (chipOf w).mem
        ((flashSystem cfg env).observe commandsExecuted (flashSystemInit cfg ticks w) acts)
        (addr.toNat + i) := by
  intro _
  obtain ⟨data, hret, hdata⟩ := spiFlashCmdRead_bytes hread hlen hcap hspi
  refine ⟨data, hret, fun i hi => ?_⟩
  rw [hdata buf i hi, (staged_of_exec hdev hidle hrun hfav).idle.mem]

/-! ## A flash that can be read -/

/-- A chip that finishes everything at once, and the address of the last `READ` command. -/
def readableEnv : FlashEnv (Chip × ℕ) where
  cfg := ⟨10, 100⟩
  sInitialized := true
  spiDeviceTransmit w tx n :=
    match tx with
    | some tx =>
      (true, Vector.replicate n 0, { w.1.exec (decode tx) with busy := false },
        match tx with
        | [0x03, a, b, c] => addr24 a b c
        | _ => w.2)
    | none => (true, Vector.ofFn fun i => w.1.mem (w.2 + i), w)
  xTaskGetTickCount w := (0, w)
  vTaskDelay w _ := w

theorem readableEnv_drivesChip : DrivesChip readableEnv Prod.fst where
  transmitted := by
    rintro w tx n rx w' - - h
    obtain rfl := congrArg (fun r => r.2.2) h
    exact ⟨rfl, rfl, by simp [readableEnv]⟩
  failed := by
    rintro w tx n rx w' - - h
    simp [readableEnv] at h
  status := by
    rintro w rx w' h -
    obtain rfl := congrArg (fun r => r.2.2) h
    rfl
  tick := fun w => Later.refl w.1
  delay := fun w _ => Later.refl w.1

theorem readableEnv_readsFlash : ReadsFlash readableEnv fun w => w.1.mem := by
  intro w a b c rx w' hcmd n data w'' hdata i hi _
  obtain rfl := congrArg (fun r => r.2.2) hcmd
  obtain rfl := congrArg (fun r => r.2.1) hdata
  have hother : decode [0x03, a, b, c] = .other := rfl
  simp [readableEnv, flashCmdReadData, hother, Chip.exec]

/-- The update of `updateRun`, and a read of its 300 bytes. -/
theorem flashSystem_readsBack_updateRun :
    ∃ s tr, (flashSystem ⟨10, 100⟩ readableEnv).exec
        (flashSystemInit ⟨10, 100⟩ 0 (⟨fun _ => 0, false, false⟩, 0)) updateRun = some (s, tr) ∧
      ∃ data, (spiFlashCmdRead readableEnv 4096 300 s.task.world).ret = .done data ∧
        ∀ i < (300 : UInt32).toNat, bufferAfter (fun _ => 0) data i = stagedAll (fun _ => 0)
          ((flashSystem ⟨10, 100⟩ readableEnv).observe commandsExecuted
            (flashSystemInit ⟨10, 100⟩ 0 (⟨fun _ => 0, false, false⟩, 0)) updateRun)
          ((4096 : UInt32).toNat + i) := by
  have heval : ((flashSystem ⟨10, 100⟩ readableEnv).exec
      (flashSystemInit ⟨10, 100⟩ 0 (⟨fun _ => 0, false, false⟩, 0)) updateRun).any
      (fun r : FlashSystem (Chip × ℕ) × List FlashSystemEvent => decide
        (r.1.fw.flashTask = none ∧ MessagesFit (firmwareEvents r.2) ∧ (∀ e ∈ flashEvents r.2, e.succeeded = true) ∧
          (∀ cmd ∈ grantedUpdates (firmwareEvents r.2), cmd.Stageable) ∧
          ∀ e ∈ (spiFlashCmdRead readableEnv 4096 300 r.1.task.world).trace,
            e.transferFailed = false)) = true := by
    decide +kernel
  obtain ⟨s, tr, hrun, hrest, hfit, hok, hstageable, hspi⟩ := Machine.exists_of_any heval
  exact ⟨s, tr, hrun, flashSystem_readsBack ⟨10, 100⟩ readableEnv Prod.fst readableEnv_drivesChip
    readableEnv_readsFlash 0 (⟨fun _ => 0, false, false⟩, 0) rfl updateRun s tr hrun
    ⟨updateRun_time, hfit, hok, hstageable⟩ 4096 300 (by decide) (by decide) hspi (fun _ => 0) hrest⟩

end NicObFw
