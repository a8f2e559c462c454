import NicObFw.SpiFlashCmd
import NicObFw.Lib.Machine

/-!
# NIC Flash Manager

The firmware update thread of `nic_flash_mgr.c`. An image is the memory from the pointer `data` on;
the source passes a `NULL` placeholder for it, which is taken to be a readable buffer here.
-/

namespace NicObFw

variable {W : Type} (env : FlashEnv W) (polls : ℕ)

/-! ## Private helpers -/

/-- The number of bytes of the next page program. -/
def pageChunk (remaining : UInt32) : UInt16 :=
  if remaining.toNat > flashPageSize then UInt16.ofNat flashPageSize else remaining.toUInt16

theorem pageChunk_toNat (remaining : UInt32) :
    (pageChunk remaining).toNat = min remaining.toNat 256 := by
  unfold pageChunk
  split
  · rename_i hbig
    show 256 = _
    exact (Nat.min_eq_right (Nat.le_of_lt hbig)).symm
  · rename_i hsmall
    have hle : remaining.toNat ≤ 256 := Nat.not_lt.1 hsmall
    rw [UInt32.toNat_toUInt16, Nat.min_eq_left hle]
    exact Nat.mod_eq_of_lt (by omega)

/-- What remains after a chunk. -/
theorem pageChunk_remaining (remaining : UInt32) :
    (remaining - (pageChunk remaining).toUInt32).toNat = remaining.toNat - 256 := by
  have hc : (pageChunk remaining).toUInt32.toNat = min remaining.toNat 256 := by
    rw [UInt16.toNat_toUInt32, pageChunk_toNat]
  rw [UInt32.toNat_sub_of_le _ _ (UInt32.le_iff_toNat_le.2 (by omega)), hc]
  omega

/-- The first part of the loop body of `write_image_to_staging`: erase the sector if `addr` is at a
sector boundary. -/
def eraseSectorEntered (addr : UInt32) : FlashM W Unit :=
  if addr.toNat % flashSectorSize = 0 then do
    spiFlashCmdWriteEnable env
    spiFlashCmdSectorErase env addr
    spiFlashCmdWaitReady env polls 3000
  else pure ()

/-- The second part of the loop body: write one page. -/
def writePage (addr : UInt32) (data : ℕ → UInt8) (chunk : UInt16) : FlashM W Unit := do
  spiFlashCmdWriteEnable env
  spiFlashCmdPageProgram env addr data chunk
  spiFlashCmdWaitReady env polls 100

/-- The loop of `write_image_to_staging`. -/
def writeImageLoop (addr : UInt32) (data : ℕ → UInt8) (remaining : UInt32) : FlashM W Unit :=
  if remaining > 0 then do
    eraseSectorEntered env polls addr
    let chunk := pageChunk remaining
    writePage env polls addr data chunk
    writeImageLoop (addr + chunk.toUInt32) (fun i => data (chunk.toNat + i))
      (remaining - chunk.toUInt32)
  else pure ()
termination_by remaining.toNat
decreasing_by
  rename_i h
  have : 0 < remaining.toNat := by simpa [UInt32.lt_iff_toNat_lt] using h
  rw [pageChunk_remaining]
  omega

/-- `write_image_to_staging`. -/
def writeImageToStaging (offset : UInt32) (data : ℕ → UInt8) (size : UInt32) : FlashM W Unit :=
  writeImageLoop env polls offset data size

/-! ## The update state machine -/

/-- `fw_update_state_t`. -/
inductive FwUpdateState where
  | idle
  | receiving
  | verifying
  | activating
  | error
deriving DecidableEq, Repr

/-- The static variables of the module. -/
structure FlashMgrState where
  sFwState : FwUpdateState
  sUpdateActive : Bool
deriving DecidableEq, Repr

/-- `handle_update_start`: how it ended, with the static variables it leaves. The state `VERIFYING` is
left at once, so it is never seen from outside. -/
def handleUpdateStart (data : ℕ → UInt8) (cmd : FlashCmd) :
    Traced W FlashEvent RtosErr (FlashMgrState × RtosErr) := do
  let r ← Traced.attempt (writeImageToStaging env polls cmd.imageOffset data cmd.imageSize)
  match r with
  | .ok () => pure (⟨.idle, false⟩, .ok)
  | .error err => pure (⟨.error, true⟩, err)

/-- `handle_update_abort`. -/
def handleUpdateAbort : FlashMgrState × RtosErr := (⟨.idle, false⟩, .ok)

/-- The static variables after `nic_flash_mgr_init`, and its result. -/
def nicFlashMgrInit : FlashM W FlashMgrState := do
  spiFlashCmdInit env
  pure ⟨.idle, false⟩

/-! ## The task -/

/-- The state of `nic_flash_mgr_task`. -/
structure FlashTask (W : Type) where
  st : FlashMgrState
  world : W
  /-- The command being executed has not come to its end. -/
  stuck : Bool

/-- One command for the task, and what it meets: what happened to the world while the task was
blocked, the image, and how often a wait polls before the run is cut off. -/
structure FlashJob (W : Type) where
  cmd : FlashCmd
  elapse : W → W
  data : ℕ → UInt8
  polls : ℕ

/-- `nic_flash_mgr_task`: one step takes a command and executes it. -/
def nicFlashMgrTask : Machine (FlashTask W) (FlashJob W) FlashEvent where
  step t job :=
    if t.stuck then none
    else
      let w := job.elapse t.world
      if job.cmd.cmdType = flashCmdUpdateStart then
        let o := handleUpdateStart env job.polls job.data job.cmd w
        match o.ret with
        | .done (st, _) => some ({ st, world := o.world, stuck := false }, o.trace)
        | _ => some ({ st := ⟨.receiving, true⟩, world := o.world, stuck := true }, o.trace)
      else if job.cmd.cmdType = flashCmdUpdateAbort then
        some ({ t with st := handleUpdateAbort.1, world := w }, [])
      else
        -- `FLASH_CMD_VERIFY` and `FLASH_CMD_ACTIVATE` do nothing yet
        some ({ t with world := w }, [])

end NicObFw
