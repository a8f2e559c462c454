import NicObFw.NicFlashMgr

/-!
# The flash behind the SPI bus

What the flash thread relies on, and what is expected of it. `DrivesChip` says that the SPI driver and
the wires carry commands to a JEDEC flash; the predicates on traces say when commands are legal.
-/

namespace NicObFw

open NorFlash

/-! ## The device -/

/-- The transactions of `env` reach a flash chip, whose state in a world is given by `chipOf`. A
transaction that fails may have reached the chip or not. Time may pass in every call. -/
structure DrivesChip {W : Type} (env : FlashEnv W) (chipOf : W → Chip) : Prop where
  transmitted : ∀ w tx n rx w', tx.length = n → decode tx ≠ .other →
    env.spiDeviceTransmit w (some tx) n = (true, rx, w') →
    Later ((chipOf w).exec (decode tx)) (chipOf w')
  failed : ∀ w tx n rx w', tx.length = n → decode tx ≠ .other →
    env.spiDeviceTransmit w (some tx) n = (false, rx, w') →
    Later (chipOf w) (chipOf w') ∨ Later ((chipOf w).exec (decode tx)) (chipOf w')
  /-- A status register read with the busy bit clear comes from a chip that is not busy. -/
  status : ∀ w (rx : Vector UInt8 2) w',
    env.spiDeviceTransmit w (some [flashCmdReadStatus, 0x00]) 2 = (true, rx, w') →
    statusByte rx &&& flashStatusBusy = 0 → (chipOf w').busy = false
  tick : ∀ w, Later (chipOf w) (chipOf (env.xTaskGetTickCount w).2)
  delay : ∀ w ticks, Later (chipOf w) (chipOf (env.vTaskDelay w ticks))

/-- A `READ` command goes on in the transfer that follows it: the transfer delivers the bytes from the
address of the command on, as long as they lie inside the flash. -/
def ReadsFlash {W : Type} (env : FlashEnv W) (memOf : W → ℕ → UInt8) : Prop :=
  ∀ w a b c rx w', env.spiDeviceTransmit w (some [flashCmdReadData, a, b, c]) 4 = (true, rx, w') →
    ∀ n (data : Vector UInt8 n) w'', env.spiDeviceTransmit w' none n = (true, data, w'') →
      ∀ (i : ℕ) (hi : i < n), addr24 a b c + i < capacity →
        data[i] = memOf w (addr24 a b c + i)

/-- The memory from the pointer `buf` on, after the bytes of a transfer have been stored there. -/
def bufferAfter {n : ℕ} (buf : ℕ → UInt8) (bytes : Vector UInt8 n) : ℕ → UInt8 :=
  fun i => bytes.toList.getD i (buf i)

/-- A chip that finishes everything at once, behind a driver that never fails. -/
def idealEnv : FlashEnv Chip where
  cfg := ⟨10, 100⟩
  sInitialized := true
  spiDeviceTransmit c tx n :=
    (true, Vector.replicate n 0,
      match tx with
      | some tx => { c.exec (decode tx) with busy := false }
      | none => c)
  xTaskGetTickCount c := (0, c)
  vTaskDelay c _ := c

theorem idealEnv_drivesChip : DrivesChip idealEnv id where
  transmitted := by
    rintro c tx n rx c' - - h
    obtain rfl := congrArg (fun r => r.2.2) h
    exact ⟨rfl, rfl, by simp [idealEnv]⟩
  failed := by
    rintro c tx n rx c' - - h
    simp [idealEnv] at h
  status := by
    rintro c rx c' h -
    obtain rfl := congrArg (fun r => r.2.2) h
    rfl
  tick := fun c => Later.refl c
  delay := fun c _ => Later.refl c

/-! ## Commands in a trace -/

/-- The command that a transaction gave to the flash. -/
def FlashEvent.cmd : FlashEvent → Option Cmd
  | .spi (some tx) _ _ => some (decode tx)
  | _ => none

/-- The transaction, or the wait, succeeded. -/
def FlashEvent.succeeded : FlashEvent → Bool
  | .spi _ _ ok => ok
  | .spiRefused _ => false
  | .waitReady _ ret => ret = .done ()

/-- A transfer that the driver or the HAL ended with an error. -/
def FlashEvent.transferFailed : FlashEvent → Bool
  | .spi _ _ ok => !ok
  | .spiRefused _ => true
  | .waitReady _ _ => false

/-- A wait that ended with `RTOS_ERR_TIMEOUT`. -/
def FlashEvent.timedOut : FlashEvent → Bool
  | .waitReady _ ret => ret = .error .timeout
  | _ => false

/-- A failed transfer, or a wait that timed out. -/
def FlashEvent.fails (e : FlashEvent) : Bool := e.transferFailed || e.timedOut

/-- A transaction was handed to the HAL. -/
def FlashEvent.isTransaction : FlashEvent → Bool
  | .spi _ _ _ => true
  | .spiRefused _ => true
  | .waitReady _ _ => false

/-- An erase or a program. -/
def FlashEvent.modifies (e : FlashEvent) : Bool :=
  match e.cmd with
  | some (.sectorErase _) => true
  | some (.pageProgram _ _) => true
  | _ => false

/-- A command that a busy flash ignores. -/
def FlashEvent.needsReady (e : FlashEvent) : Bool :=
  e.modifies || e.cmd = some .writeEnable

/-- A status read that found `FLASH_STATUS_BUSY` clear. -/
def FlashEvent.seesReady : FlashEvent → Bool
  | .spi (some tx) rx true =>
    decode tx = .readStatus && rx.getD 1 flashStatusBusy &&& flashStatusBusy = 0
  | _ => false

/-- What an entry shows of the pages: whether a page program waits for its end, and the number of those
whose wait has completed. -/
def pageStep (p : Bool × ℕ) : FlashEvent → Bool × ℕ
  | .spi (some tx) _ true =>
    match decode tx with
    | .pageProgram _ _ => (true, p.2)
    | _ => p
  | .waitReady _ (.done ()) => (false, if p.1 then p.2 + 1 else p.2)
  | _ => p

/-- What a trace shows of the pages. -/
def pageProgress (tr : List FlashEvent) : Bool × ℕ := tr.foldl pageStep (false, 0)

/-- The number of page programs whose wait has completed. -/
def completedPages (tr : List FlashEvent) : ℕ := (pageProgress tr).2

/-- The trace ends at its first failure: nothing failed before it, and no transaction comes after. -/
def StopsAtFailure (tr : List FlashEvent) : Prop :=
  ∃ before e after, tr = before ++ e :: after ∧ (∀ x ∈ before, x.fails = false) ∧ e.fails = true ∧
    ∀ x ∈ after, x.isTransaction = false

/-! ## Legal programming -/

/-- The sector of the address `a` has been erased in the trace. -/
def SectorErased (tr : List FlashEvent) (a : ℕ) : Prop :=
  ∃ e ∈ tr, e.succeeded = true ∧
    ∃ addr, e.cmd = some (.sectorErase addr) ∧ addr / sectorSize = a / sectorSize

/-- A program stays inside one page, and every byte that it targets lies in a sector erased before. -/
def ProgramLegal (tr : List FlashEvent) (e : FlashEvent) : Prop :=
  ∀ addr data, e.cmd = some (.pageProgram addr data) →
    addr % pageSize + data.length ≤ pageSize ∧ ∀ i < data.length, SectorErased tr (addr + i)

/-! ## Respecting a busy device -/

/-- The erase or program issued last, if any, has since been seen finished. -/
def settled (tr : List FlashEvent) : Bool :=
  tr.foldl (fun before e => e.seesReady || (before && !e.modifies)) true

/-- A command that a busy flash ignores comes when the last operation has been seen finished. -/
def CommandedReady (tr : List FlashEvent) (e : FlashEvent) : Prop :=
  e.needsReady = true → settled tr = true

/-! ## The history of the update thread -/

/-- The commands that a run of the task has taken, each with what its execution reported. -/
def takenCmds {W : Type} (env : FlashEnv W) (t : FlashTask W) (jobs : List (FlashJob W)) :
    List (FlashCmd × List FlashEvent) :=
  (nicFlashMgrTask env).observe (fun _ job evs => [(job.cmd, evs)]) t jobs

/-- `FLASH_CMD_UPDATE_START` or `FLASH_CMD_UPDATE_ABORT`. -/
def FlashCmd.isUpdate (cmd : FlashCmd) : Bool :=
  cmd.cmdType = flashCmdUpdateStart || cmd.cmdType = flashCmdUpdateAbort

/-- The last update command of the history started an update during which something failed. -/
def LastUpdateFailed (taken : List (FlashCmd × List FlashEvent)) : Prop :=
  ∃ cmd evs, (taken.filter fun c => c.1.isUpdate).getLast? = some (cmd, evs) ∧
    cmd.cmdType = flashCmdUpdateStart ∧ ∃ e ∈ evs, e.fails = true

/-! ## Addresses of an update -/

/-- The address lies in a sector that overlaps the range of `size` bytes from `offset` on. -/
def InUpdateSectors (offset size a : ℕ) : Prop :=
  ∃ b, offset ≤ b ∧ b < offset + size ∧ b / sectorSize = a / sectorSize

/-- What the flash holds after an image has been staged: the image, `0xFF` in the rest of the last
sector, and the old bytes everywhere else. -/
def stagedMem (old : ℕ → UInt8) (offset size : ℕ) (image : ℕ → UInt8) (a : ℕ) : UInt8 :=
  if offset ≤ a ∧ a < offset + size then image (a - offset)
  else if offset + size ≤ a ∧ a < (offset + size + sectorSize - 1) / sectorSize * sectorSize then 0xFF
  else old a

/-- The range that the payload of a `REQUEST_UPDATE` message asks for: two 32-bit numbers, least
significant byte first. -/
def requestedRange (msg : PldmMsg) : ℕ × ℕ :=
  let byte := fun i => (msg.payload.toList.getD i 0).toNat
  let le32 := fun i =>
    byte i + 2 ^ 8 * byte (i + 1) + 2 ^ 16 * byte (i + 2) + 2 ^ 24 * byte (i + 3)
  if 8 ≤ msg.payloadLen.toNat then (le32 0, le32 4) else (0, 0)

/-- The update `cmd` leaves every byte alone that lies outside the sectors of `range`, on every device,
with every image and from every old content, once the staging write has returned. -/
def KeepsToRange (cmd : FlashCmd) (range : ℕ × ℕ) : Prop :=
  ∀ (W : Type) (env : FlashEnv W) (chipOf : W → Chip), DrivesChip env chipOf →
    ∀ (polls : ℕ) (image : ℕ → UInt8) (w : W),
      (writeImageToStaging env polls cmd.imageOffset image cmd.imageSize w).ret ≠ .running →
      ∀ a < capacity, ¬ InUpdateSectors range.1 range.2 a →
        (chipOf (writeImageToStaging env polls cmd.imageOffset image cmd.imageSize w).world).mem a =
          (chipOf w).mem a

end NicObFw
