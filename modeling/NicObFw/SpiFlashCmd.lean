import NicObFw.CommonTypes
import NicObFw.NicChipHal

/-!
# SPI flash commands

The JEDEC command layer of `spi_flash_cmd.c`. Polling for the end of an operation is bounded by a
number of status reads; a program that has used them up is still running.
-/

namespace NicObFw

def flashCmdWriteEnable : UInt8 := 0x06
def flashCmdReadStatus : UInt8 := 0x05
def flashCmdPageProgram : UInt8 := 0x02
def flashCmdSectorErase : UInt8 := 0x20
def flashCmdReadData : UInt8 := 0x03
def flashCmdReadJedecId : UInt8 := 0x9F

def flashStatusBusy : UInt8 := 0x01

/-- The three address bytes of a command, as the source lays them out. -/
def addrBytes (addr : UInt32) : List UInt8 :=
  [(addr >>> 16).toUInt8, (addr >>> 8).toUInt8, addr.toUInt8]

variable {W : Type} (env : FlashEnv W)

/-! ## Private helpers -/

/-- `send_cmd_with_addr`. -/
def sendCmdWithAddr (cmd : UInt8) (addr : UInt32) : FlashM W Unit := do
  let _ ← nicChipHalSpiTransfer env (some (cmd :: addrBytes addr)) 4
  pure ()

/-- `rx[1]` of `read_status`. -/
def statusByte (rx : Vector UInt8 2) : UInt8 := rx[1]

/-- `read_status`. -/
def readStatus : FlashM W UInt8 := do
  let rx ← nicChipHalSpiTransfer env (some [flashCmdReadStatus, 0x00]) 2
  pure (statusByte rx)

/-! ## Public API -/

/-- `spi_flash_cmd_read_id`: manufacturer, device type and capacity. -/
def spiFlashCmdReadId : FlashM W (UInt8 × UInt8 × UInt8) := do
  let rx ← nicChipHalSpiTransfer env (some [flashCmdReadJedecId, 0, 0, 0]) 4
  pure (rx[1], rx[2], rx[3])

/-- `spi_flash_cmd_init`. -/
def spiFlashCmdInit : FlashM W Unit := do
  let _ ← spiFlashCmdReadId env
  pure ()

/-- `spi_flash_cmd_read`: the bytes that the second transfer stores in the buffer. -/
def spiFlashCmdRead (addr len : UInt32) : FlashM W (Vector UInt8 len.toUInt16.toNat) := do
  let _ ← nicChipHalSpiTransfer env (some (flashCmdReadData :: addrBytes addr)) 4
  nicChipHalSpiTransfer env none len.toUInt16.toNat

/-- `spi_flash_cmd_page_program`; `data` is the memory from the pointer `data` on. -/
def spiFlashCmdPageProgram (addr : UInt32) (data : ℕ → UInt8) (len : UInt16) : FlashM W Unit :=
  if len.toNat > flashPageSize then Traced.fail .fail
  else do
    let bytes := (List.range len.toNat).map data
    let _ ← nicChipHalSpiTransfer env (some (flashCmdPageProgram :: addrBytes addr ++ bytes))
      (4 + len.toNat)
    pure ()

/-- `spi_flash_cmd_sector_erase`. -/
def spiFlashCmdSectorErase (addr : UInt32) : FlashM W Unit :=
  sendCmdWithAddr env flashCmdSectorErase addr

/-- `spi_flash_cmd_write_enable`. -/
def spiFlashCmdWriteEnable : FlashM W Unit := do
  let _ ← nicChipHalSpiTransfer env (some [flashCmdWriteEnable]) 1
  pure ()

/-- The polling loop of `spi_flash_cmd_wait_ready`, begun at `start`. -/
def waitReadyLoop (timeoutMs start : UInt32) : ℕ → FlashM W Unit
  | 0 => Traced.running
  | polls + 1 => do
    let status ← readStatus env
    if status &&& flashStatusBusy = 0 then pure ()
    else do
      rtosDelayMs env 1
      let now ← flashTickMs env
      if now - start < timeoutMs then waitReadyLoop timeoutMs start polls
      else Traced.fail .timeout

/-- `spi_flash_cmd_wait_ready`. -/
def spiFlashCmdWaitReady (polls : ℕ) (timeoutMs : UInt32) : FlashM W Unit :=
  Traced.reported (.waitReady timeoutMs) do
    let start ← flashTickMs env
    waitReadyLoop env timeoutMs start polls

end NicObFw
