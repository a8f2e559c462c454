import NicObFw.RtosHal
import NicObFw.Lib.Traced
import NicObFw.Lib.NorFlash

/-!
# NIC chip HAL

The part of `nic_chip_hal.c` that the flash thread uses. What the thread calls but this repository
does not contain, the SPI driver and the FreeRTOS clock, is a parameter: it acts on a world of its
own, in which the device, the clock and the other threads may do anything between two calls.
-/

namespace NicObFw

/-- The code around the flash thread, acting on a world `W`. -/
structure FlashEnv (W : Type) where
  cfg : TickConfig
  /-- `s_initialized` of the HAL. -/
  sInitialized : Bool
  /-- `spi_device_transmit`: a transaction of `n` bytes, with the bytes sent if there are any. The
  result is whether it returned `ESP_OK`, and the bytes received. -/
  spiDeviceTransmit : W → Option (List UInt8) → (n : ℕ) → Bool × Vector UInt8 n × W
  /-- `xTaskGetTickCount`. -/
  xTaskGetTickCount : W → ℕ × W
  /-- `vTaskDelay`. -/
  vTaskDelay : W → UInt32 → W

/-- What can be observed of the flash thread. -/
inductive FlashEvent where
  /-- A transaction was handed to the SPI driver: the bytes sent, the bytes received, and whether
  the driver returned `ESP_OK`. -/
  | spi (tx : Option (List UInt8)) (rx : List UInt8) (ok : Bool)
  /-- The HAL was not initialised and refused a transaction. -/
  | spiRefused (tx : Option (List UInt8))
  /-- `spi_flash_cmd_wait_ready` ended, or is still polling. -/
  | waitReady (timeoutMs : UInt32) (ret : Ret RtosErr Unit)
deriving DecidableEq

/-- A program of the flash thread. -/
abbrev FlashM (W : Type) := Traced W FlashEvent RtosErr

variable {W : Type} (env : FlashEnv W)

/-- `rtos_get_tick_ms`. -/
def flashTickMs : FlashM W UInt32 :=
  Traced.act fun w =>
    let (ticks, w) := env.xTaskGetTickCount w
    (rtosGetTickMs env.cfg ticks, w)

/-- `rtos_delay_ms`. -/
def rtosDelayMs (ms : UInt32) : FlashM W Unit :=
  Traced.act fun w => ((), env.vTaskDelay w (pdMsToTicks env.cfg ms))

/-- `nic_chip_hal_spi_transfer`: the bytes received when the code is `RTOS_OK`. -/
def nicChipHalSpiTransfer (tx : Option (List UInt8)) (n : ℕ) : FlashM W (Vector UInt8 n) :=
  if env.sInitialized then do
    let (ok, rx) ← Traced.act fun w =>
      let (ok, rx, w) := env.spiDeviceTransmit w tx n
      ((ok, rx), w)
    Traced.emit (.spi tx rx.toList ok)
    if ok then pure rx else Traced.fail .fail
  else do
    Traced.emit (.spiRefused tx)
    Traced.fail .fail

end NicObFw
