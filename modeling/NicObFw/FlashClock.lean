import NicObFw.SpiFlashCmd

/-!
# The clock and the device as a wait sees them

`spi_flash_cmd_wait_ready` reads the clock at its start, and then goes round a loop of a status read, a
delay and another reading of the clock. The worlds that it goes through are those of its calls, one
after the other, as if it polled for ever; between any two of them any time may pass, since the flash
thread can be preempted.
-/

namespace NicObFw

variable {W : Type} (env : FlashEnv W)

/-! ## The worlds that a wait goes through -/

/-- After the clock has been read at the start. -/
def afterStart (w : W) : W := (env.xTaskGetTickCount w).2

/-- After a status read. -/
def afterPoll (w : W) : W :=
  (env.spiDeviceTransmit w (some [flashCmdReadStatus, 0x00]) 2).2.2

/-- After a status read, the delay, and the reading of the clock behind it. -/
def afterTest (w : W) : W :=
  (env.xTaskGetTickCount (env.vTaskDelay (afterPoll env w) (pdMsToTicks env.cfg 1))).2

/-- Before the status read number `i`. -/
def pollWorld (w : W) : ℕ → W
  | 0 => afterStart env w
  | i + 1 => afterTest env (pollWorld w i)

/-! ## Clock and device -/

/-- `now` is the number of ticks since boot. It never goes back, and `xTaskGetTickCount` returns it. -/
structure Clock (now : W → ℕ) : Prop where
  transmit : ∀ w tx n, now w ≤ now (env.spiDeviceTransmit w tx n).2.2
  delay : ∀ w ticks, now w ≤ now (env.vTaskDelay w ticks)
  tick : ∀ w, now w ≤ now (env.xTaskGetTickCount w).2
  read : ∀ w, (env.xTaskGetTickCount w).1 = now (env.xTaskGetTickCount w).2

/-- The device is ready from the tick `ready` on: status reads that end earlier find it busy. -/
def ReadyFrom (now : W → ℕ) (ready : ℕ) : Prop :=
  ∀ w (rx : Vector UInt8 2) w',
    env.spiDeviceTransmit w (some [flashCmdReadStatus, 0x00]) 2 = (true, rx, w') →
      (statusByte rx &&& flashStatusBusy = 0 ↔ ready ≤ now w')

/-- The device becomes ready at most `timeoutMs` after the call in the world `w`. -/
def ReadyInTime (now : W → ℕ) (ready : ℕ) (timeoutMs : UInt32) (w : W) : Prop :=
  (ready - now w) * env.cfg.portTickPeriodMs.toNat ≤ timeoutMs.toNat

/-- The milliseconds since the start of the wait that the reading of the clock behind the status read
number `i` shows, in the 32 bits of the counter. -/
def elapsedMs (now : W → ℕ) (w : W) (i : ℕ) : ℕ :=
  (now (pollWorld env w (i + 1)) - now (afterStart env w)) * env.cfg.portTickPeriodMs.toNat % 2 ^ 32

/-- The wait is not overtaken by its deadline: every status read that still finds the device busy is
followed by a reading of the clock before the deadline, and some status read finds it ready. -/
structure PolledInTime (now : W → ℕ) (ready : ℕ) (timeoutMs : UInt32) (w : W) : Prop where
  busy : ∀ i, now (afterPoll env (pollWorld env w i)) < ready →
    elapsedMs env now w i < timeoutMs.toNat
  ready : ∃ i, ready ≤ now (afterPoll env (pollWorld env w i))

/-- The clock runs: however long a wait polls, the ticks exceed every bound, and between two readings
of it less than `2^31` ms pass. -/
structure ClockRuns (now : W → ℕ) : Prop extends Clock env now where
  period : 0 < env.cfg.portTickPeriodMs.toNat
  advances : ∀ w bound, ∃ i, bound ≤ now (pollWorld env w i)
  gaps : ∀ w i, (now (pollWorld env w (i + 1)) - now (pollWorld env w i)) *
    env.cfg.portTickPeriodMs.toNat < 2 ^ 31

end NicObFw
