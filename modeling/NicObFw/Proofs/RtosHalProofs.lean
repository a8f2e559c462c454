import NicObFw.RtosHal
import NicObFw.Lib.WrappingClock

/-!
# Proofs: the tick counter

`rtos_get_tick_ms` is a clock of `2^32` values: the width of the tick counter and that of its product
with the tick period make one and the same wrap.
-/

namespace NicObFw

open WrappingClock

theorem rtosGetTickMs_toNat (cfg : TickConfig) (ticks : ℕ) :
    (rtosGetTickMs cfg ticks).toNat =
      reading UInt32.size (ticks * cfg.portTickPeriodMs.toNat) := by
  unfold rtosGetTickMs reading
  rw [UInt32.toNat_mul, UInt32.toNat_ofNat', Nat.mod_mul_mod]

/-- The difference of two readings, across any number of wraps of the counter. -/
theorem toNat_sub_tickMs (cfg : TickConfig) {a b : ℕ} (h : a ≤ b) :
    (rtosGetTickMs cfg b - rtosGetTickMs cfg a).toNat =
      (b - a) * cfg.portTickPeriodMs.toNat % UInt32.size := by
  have hle : a * cfg.portTickPeriodMs.toNat ≤ b * cfg.portTickPeriodMs.toNat :=
    Nat.mul_le_mul_right _ h
  have hage : (rtosGetTickMs cfg b - rtosGetTickMs cfg a).toNat =
      age UInt32.size (rtosGetTickMs cfg b).toNat (rtosGetTickMs cfg a).toNat :=
    UInt32.toNat_sub _ _
  rw [hage, rtosGetTickMs_toNat, rtosGetTickMs_toNat, age_reading (by decide) hle, Nat.sub_mul]

end NicObFw
