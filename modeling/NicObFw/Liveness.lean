import NicObFw.BmcMgr
import NicObFw.Lib.WrappingClock

/-!
# The silence of the BMC in true time

True time is counted in milliseconds since boot, without the widths of the counters. The tick counter
advances once in every tick period.
-/

namespace NicObFw

/-- The ticks since boot at the time `ms`. -/
def ticksAt (cfg : TickConfig) (ms : ℕ) : ℕ := ms / cfg.portTickPeriodMs.toNat

/-- The time from `t₀` to `t`, read at tick granularity. -/
def silentMs (cfg : TickConfig) (t₀ t : ℕ) : ℕ :=
  (ticksAt cfg t - ticksAt cfg t₀) * cfg.portTickPeriodMs.toNat

/-- At the time `t`, the last message having come at the time `t₀`. -/
def silentSince (cfg : TickConfig) (fw : Firmware) (t₀ t : ℕ) : Firmware :=
  { livenessUpdate cfg { fw with ticks := ticksAt cfg t₀ } with ticks := ticksAt cfg t }

/-- The ticks at which a step received a message from the BMC. -/
def seenTicks (fw : Firmware) (_ : FwAction) (evs : List FwEvent) : List ℕ :=
  evs.filterMap fun
    | .rxReceived _ => some fw.ticks
    | _ => none

end NicObFw
