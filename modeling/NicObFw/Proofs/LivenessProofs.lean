import NicObFw.Liveness
import NicObFw.Proofs.BmcMgrProofs
import NicObFw.Proofs.RtosHalProofs

/-!
# Proofs: liveness

The liveness check is right at every age of the last message, except that it takes the BMC for alive
just after the clock of `rtos_get_tick_ms` has gone all the way round since then
(`livenessCheck_right_iff`). The last message is the last one that a run has received
(`bmcMgr_livenessCheck_right_iff`).
-/

namespace NicObFw

open WrappingClock

/-! ## The check -/

/-- What the check computes, `seen` being the ticks at the last message. -/
theorem livenessCheck_iff (cfg : TickConfig) (fw : Firmware) {seen : ℕ}
    (hseen : fw.sLastBmcSeenMs = rtosGetTickMs cfg seen) (hle : seen ≤ fw.ticks) :
    livenessCheck cfg fw = true ↔
      (fw.ticks - seen) * cfg.portTickPeriodMs.toNat % UInt32.size < sLivenessTimeoutMs.toNat := by
  unfold livenessCheck
  rw [decide_eq_true_iff, UInt32.lt_iff_toNat_lt, hseen, toNat_sub_tickMs cfg hle]

theorem sLivenessTimeoutMs_le_size : sLivenessTimeoutMs.toNat ≤ UInt32.size := by decide

theorem ticksAt_mono (cfg : TickConfig) {t₀ t : ℕ} (hle : t₀ ≤ t) :
    ticksAt cfg t₀ ≤ ticksAt cfg t :=
  Nat.div_le_div_right hle

theorem livenessCheck_silentSince (cfg : TickConfig) (fw : Firmware) {t₀ t : ℕ} (hle : t₀ ≤ t) :
    livenessCheck cfg (silentSince cfg fw t₀ t) = true ↔
      silentMs cfg t₀ t % UInt32.size < sLivenessTimeoutMs.toNat :=
  livenessCheck_iff cfg (silentSince cfg fw t₀ t) rfl (ticksAt_mono cfg hle)

/-- The check is right about the silence from `t₀` to `t` if and only if this silence is not one or
more whole turns of the clock and then less than the timeout. -/
theorem livenessCheck_right_iff (cfg : TickConfig) (fw : Firmware) (t₀ t : ℕ) (hle : t₀ ≤ t) :
    (livenessCheck cfg (silentSince cfg fw t₀ t) = true ↔
        silentMs cfg t₀ t < sLivenessTimeoutMs.toNat) ↔
      ¬ JustWrapped UInt32.size sLivenessTimeoutMs.toNat (silentMs cfg t₀ t) := by
  rw [livenessCheck_silentSince cfg fw hle]
  exact mod_lt_iff_self sLivenessTimeoutMs_le_size

/-- Six seconds of silence across a wrap of the counter. -/
theorem livenessCheck_right_wrap :
    livenessCheck ⟨10, 100⟩ (silentSince ⟨10, 100⟩ (firmwareInit ⟨10, 100⟩ 0) 4294966000 4294972000) =
      false := by
  have hright := (livenessCheck_right_iff ⟨10, 100⟩ (firmwareInit ⟨10, 100⟩ 0) 4294966000 4294972000
    (by decide)).2 (by rw [justWrapped_iff (by decide)]; decide)
  exact Bool.eq_false_iff.2 fun halive => absurd (hright.1 halive) (by decide)

/-- The last message came at boot, and 49 days and 17 hours later the BMC counts as alive. -/
theorem livenessCheck_wrapped :
    livenessCheck ⟨10, 100⟩ (silentSince ⟨10, 100⟩ (firmwareInit ⟨10, 100⟩ 0) 0 4294967300) = true ∧
      ¬ silentMs ⟨10, 100⟩ 0 4294967300 < sLivenessTimeoutMs.toNat := by
  decide

/-! ## The last message of a run -/

variable {cfg : TickConfig} {fw fw' : Firmware} {tr evs : List FwEvent} {a : FwAction}

/-- The last reception of a message, or the start, is what `s_last_bmc_seen_ms` holds. -/
structure SeenInv (cfg : TickConfig) (boot : ℕ) (fw : Firmware) (seen : List ℕ) : Prop where
  shown : fw.sLastBmcSeenMs = rtosGetTickMs cfg (seen.getLastD boot)
  past : seen.getLastD boot ≤ fw.ticks

theorem seenTicks_dispatched {dispatched : List FwEvent} (hd : ∀ e ∈ dispatched, e.isDispatch = true) :
    seenTicks fw a dispatched = [] :=
  Trace.filterMap_quiet (fun e he => by cases e <;> simp_all [FwEvent.isDispatch]) hd

/-- The receipt of a message is recorded once, whatever is dispatched after it. -/
theorem seenTicks_rx (raw : BmcRxMsg) {completed dispatched : List FwEvent}
    (hc : ∀ e ∈ completed, ∃ pkt bytes, e = .mctpComplete pkt bytes)
    (hd : ∀ e ∈ dispatched, e.isDispatch = true) :
    seenTicks fw a (.rxReceived raw :: (completed ++ dispatched)) = [fw.ticks] := by
  have hcompleted : seenTicks fw a completed = [] := by
    refine List.filterMap_eq_nil_iff.2 fun e he => ?_
    obtain ⟨pkt, bytes, rfl⟩ := hc e he
    rfl
  have hcons : seenTicks fw a (.rxReceived raw :: (completed ++ dispatched)) =
      fw.ticks :: (seenTicks fw a completed ++ seenTicks fw a dispatched) := by
    unfold seenTicks
    rw [List.filterMap_cons_some (by rfl), List.filterMap_append]
  rw [hcons, hcompleted, seenTicks_dispatched hd, List.nil_append]

theorem SeenInv.step {boot : ℕ} {seen : List ℕ} (h : SeenInv cfg boot fw seen)
    (hs : FwStep cfg fw a fw' evs) : SeenInv cfg boot fw' (seen ++ seenTicks fw a evs) := by
  cases hs with
  | rx locals raw q fq dispatched hp hq hd =>
    rw [seenTicks_rx raw (fun e he => ?_) hd]
    · have hlast : (seen ++ [fw.ticks]).getLastD boot = fw.ticks := List.getLastD_concat
      exact ⟨by rw [hlast]; rfl, by rw [hlast]; exact Nat.le_refl _⟩
    · split at he
      · exact ⟨_, _, List.mem_singleton.1 he⟩
      · exact absurd he List.not_mem_nil
  | clock ticks =>
    have hpast := h.past
    simp only [seenTicks, List.filterMap_nil, List.append_nil]
    exact ⟨h.shown, Nat.le_trans hpast (Nat.le_add_right _ _)⟩
  | _ =>
    -- no other step receives a message or moves the clock
    simp only [seenTicks, List.filterMap_nil, List.filterMap_cons_none, List.append_nil]
    exact ⟨h.shown, h.past⟩

theorem seenInv_of_exec {boot : ℕ} {acts : List FwAction}
    (hrun : (firmware cfg).exec (firmwareInit cfg boot) acts = some (fw, tr)) :
    SeenInv cfg boot fw ((firmware cfg).observe seenTicks (firmwareInit cfg boot) acts) := by
  refine Machine.invariant_observe (I := fun fw _ seen => SeenInv cfg boot fw seen)
    ⟨rfl, Nat.le_refl _⟩ ?_ hrun
  intro fw tr seen a fw' evs h hs
  exact h.step (firmware_step_cases hs)

/-- The milliseconds since the last message, or since the start, in the state that a run leads to. -/
def runSilentMs (cfg : TickConfig) (boot : ℕ) (acts : List FwAction) (fw : Firmware) : ℕ :=
  (fw.ticks - ((firmware cfg).observe seenTicks (firmwareInit cfg boot) acts).getLastD boot) *
    cfg.portTickPeriodMs.toNat

/-- In every run the check is right about the last message received, except just after a wrap. -/
theorem bmcMgr_livenessCheck_right_iff (cfg : TickConfig) (boot : ℕ) (acts : List FwAction)
    (fw : Firmware) (tr : List FwEvent)
    (hrun : (firmware cfg).exec (firmwareInit cfg boot) acts = some (fw, tr)) :
    (livenessCheck cfg fw = true ↔ runSilentMs cfg boot acts fw < sLivenessTimeoutMs.toNat) ↔
      ¬ JustWrapped UInt32.size sLivenessTimeoutMs.toNat (runSilentMs cfg boot acts fw) := by
  have hinv := seenInv_of_exec hrun
  rw [livenessCheck_iff cfg fw hinv.shown hinv.past]
  exact mod_lt_iff_self sLivenessTimeoutMs_le_size

/-- A BMC that was heard of in time is never taken for silent. -/
theorem bmcMgr_alive_of_recent (cfg : TickConfig) (boot : ℕ) (acts : List FwAction)
    (fw : Firmware) (tr : List FwEvent)
    (hrun : (firmware cfg).exec (firmwareInit cfg boot) acts = some (fw, tr))
    (hrecent : runSilentMs cfg boot acts fw < sLivenessTimeoutMs.toNat) :
    livenessCheck cfg fw = true := by
  have hinv := seenInv_of_exec hrun
  exact (livenessCheck_iff cfg fw hinv.shown hinv.past).2 (mod_lt_of_lt hrecent)

end NicObFw
