import NicObFw.FlashClock
import NicObFw.FlashDevice
import NicObFw.Proofs.RtosHalProofs
import NicObFw.Proofs.SpiFlashProofs

/-!
# Proofs: waiting for the device

What one turn of the polling loop of `spi_flash_cmd_wait_ready` does (`waitReadyLoop_turn`), that a wait
comes to its end if the clock runs (`spiFlashCmdWaitReady_terminates`), and when it returns `RTOS_OK`
for a device that becomes ready in time (`spiFlashCmdWaitReady_ok_iff`).
-/

namespace NicObFw

open Traced

variable {W : Type} {env : FlashEnv W} {now : W → ℕ}

/-! ## One turn of the loop -/

/-- The status read in the world `w` found the device ready. -/
def seesReady (env : FlashEnv W) (w : W) : Prop :=
  statusByte (env.spiDeviceTransmit w (some readStatusTx) 2).2.1 &&& flashStatusBusy = 0

instance (env : FlashEnv W) (w : W) : Decidable (seesReady env w) :=
  inferInstanceAs (Decidable (_ = _))

/-- The clock reading that follows the status read in the world `w`. -/
def testMs (env : FlashEnv W) (w : W) : UInt32 :=
  rtosGetTickMs env.cfg
    (env.xTaskGetTickCount (env.vTaskDelay (afterPoll env w) (pdMsToTicks env.cfg 1))).1

/-- The entry that a status read in the world `w` leaves. -/
def pollEvent (env : FlashEnv W) (w : W) : FlashEvent :=
  if env.sInitialized then
    .spi (some readStatusTx) (env.spiDeviceTransmit w (some readStatusTx) 2).2.1.toList
      (env.spiDeviceTransmit w (some readStatusTx) 2).1
  else .spiRefused (some readStatusTx)

/-- The status read in the world `w` succeeds. -/
def pollSucceeds (env : FlashEnv W) (w : W) : Prop :=
  env.sInitialized = true ∧ (env.spiDeviceTransmit w (some readStatusTx) 2).1 = true

theorem pollEvent_transferFailed {w : W} :
    (pollEvent env w).transferFailed = false ↔ pollSucceeds env w := by
  unfold pollEvent pollSucceeds
  cases env.sInitialized with
  | false => simp [FlashEvent.transferFailed]
  | true => simp [FlashEvent.transferFailed]

instance (env : FlashEnv W) (w : W) : Decidable (pollSucceeds env w) :=
  inferInstanceAs (Decidable (_ ∧ _))

/-- What a status read does, in one piece. -/
theorem readStatus_apply (w : W) :
    readStatus env w =
      if pollSucceeds env w then
        ⟨.done (statusByte (env.spiDeviceTransmit w (some readStatusTx) 2).2.1), [pollEvent env w],
          afterPoll env w⟩
      else ⟨.error .fail, [pollEvent env w], if env.sInitialized then afterPoll env w else w⟩ := by
  have hread : readStatus env w =
      (nicChipHalSpiTransfer env (some readStatusTx) 2 >>= fun rx => pure (statusByte rx)) w := rfl
  rw [hread]
  rcases ht : env.spiDeviceTransmit w (some readStatusTx) 2 with ⟨ok, rx, w'⟩
  have hafter : afterPoll env w = w' := congrArg (fun r => r.2.2) ht
  by_cases hi : env.sInitialized = true
  · have hevent : pollEvent env w = .spi (some readStatusTx) rx.toList ok := by
      simp only [pollEvent, hi, ht, if_true]
    have hs : pollSucceeds env w ↔ ok = true := by simp only [pollSucceeds, hi, ht, true_and]
    rw [hevent, hafter]
    cases ok with
    | true => simp [Bind.bind, Traced.bind, nicChipHalSpiTransfer_apply, hi, ht, hs, pure]
    | false => simp [Bind.bind, Traced.bind, nicChipHalSpiTransfer_apply, hi, ht, hs]
  · have hevent : pollEvent env w = .spiRefused (some readStatusTx) := by
      simp only [pollEvent, hi, if_false, Bool.false_eq_true]
    have hs : ¬ pollSucceeds env w := fun h => hi h.1
    rw [hevent, if_neg hs]
    simp [Bind.bind, Traced.bind, nicChipHalSpiTransfer_apply, hi]

/-- What a turn of the loop does: it ends with the error of the status read, or with success, or goes
on, or gives up. -/
theorem waitReadyLoop_succ (timeoutMs start : UInt32) (polls : ℕ) (w : W) :
    waitReadyLoop env timeoutMs start (polls + 1) w =
      if pollSucceeds env w then
        if seesReady env w then ⟨.done (), [pollEvent env w], afterPoll env w⟩
        else if testMs env w - start < timeoutMs then
          let o := waitReadyLoop env timeoutMs start polls (afterTest env w)
          ⟨o.ret, pollEvent env w :: o.trace, o.world⟩
        else ⟨.error .timeout, [pollEvent env w], afterTest env w⟩
      else ⟨.error .fail, [pollEvent env w], if env.sInitialized then afterPoll env w else w⟩ := by
  by_cases hs : pollSucceeds env w
  · rw [if_pos hs]
    by_cases hready : seesReady env w
    · rw [if_pos hready]
      unfold seesReady at hready
      simp [waitReadyLoop, Bind.bind, Traced.bind, readStatus_apply, if_pos hs, hready, pure]
    · rw [if_neg hready]
      unfold seesReady at hready
      by_cases hlt : testMs env w - start < timeoutMs
      · rw [if_pos hlt]
        unfold testMs at hlt
        simp [waitReadyLoop, Bind.bind, Traced.bind, readStatus_apply, if_pos hs, hready, rtosDelayMs,
          flashTickMs, act, hlt, afterTest]
      · rw [if_neg hlt]
        unfold testMs at hlt
        simp [waitReadyLoop, Bind.bind, Traced.bind, readStatus_apply, if_pos hs, hready, rtosDelayMs,
          flashTickMs, act, hlt, afterTest, fail]
  · rw [if_neg hs]
    simp [waitReadyLoop, Bind.bind, Traced.bind, readStatus_apply, if_neg hs]

/-- A turn by cases. -/
theorem waitReadyLoop_turn (timeoutMs start : UInt32) (polls : ℕ) (w : W) :
    (¬ pollSucceeds env w ∧ waitReadyLoop env timeoutMs start (polls + 1) w =
      ⟨.error .fail, [pollEvent env w], if env.sInitialized then afterPoll env w else w⟩) ∨
    (pollSucceeds env w ∧ seesReady env w ∧ waitReadyLoop env timeoutMs start (polls + 1) w =
      ⟨.done (), [pollEvent env w], afterPoll env w⟩) ∨
    (pollSucceeds env w ∧ ¬ seesReady env w ∧ testMs env w - start < timeoutMs ∧
      waitReadyLoop env timeoutMs start (polls + 1) w =
        ⟨(waitReadyLoop env timeoutMs start polls (afterTest env w)).ret,
          pollEvent env w :: (waitReadyLoop env timeoutMs start polls (afterTest env w)).trace,
          (waitReadyLoop env timeoutMs start polls (afterTest env w)).world⟩) ∨
    (pollSucceeds env w ∧ ¬ seesReady env w ∧ ¬ testMs env w - start < timeoutMs ∧
      waitReadyLoop env timeoutMs start (polls + 1) w =
        ⟨.error .timeout, [pollEvent env w], afterTest env w⟩) := by
  rw [waitReadyLoop_succ]
  by_cases hs : pollSucceeds env w
  · right
    by_cases hready : seesReady env w
    · exact Or.inl ⟨hs, hready, by rw [if_pos hs, if_pos hready]⟩
    · right
      by_cases hlt : testMs env w - start < timeoutMs
      · exact Or.inl ⟨hs, hready, hlt, by rw [if_pos hs, if_neg hready, if_pos hlt]⟩
      · exact Or.inr ⟨hs, hready, hlt, by rw [if_pos hs, if_neg hready, if_neg hlt]⟩
  · exact Or.inl ⟨hs, by rw [if_neg hs]⟩

/-! ## The clock -/

theorem Clock.afterPoll (h : Clock env now) (w : W) : now w ≤ now (afterPoll env w) :=
  h.transmit w _ _

theorem Clock.afterTest (h : Clock env now) (w : W) : now (NicObFw.afterPoll env w) ≤
    now (NicObFw.afterTest env w) :=
  Nat.le_trans (h.delay _ _) (h.tick _)

theorem Clock.pollWorld_succ (h : Clock env now) (w : W) (i : ℕ) :
    now (pollWorld env w i) ≤ now (pollWorld env w (i + 1)) :=
  Nat.le_trans (h.afterPoll _) (h.afterTest _)

theorem Clock.pollWorld_mono (h : Clock env now) (w : W) {i j : ℕ} (hij : i ≤ j) :
    now (pollWorld env w i) ≤ now (pollWorld env w j) :=
  monotone_nat_of_le_succ (h.pollWorld_succ w) hij

/-- The status reads come one after the other. -/
theorem Clock.afterPoll_mono (h : Clock env now) (w : W) {i j : ℕ} (hij : i ≤ j) :
    now (NicObFw.afterPoll env (pollWorld env w i)) ≤
      now (NicObFw.afterPoll env (pollWorld env w j)) := by
  refine monotone_nat_of_le_succ (f := fun k => now (NicObFw.afterPoll env (pollWorld env w k)))
    (fun k => ?_) hij
  exact Nat.le_trans (h.afterTest _) (h.afterPoll _)

/-- The reading of the clock at the start of a wait. -/
def startMs (env : FlashEnv W) (w : W) : UInt32 :=
  rtosGetTickMs env.cfg (env.xTaskGetTickCount w).1

/-- The test of the loop compares the elapsed milliseconds with the timeout. -/
theorem Clock.testMs_lt_iff (h : Clock env now) (w : W) (i : ℕ) (timeoutMs : UInt32) :
    testMs env (pollWorld env w i) - startMs env w < timeoutMs ↔
      elapsedMs env now w i < timeoutMs.toNat := by
  have hle : now (afterStart env w) ≤ now (pollWorld env w (i + 1)) :=
    h.pollWorld_mono w (Nat.zero_le (i + 1))
  have htest : testMs env (pollWorld env w i) =
      rtosGetTickMs env.cfg (now (pollWorld env w (i + 1))) := by
    unfold testMs
    rw [h.read]
    rfl
  have hstart : startMs env w = rtosGetTickMs env.cfg (now (afterStart env w)) := by
    unfold startMs
    rw [h.read]
    rfl
  rw [UInt32.lt_iff_toNat_lt, htest, hstart, toNat_sub_tickMs env.cfg hle]
  rfl

/-! ## A wait -/

theorem spiFlashCmdWaitReady_apply (polls : ℕ) (timeoutMs : UInt32) (w : W) :
    spiFlashCmdWaitReady env polls timeoutMs w =
      let o := waitReadyLoop env timeoutMs (startMs env w) polls (afterStart env w)
      ⟨o.ret, o.trace ++ [.waitReady timeoutMs o.ret], o.world⟩ := by
  unfold spiFlashCmdWaitReady flashTickMs Traced.reported startMs afterStart
  simp [Bind.bind, Traced.bind, act]

/-- No transfer of a wait that goes on from the world `w` fails. -/
def TransfersSucceed (env : FlashEnv W) (timeoutMs start : UInt32) (w : W) : Prop :=
  ∀ polls, ∀ e ∈ (waitReadyLoop env timeoutMs start polls w).trace, e.transferFailed = false

theorem TransfersSucceed.poll {timeoutMs start : UInt32} {w : W}
    (h : TransfersSucceed env timeoutMs start w) : pollSucceeds env w := by
  have hmem : pollEvent env w ∈ (waitReadyLoop env timeoutMs start (0 + 1) w).trace := by
    rcases waitReadyLoop_turn timeoutMs start 0 w with
      ⟨-, he⟩ | ⟨-, -, he⟩ | ⟨-, -, -, he⟩ | ⟨-, -, -, he⟩
    all_goals
      rw [he]
      exact List.mem_cons_self
  exact pollEvent_transferFailed.1 (h 1 _ hmem)

theorem TransfersSucceed.next {timeoutMs start : UInt32} {w : W}
    (h : TransfersSucceed env timeoutMs start w) (hbusy : ¬ seesReady env w)
    (hlt : testMs env w - start < timeoutMs) :
    TransfersSucceed env timeoutMs start (afterTest env w) := by
  intro polls e he
  refine h (polls + 1) e ?_
  rcases waitReadyLoop_turn timeoutMs start polls w with
    ⟨hno, -⟩ | ⟨-, hready, -⟩ | ⟨-, -, -, heq⟩ | ⟨-, -, hge, -⟩
  · exact absurd h.poll hno
  · exact absurd hready hbusy
  · rw [heq]
    exact List.mem_cons_of_mem _ he
  · exact absurd hlt hge

/-- As long as the loop goes on, its transfers succeed. -/
theorem TransfersSucceed.upTo {timeoutMs start : UInt32} {w : W} {n : ℕ}
    (h : TransfersSucceed env timeoutMs start (pollWorld env w 0))
    (hon : ∀ i < n, pollSucceeds env (pollWorld env w i) →
      ¬ seesReady env (pollWorld env w i) ∧ testMs env (pollWorld env w i) - start < timeoutMs) :
    ∀ i ≤ n, TransfersSucceed env timeoutMs start (pollWorld env w i) := by
  intro i hi
  induction i with
  | zero => exact h
  | succ i ih =>
    have hprev := ih (Nat.le_of_succ_le hi)
    obtain ⟨hbusy, hlt⟩ := hon i hi hprev.poll
    exact hprev.next hbusy hlt

/-- A status read that succeeds shows whether the device has become ready. -/
theorem ReadyFrom.seesReady_iff {ready : ℕ} (h : ReadyFrom env now ready) {w : W}
    (hs : pollSucceeds env w) : seesReady env w ↔ ready ≤ now (afterPoll env w) := by
  refine h w (env.spiDeviceTransmit w (some readStatusTx) 2).2.1 (afterPoll env w) ?_
  exact Prod.ext hs.2 rfl

/-- The status read number `n`, counted from the world number `k` on, finds the device ready, and the loop
comes to it: no read before it does, and no test before it gives up. -/
structure FoundReady (env : FlashEnv W) (timeoutMs start : UInt32) (w : W) (k n : ℕ) : Prop where
  found : seesReady env (pollWorld env w (k + n))
  before : ∀ i < n, ¬ seesReady env (pollWorld env w (k + i)) ∧
    testMs env (pollWorld env w (k + i)) - start < timeoutMs

theorem foundReady_succ_iff {timeoutMs start : UInt32} {w : W} {k n : ℕ} :
    FoundReady env timeoutMs start w k (n + 1) ↔
      (¬ seesReady env (pollWorld env w k) ∧ testMs env (pollWorld env w k) - start < timeoutMs) ∧
        FoundReady env timeoutMs start w (k + 1) n := by
  have hshift : ∀ i, k + 1 + i = k + (i + 1) := fun i => by omega
  constructor
  · rintro ⟨hfound, hbefore⟩
    refine ⟨hbefore 0 (Nat.succ_pos n), by rwa [hshift], fun i hi => ?_⟩
    rw [hshift]
    exact hbefore (i + 1) (Nat.succ_lt_succ hi)
  · rintro ⟨hnow, hfound, hbefore⟩
    refine ⟨by rwa [← hshift], fun i hi => ?_⟩
    cases i with
    | zero => exact hnow
    | succ i =>
      rw [← hshift]
      exact hbefore i (Nat.lt_of_succ_lt_succ hi)

theorem exists_foundReady {timeoutMs start : UInt32} {w : W} {polls k : ℕ}
    (hspi : TransfersSucceed env timeoutMs start (pollWorld env w k))
    (hret : (waitReadyLoop env timeoutMs start polls (pollWorld env w k)).ret = .done ()) :
    ∃ n, FoundReady env timeoutMs start w k n := by
  induction polls generalizing k with
  | zero => cases hret
  | succ polls ih =>
    rcases waitReadyLoop_turn timeoutMs start polls (pollWorld env w k) with
      ⟨-, he⟩ | ⟨-, hready, -⟩ | ⟨-, hbusy, hlt, he⟩ | ⟨-, -, -, he⟩
    · rw [he] at hret
      cases hret
    · exact ⟨0, hready, fun i hi => absurd hi (Nat.not_lt_zero i)⟩
    · rw [he] at hret
      obtain ⟨n, hn⟩ := ih (k := k + 1) (hspi.next hbusy hlt) hret
      exact ⟨n + 1, foundReady_succ_iff.2 ⟨⟨hbusy, hlt⟩, hn⟩⟩
    · rw [he] at hret
      cases hret

/-- It takes as many turns as there are reads. -/
theorem FoundReady.done {timeoutMs start : UInt32} {w : W} {k n : ℕ}
    (h : FoundReady env timeoutMs start w k n)
    (hspi : TransfersSucceed env timeoutMs start (pollWorld env w k)) :
    (waitReadyLoop env timeoutMs start (n + 1) (pollWorld env w k)).ret = .done () := by
  induction n generalizing k with
  | zero =>
    rcases waitReadyLoop_turn timeoutMs start 0 (pollWorld env w k) with
      ⟨hno, -⟩ | ⟨-, -, he⟩ | ⟨-, hbusy, -⟩ | ⟨-, hbusy, -⟩
    · exact absurd hspi.poll hno
    · rw [he]
    · exact absurd h.found hbusy
    · exact absurd h.found hbusy
  | succ n ih =>
    obtain ⟨⟨hbusy, hlt⟩, hnext⟩ := foundReady_succ_iff.1 h
    rcases waitReadyLoop_turn timeoutMs start (n + 1) (pollWorld env w k) with
      ⟨hno, -⟩ | ⟨-, hready, -⟩ | ⟨-, -, -, he⟩ | ⟨-, -, hge, -⟩
    · exact absurd hspi.poll hno
    · exact absurd hready hbusy
    · rw [he]
      exact ih hnext (hspi.next hbusy hlt)
    · exact absurd hlt hge

/-- The loop succeeds exactly if a status read finds the device ready and no test before it gives
up. -/
theorem waitReadyLoop_done_iff (timeoutMs start : UInt32) (w : W)
    (hspi : TransfersSucceed env timeoutMs start (pollWorld env w 0)) :
    (∃ polls, (waitReadyLoop env timeoutMs start polls (pollWorld env w 0)).ret = .done ()) ↔
      ∃ n, FoundReady env timeoutMs start w 0 n := by
  constructor
  · rintro ⟨polls, hret⟩
    exact exists_foundReady hspi hret
  · rintro ⟨n, hn⟩
    exact ⟨n + 1, hn.done hspi⟩

/-- For a device that is ready from some tick on, `spi_flash_cmd_wait_ready` returns `RTOS_OK` exactly
if every status read that finds it busy is followed by a reading of the clock before the deadline, and
some status read finds it ready. That the device becomes ready in time is not enough. -/
theorem spiFlashCmdWaitReady_ok_iff (hclock : Clock env now) {ready : ℕ}
    (hready : ReadyFrom env now ready) (timeoutMs : UInt32) (w : W)
    (hspi : ∀ polls, ∀ e ∈ (spiFlashCmdWaitReady env polls timeoutMs w).trace,
      e.transferFailed = false) :
    (∃ polls, (spiFlashCmdWaitReady env polls timeoutMs w).ret = .done ()) ↔
      PolledInTime env now ready timeoutMs w := by
  have hloop : TransfersSucceed env timeoutMs (startMs env w) (pollWorld env w 0) := by
    intro polls e he
    refine hspi polls e ?_
    rw [spiFlashCmdWaitReady_apply]
    exact List.mem_append_left _ he
  have hiff := waitReadyLoop_done_iff timeoutMs (startMs env w) w hloop
  simp only [spiFlashCmdWaitReady_apply]
  refine Iff.trans hiff ⟨?_, ?_⟩
  · rintro ⟨n, hn, hbefore⟩
    simp only [Nat.zero_add] at hn hbefore
    have hspi := hloop.upTo fun i hi _ => hbefore i hi
    have hfound : ready ≤ now (afterPoll env (pollWorld env w n)) :=
      (hready.seesReady_iff (hspi n (Nat.le_refl n)).poll).1 hn
    refine ⟨fun i hi => ?_, n, hfound⟩
    have hlt : i < n := by
      by_contra hge
      have hmono := hclock.afterPoll_mono w (Nat.not_lt.1 hge)
      omega
    exact (hclock.testMs_lt_iff w i timeoutMs).1 (hbefore i hlt).2
  · rintro ⟨hbusy, hfound⟩
    -- the first status read that finds the device ready
    classical
    have hbefore : ∀ i < Nat.find hfound, pollSucceeds env (pollWorld env w i) →
        ¬ seesReady env (pollWorld env w i) ∧
          testMs env (pollWorld env w i) - startMs env w < timeoutMs := by
      intro i hi hs
      have hlt := Nat.find_min hfound hi
      refine ⟨fun hsees => hlt ((hready.seesReady_iff hs).1 hsees), ?_⟩
      exact (hclock.testMs_lt_iff w i timeoutMs).2 (hbusy i (Nat.not_le.1 hlt))
    have hspi := hloop.upTo hbefore
    refine ⟨Nat.find hfound, ?_, fun i hi => ?_⟩
    · rw [Nat.zero_add]
      exact (hready.seesReady_iff (hspi _ (Nat.le_refl _)).poll).2 (Nat.find_spec hfound)
    · rw [Nat.zero_add]
      exact hbefore i hi (hspi i (Nat.le_of_lt hi)).poll

/-! ## A thread that is held up -/

/-- A device that is ready from tick 50 on, behind a driver that never fails, and a thread that every
delay holds up for `gap` ticks of 1 ms. The world is the clock. -/
def heldUpEnv (gap : ℕ) : FlashEnv ℕ where
  cfg := ⟨1, 1000⟩
  sInitialized := true
  spiDeviceTransmit t _ n := (true, Vector.replicate n (if t < 50 then 1 else 0), t)
  xTaskGetTickCount t := (t, t)
  vTaskDelay t _ := t + gap

theorem heldUpEnv_clock (gap : ℕ) : Clock (heldUpEnv gap) id where
  transmit _ _ _ := Nat.le_refl _
  delay t _ := Nat.le_add_right t gap
  tick _ := Nat.le_refl _
  read _ := rfl

theorem heldUpEnv_readyFrom (gap : ℕ) : ReadyFrom (heldUpEnv gap) id 50 := by
  intro t rx t' h
  simp only [heldUpEnv, Prod.mk.injEq, true_and] at h
  obtain ⟨rfl, rfl⟩ := h
  by_cases hlt : t < 50
  · simp [statusByte, flashStatusBusy, hlt, Nat.not_le.2 hlt]
  · simp [statusByte, hlt, Nat.not_lt.1 hlt]

/-- If every status read succeeds, the trace of a wait shows no failed transfer. -/
theorem waitReadyLoop_transfers (hs : ∀ w, pollSucceeds env w) (timeoutMs start : UInt32) (w : W) :
    TransfersSucceed env timeoutMs start w := by
  intro polls
  induction polls generalizing w with
  | zero => exact fun e he => absurd he List.not_mem_nil
  | succ polls ih =>
    have hpoll := pollEvent_transferFailed.2 (hs w)
    rcases waitReadyLoop_turn timeoutMs start polls w with
      ⟨hno, -⟩ | ⟨-, -, he⟩ | ⟨-, -, -, he⟩ | ⟨-, -, -, he⟩
    · exact absurd (hs w) hno
    · rw [he]
      exact List.forall_mem_singleton.2 hpoll
    · rw [he]
      exact List.forall_mem_cons.2 ⟨hpoll, ih (afterTest env w)⟩
    · rw [he]
      exact List.forall_mem_singleton.2 hpoll

theorem heldUpEnv_transfers (gap polls : ℕ) (timeoutMs : UInt32) (t : ℕ) :
    ∀ e ∈ (spiFlashCmdWaitReady (heldUpEnv gap) polls timeoutMs t).trace,
      e.transferFailed = false := by
  have hsucceeds : ∀ w, pollSucceeds (heldUpEnv gap) w := fun _ => ⟨rfl, rfl⟩
  have hloop := waitReadyLoop_transfers hsucceeds timeoutMs (startMs (heldUpEnv gap) t)
    (afterStart (heldUpEnv gap) t) polls
  rw [spiFlashCmdWaitReady_apply]
  intro e he
  rcases List.mem_append.1 he with he | he
  · exact hloop e he
  · obtain rfl := List.mem_singleton.1 he
    rfl

theorem heldUpEnv_pollWorld (gap t i : ℕ) :
    pollWorld (heldUpEnv gap) t i = t + gap * i := by
  induction i with
  | zero => rfl
  | succ i ih =>
    have hstep : pollWorld (heldUpEnv gap) t (i + 1) = pollWorld (heldUpEnv gap) t i + gap := rfl
    rw [hstep, ih, Nat.mul_succ, Nat.add_assoc]

theorem heldUpEnv_elapsedMs (gap i : ℕ) :
    elapsedMs (heldUpEnv gap) id 0 i = gap * (i + 1) % 2 ^ 32 := by
  have helapsed : elapsedMs (heldUpEnv gap) id 0 i =
      (pollWorld (heldUpEnv gap) 0 (i + 1) - 0) * 1 % 2 ^ 32 := rfl
  rw [helapsed, heldUpEnv_pollWorld]
  simp

/-- Held up for 10 ms at a time, the thread finds the device ready. -/
theorem spiFlashCmdWaitReady_ok_short :
    ∃ polls, (spiFlashCmdWaitReady (heldUpEnv 10) polls 100 0).ret = .done () := by
  refine (spiFlashCmdWaitReady_ok_iff (heldUpEnv_clock 10) (heldUpEnv_readyFrom 10) 100 0
    fun polls => heldUpEnv_transfers 10 polls 100 0).2 ⟨fun i hi => ?_, 5, ?_⟩
  · -- a read before tick 50 is one of the first five, and the last of them is tested at 50 ms
    have hnow : pollWorld (heldUpEnv 10) 0 i < 50 := hi
    rw [heldUpEnv_pollWorld] at hnow
    rw [heldUpEnv_elapsedMs]
    show _ < 100
    exact Nat.lt_of_le_of_lt (Nat.mod_le _ _) (by omega)
  · show 50 ≤ pollWorld (heldUpEnv 10) 0 5
    rw [heldUpEnv_pollWorld]

/-- Held up for 200 ms after a status read at tick 0, the thread gives up on a device that has been
ready since tick 50. -/
theorem wait_falseTimeout :
    Clock (heldUpEnv 200) id ∧ ReadyFrom (heldUpEnv 200) id 50 ∧
      ReadyInTime (heldUpEnv 200) id 50 100 0 ∧
      (∀ polls, ∀ e ∈ (spiFlashCmdWaitReady (heldUpEnv 200) polls 100 0).trace,
        e.transferFailed = false) ∧
      ¬ ∃ polls, (spiFlashCmdWaitReady (heldUpEnv 200) polls 100 0).ret = .done () := by
  refine ⟨heldUpEnv_clock 200, heldUpEnv_readyFrom 200, by show (50 - 0) * 1 ≤ 100; omega,
    fun polls => heldUpEnv_transfers 200 polls 100 0, ?_⟩
  rintro ⟨polls, hret⟩
  cases polls with
  | zero => cases hret
  | succ polls =>
    have htimeout : (spiFlashCmdWaitReady (heldUpEnv 200) (polls + 1) 100 0).ret =
        .error .timeout := rfl
    rw [htimeout] at hret
    cases hret

/-! ## A wait comes to its end -/

/-- The loop ends, if one of the tests that lie ahead gives up. -/
theorem waitReadyLoop_ends (timeoutMs start : UInt32) (w : W) (n k : ℕ)
    (hgive : ¬ testMs env (pollWorld env w (k + n)) - start < timeoutMs) :
    ∃ o : Outcome W FlashEvent RtosErr Unit, o.ret ≠ .running ∧
      ∀ polls, n + 1 ≤ polls →
        waitReadyLoop env timeoutMs start polls (pollWorld env w k) = o := by
  -- a turn that does not go on ends in the same way for any number of polls
  have hend : ∀ {o : Outcome W FlashEvent RtosErr Unit}, o.ret ≠ .running →
      (∀ p, waitReadyLoop env timeoutMs start (p + 1) (pollWorld env w k) = o) →
      ∃ o : Outcome W FlashEvent RtosErr Unit, o.ret ≠ .running ∧
        ∀ polls, n + 1 ≤ polls →
          waitReadyLoop env timeoutMs start polls (pollWorld env w k) = o := by
    intro o ho h
    refine ⟨o, ho, fun polls hle => ?_⟩
    obtain ⟨p, rfl⟩ : ∃ p, polls = p + 1 := ⟨polls - 1, by omega⟩
    exact h p
  by_cases hs : pollSucceeds env (pollWorld env w k)
  · by_cases hready : seesReady env (pollWorld env w k)
    · refine hend (o := ⟨.done (), [pollEvent env (pollWorld env w k)],
        afterPoll env (pollWorld env w k)⟩) (by simp) fun p => ?_
      rw [waitReadyLoop_succ, if_pos hs, if_pos hready]
    · by_cases hlt : testMs env (pollWorld env w k) - start < timeoutMs
      · cases n with
        | zero => exact absurd hlt hgive
        | succ n =>
          obtain ⟨o, ho, hn⟩ := waitReadyLoop_ends timeoutMs start w n (k + 1)
            (by rw [show k + 1 + n = k + (n + 1) by omega]; exact hgive)
          refine ⟨⟨o.ret, pollEvent env (pollWorld env w k) :: o.trace, o.world⟩, ho,
            fun polls hle => ?_⟩
          obtain ⟨p, rfl⟩ : ∃ p, polls = p + 1 := ⟨polls - 1, by omega⟩
          rw [waitReadyLoop_succ, if_pos hs, if_neg hready, if_pos hlt]
          show Outcome.mk _ _ _ = _
          rw [show afterTest env (pollWorld env w k) = pollWorld env w (k + 1) from rfl,
            hn p (by omega)]
      · refine hend (o := ⟨.error .timeout, [pollEvent env (pollWorld env w k)],
          afterTest env (pollWorld env w k)⟩) (by simp) fun p => ?_
        rw [waitReadyLoop_succ, if_pos hs, if_neg hready, if_neg hlt]
  · refine hend (o := ⟨.error .fail, [pollEvent env (pollWorld env w k)],
      if env.sInitialized then afterPoll env (pollWorld env w k) else pollWorld env w k⟩) (by simp)
      fun p => ?_
    rw [waitReadyLoop_succ, if_neg hs]

/-- If the clock runs, some test of a wait gives up sooner or later. -/
theorem ClockRuns.exists_late (h : ClockRuns env now) {timeoutMs : UInt32}
    (hsmall : timeoutMs.toNat ≤ 2 ^ 31) (w : W) :
    ∃ i, ¬ testMs env (pollWorld env w i) - startMs env w < timeoutMs := by
  by_contra hno
  simp only [not_exists, not_not, h.toClock.testMs_lt_iff] at hno
  -- the elapsed time never wraps around, so it stays below the timeout
  have hbelow : ∀ i, (now (pollWorld env w i) - now (afterStart env w)) *
      env.cfg.portTickPeriodMs.toNat ≤ timeoutMs.toNat := by
    intro i
    induction i with
    | zero => simp [pollWorld]
    | succ i ih =>
      have hgap := h.gaps w i
      have hmono := h.toClock.pollWorld_mono w (Nat.zero_le i)
      have hmono' := h.toClock.pollWorld_succ w i
      have hlast := hno i
      unfold elapsedMs at hlast
      have hsum : (now (pollWorld env w (i + 1)) - now (afterStart env w)) *
          env.cfg.portTickPeriodMs.toNat =
          (now (pollWorld env w i) - now (afterStart env w)) * env.cfg.portTickPeriodMs.toNat +
          (now (pollWorld env w (i + 1)) - now (pollWorld env w i)) *
            env.cfg.portTickPeriodMs.toNat := by
        rw [← Nat.add_mul]
        congr 1
        have h0 : now (pollWorld env w 0) = now (afterStart env w) := rfl
        omega
      rw [Nat.mod_eq_of_lt (by omega)] at hlast
      omega
  obtain ⟨i, hi⟩ := h.advances w (now (afterStart env w) + timeoutMs.toNat + 1)
  have hle := hbelow i
  have hmul : timeoutMs.toNat + 1 ≤ (now (pollWorld env w i) - now (afterStart env w)) *
      env.cfg.portTickPeriodMs.toNat :=
    calc timeoutMs.toNat + 1 ≤ now (pollWorld env w i) - now (afterStart env w) := by omega
      _ ≤ _ := Nat.le_mul_of_pos_right _ h.period
  omega

/-- If the clock runs, a wait with a timeout of at most `2^31` ms comes to its end. -/
theorem spiFlashCmdWaitReady_terminates (h : ClockRuns env now) {timeoutMs : UInt32}
    (hsmall : timeoutMs.toNat ≤ 2 ^ 31) :
    Terminates fun polls => spiFlashCmdWaitReady env polls timeoutMs := by
  intro w
  obtain ⟨n, hn⟩ := h.exists_late hsmall w
  obtain ⟨o, ho, hends⟩ := waitReadyLoop_ends timeoutMs (startMs env w) w n 0
    (by rw [Nat.zero_add]; exact hn)
  refine ⟨⟨o.ret, o.trace ++ [.waitReady timeoutMs o.ret], o.world⟩, ho, n + 1, fun polls hle => ?_⟩
  show spiFlashCmdWaitReady env polls timeoutMs w = _
  rw [spiFlashCmdWaitReady_apply]
  show Outcome.mk _ _ _ = _
  rw [show afterStart env w = pollWorld env w 0 from rfl, hends polls hle]

end NicObFw
