import NicObFw.Proofs.FlashDeviceProofs

/-!
# A busy flash is not commanded

When the flash thread commands a flash that it has not seen finish. Inside an update every operation
ends with a wait, so an update that begins on a settled trace respects the device; an update that begins
after another has failed in the middle of an operation does not.
-/

namespace NicObFw

open Trace Traced NorFlash

variable {W : Type} {env : FlashEnv W} {polls : ℕ}

/-! ## Settled traces -/

theorem settled_snoc (tr : List FlashEvent) (e : FlashEvent) :
    settled (tr ++ [e]) = (e.seesReady || (settled tr && !e.modifies)) := by
  simp [settled, List.foldl_append]

/-- An entry that does not modify the flash leaves a settled trace settled. -/
theorem settled_snoc_of_not_modifies {tr : List FlashEvent} {e : FlashEvent} (h : settled tr = true)
    (he : e.modifies = false) : settled (tr ++ [e]) = true := by
  rw [settled_snoc, h, he]
  simp

/-- A trace that respects the device so far, and whose last operation has been seen finished. -/
structure Respects (tr : List FlashEvent) : Prop where
  commanded : EachGiven CommandedReady tr
  settled : settled tr = true

theorem commandedReady_snoc_of_quiet {tr : List FlashEvent} {e : FlashEvent}
    (h : EachGiven CommandedReady tr) (he : e.needsReady = false) :
    EachGiven CommandedReady (tr ++ [e]) := by
  refine eachGiven_snoc.2 ⟨h, fun hneeds => ?_⟩
  rw [he] at hneeds
  cases hneeds

/-- On a settled trace any command is in order. -/
theorem Respects.command {tr : List FlashEvent} (h : Respects tr) (e : FlashEvent) :
    EachGiven CommandedReady (tr ++ [e]) :=
  eachGiven_snoc.2 ⟨h.commanded, fun _ => h.settled⟩

theorem seesReady_readStatus {rx : Vector UInt8 2} (h : statusByte rx &&& flashStatusBusy = 0) :
    FlashEvent.seesReady (.spi (some readStatusTx) rx.toList true) = true := by
  have hrx : rx.toList.getD 1 flashStatusBusy = statusByte rx :=
    Memory.getD_toList rx (by decide) flashStatusBusy
  simp only [FlashEvent.seesReady, hrx, h]
  rfl

/-! ## One operation -/

theorem commandedReady_waitStable :
    WaitStable env fun tr _ => EachGiven CommandedReady tr where
  read _ _ _ _ _ h _ := commandedReady_snoc_of_quiet h rfl
  refused _ _ h := commandedReady_snoc_of_quiet h rfl
  tick _ _ h := h
  delay _ _ _ h := h

/-- What every end of a program says of the trace. -/
def Commanded : Ret RtosErr Unit → List FlashEvent → W → Prop :=
  fun _ tr _ => EachGiven CommandedReady tr

/-- An operation that begins on a settled trace respects the device, and ends settled if it succeeds. -/
theorem flashOperation_respects {tx : List UInt8} {n : ℕ} {timeoutMs : UInt32} :
    Triple (fun tr _ => Respects tr) (flashOperation env polls tx n timeoutMs)
      (Ends (fun _ tr _ => Respects tr) Commanded) := by
  unfold flashOperation
  refine triple_seq (M := fun _ tr _ => Respects tr) (sendCommand_triple ?_ ?_ ?_) fun _ => ?_
  · exact fun tr w rx w' h _ => ⟨h.command _, settled_snoc_of_not_modifies h.settled rfl⟩
  · exact fun tr w rx w' h _ => h.command _
  · exact fun tr w h _ => h.command _
  refine triple_seq (M := fun _ tr _ => EachGiven CommandedReady tr)
    (sendCommand_triple ?_ ?_ ?_) fun _ => ?_
  · exact fun tr w rx w' h _ => h.command _
  · exact fun tr w rx w' h _ => h.command _
  · exact fun tr w h _ => h.command _
  · refine spiFlashCmdWaitReady_triple (K := fun tr _ => Respects tr) commandedReady_waitStable ?_
      polls timeoutMs fun r tr w h => ?_
    · intro tr w rx w' h _ hready
      refine ⟨commandedReady_snoc_of_quiet h rfl, ?_⟩
      rw [settled_snoc, seesReady_readStatus hready, Bool.true_or]
    · cases r with
      | done _ =>
        have hr := h.2 rfl
        exact ⟨hr.command _, settled_snoc_of_not_modifies hr.settled rfl⟩
      | error _ => exact commandedReady_snoc_of_quiet h.1 rfl
      | running => exact commandedReady_snoc_of_quiet h.1 rfl

/-- An operation that begins on a trace that is not settled does not. -/
theorem flashOperation_unsettled (hinit : env.sInitialized = true) {tx : List UInt8} {n : ℕ}
    {timeoutMs : UInt32} :
    Triple (fun tr _ => settled tr = false) (flashOperation env polls tx n timeoutMs)
      fun _ tr _ => ¬ EachGiven CommandedReady tr := by
  have hwe : ∀ {tr : List FlashEvent} (rx : List UInt8) (ok : Bool), settled tr = false →
      ¬ EachGiven CommandedReady (tr ++ [.spi (some [flashCmdWriteEnable]) rx ok]) := by
    intro tr rx ok hno h
    have hs := (eachGiven_snoc.1 h).2 rfl
    rw [hno] at hs
    cases hs
  unfold flashOperation
  refine triple_seq (M := fun _ tr _ => ¬ EachGiven CommandedReady tr)
    (sendCommand_triple ?_ ?_ ?_) fun _ => triple_of_not_eachGiven _
  · exact fun tr w rx w' h _ => hwe rx.toList true h
  · exact fun tr w rx w' h _ => hwe rx.toList false h
  · intro tr w _ hi
    rw [hinit] at hi
    cases hi

/-! ## One update -/

theorem writeImageToStaging_respects (offset : UInt32) (data : ℕ → UInt8) (size : UInt32) :
    Triple (fun tr _ => Respects tr) (writeImageToStaging env polls offset data size)
      (Commanded : Ret RtosErr Unit → List FlashEvent → W → Prop) := by
  refine writeImageLoop_triple (I := fun _ _ _ tr _ => Respects tr)
    (M := fun _ _ _ tr _ => Respects tr) ?_ ?_ ?_ offset data size
  · intro addr data remaining _
    by_cases hboundary : addr.toNat % 4096 = 0
    · rw [eraseSectorEntered_boundary hboundary]
      exact flashOperation_respects
    · rw [eraseSectorEntered_inside hboundary]
      exact triple_pure fun _ _ h => h
  · intro addr data remaining _
    rw [writePage_chunk]
    exact flashOperation_respects
  · exact fun _ _ _ _ _ _ h => h.commanded

theorem writeImageToStaging_unsettled (hinit : env.sInitialized = true) (offset : UInt32)
    (data : ℕ → UInt8) {size : UInt32} (hsize : 0 < size.toNat) :
    Triple (fun tr _ => settled tr = false) (writeImageToStaging env polls offset data size)
      fun _ tr _ => ¬ EachGiven CommandedReady tr := by
  unfold writeImageToStaging
  rw [writeImageLoop_of_pos hsize]
  by_cases hboundary : offset.toNat % 4096 = 0
  · rw [eraseSectorEntered_boundary hboundary]
    exact triple_seq (flashOperation_unsettled hinit).ends fun _ => triple_of_not_eachGiven _
  · rw [eraseSectorEntered_inside hboundary, writePage_chunk]
    refine triple_seq (M := fun _ tr _ => settled tr = false) (triple_pure fun _ _ h => h) fun _ => ?_
    exact triple_seq (flashOperation_unsettled hinit).ends fun _ => triple_of_not_eachGiven _

/-- An empty update commands nothing. -/
theorem writeImageToStaging_empty (offset : UInt32) (data : ℕ → UInt8) {size : UInt32}
    (hsize : size.toNat = 0) (w : W) :
    (writeImageToStaging env polls offset data size w).trace = [] := by
  unfold writeImageToStaging
  rw [writeImageLoop_of_zero hsize]
  rfl

/-- What the handler makes of the result of the writing. -/
theorem handleUpdateStart_apply (data : ℕ → UInt8) (cmd : FlashCmd) (w : W) :
    handleUpdateStart env polls data cmd w =
      let o := writeImageToStaging env polls cmd.imageOffset data cmd.imageSize w
      ⟨match o.ret with
        | .done _ => .done (⟨.idle, false⟩, .ok)
        | .error err => .done (⟨.error, true⟩, err)
        | .running => .running, o.trace, o.world⟩ := by
  simp only [handleUpdateStart, Bind.bind, Traced.bind, attempt]
  cases (writeImageToStaging env polls cmd.imageOffset data cmd.imageSize w).ret with
  | done _ => simp [pure]
  | error _ => simp [pure]
  | running => rfl

theorem handleUpdateStart_trace (data : ℕ → UInt8) (cmd : FlashCmd) (w : W) :
    (handleUpdateStart env polls data cmd w).trace =
      (writeImageToStaging env polls cmd.imageOffset data cmd.imageSize w).trace := by
  rw [handleUpdateStart_apply]

/-! ## Runs of the task -/

/-- The command is an update that has something to write. -/
def FlashJob.StartsWrite (job : FlashJob W) : Prop :=
  job.cmd.cmdType = flashCmdUpdateStart ∧ 0 < job.cmd.imageSize.toNat

/-- Everything that a step of the task can do. -/
inductive FlashTaskStep (env : FlashEnv W) (t : FlashTask W) (job : FlashJob W) :
    FlashTask W → List FlashEvent → Prop
  | ended (st : FlashMgrState) (err : RtosErr) (hstart : job.cmd.cmdType = flashCmdUpdateStart)
      (hret : (handleUpdateStart env job.polls job.data job.cmd (job.elapse t.world)).ret =
        .done (st, err)) :
    FlashTaskStep env t job
      ⟨st, (handleUpdateStart env job.polls job.data job.cmd (job.elapse t.world)).world, false⟩
      (handleUpdateStart env job.polls job.data job.cmd (job.elapse t.world)).trace
  | stuck (hstart : job.cmd.cmdType = flashCmdUpdateStart) :
    FlashTaskStep env t job
      ⟨⟨.receiving, true⟩,
        (handleUpdateStart env job.polls job.data job.cmd (job.elapse t.world)).world, true⟩
      (handleUpdateStart env job.polls job.data job.cmd (job.elapse t.world)).trace
  | abort (hstart : job.cmd.cmdType ≠ flashCmdUpdateStart)
      (habort : job.cmd.cmdType = flashCmdUpdateAbort) :
    FlashTaskStep env t job ⟨⟨.idle, false⟩, job.elapse t.world, t.stuck⟩ []
  | other (hstart : job.cmd.cmdType ≠ flashCmdUpdateStart)
      (habort : job.cmd.cmdType ≠ flashCmdUpdateAbort) :
    FlashTaskStep env t job ⟨t.st, job.elapse t.world, t.stuck⟩ []

/-- A step of the task is one of the listed ones, and only a task between two commands takes one. -/
theorem nicFlashMgrTask_step_cases {t t' : FlashTask W} {job : FlashJob W} {evs : List FlashEvent}
    (hs : (nicFlashMgrTask env).step t job = some (t', evs)) :
    t.stuck = false ∧ FlashTaskStep env t job t' evs := by
  simp only [nicFlashMgrTask] at hs
  split at hs
  · cases hs
  · rename_i hfree
    refine ⟨Bool.eq_false_iff.2 hfree, ?_⟩
    split at hs
    · rename_i hstart
      split at hs
      · rename_i st err hret
        obtain ⟨rfl, rfl⟩ := Prod.mk.inj (Option.some.inj hs)
        exact .ended st err hstart hret
      · obtain ⟨rfl, rfl⟩ := Prod.mk.inj (Option.some.inj hs)
        exact .stuck hstart
    · rename_i hstart
      split at hs
      · rename_i habort
        obtain ⟨rfl, rfl⟩ := Prod.mk.inj (Option.some.inj hs)
        exact .abort hstart habort
      · rename_i habort
        obtain ⟨rfl, rfl⟩ := Prod.mk.inj (Option.some.inj hs)
        exact .other hstart habort

/-- What a step of the task adds to the trace. -/
theorem nicFlashMgrTask_step_trace {t t' : FlashTask W} {job : FlashJob W} {evs : List FlashEvent}
    (hs : (nicFlashMgrTask env).step t job = some (t', evs)) :
    evs = if job.cmd.cmdType = flashCmdUpdateStart then
        (writeImageToStaging env job.polls job.cmd.imageOffset job.data job.cmd.imageSize
          (job.elapse t.world)).trace
      else [] := by
  cases (nicFlashMgrTask_step_cases hs).2 with
  | ended st err hstart hret => rw [if_pos hstart, handleUpdateStart_trace]
  | stuck hstart => rw [if_pos hstart, handleUpdateStart_trace]
  | abort hstart habort => rw [if_neg hstart]
  | other hstart habort => rw [if_neg hstart]

/-- A step respects the device exactly when it does not begin to write on a trace that is not settled. -/
theorem nicFlashMgrTask_step_commanded (hinit : env.sInitialized = true) {t t' : FlashTask W}
    {job : FlashJob W} {tr evs : List FlashEvent} (htr : EachGiven CommandedReady tr)
    (hs : (nicFlashMgrTask env).step t job = some (t', evs)) :
    EachGiven CommandedReady (tr ++ evs) ↔ (job.StartsWrite → settled tr = true) := by
  rw [nicFlashMgrTask_step_trace hs]
  by_cases hstart : job.cmd.cmdType = flashCmdUpdateStart
  · rw [if_pos hstart]
    rcases Nat.eq_zero_or_pos job.cmd.imageSize.toNat with hzero | hpos
    · rw [writeImageToStaging_empty _ _ hzero, List.append_nil]
      exact ⟨fun _ h => absurd h.2 (by omega), fun _ => htr⟩
    · constructor
      · intro h _
        by_contra hno
        exact writeImageToStaging_unsettled hinit _ _ hpos tr (job.elapse t.world)
          (Bool.eq_false_iff.2 hno) h
      · intro h
        exact writeImageToStaging_respects _ _ _ tr (job.elapse t.world) ⟨htr, h ⟨hstart, hpos⟩⟩
  · rw [if_neg hstart, List.append_nil]
    exact ⟨fun _ h => absurd h.1 hstart, fun _ => htr⟩

/-- The state in which the task starts, after `nic_flash_mgr_init`. -/
def flashTaskInit (env : FlashEnv W) (w : W) : FlashTask W :=
  ⟨⟨.idle, false⟩, (nicFlashMgrInit env w).world, false⟩

/-- `nic_flash_mgr_init` commands nothing. -/
theorem nicFlashMgrInit_quiet (w : W) : EachGiven CommandedReady (nicFlashMgrInit env w).trace := by
  suffices h : Triple (fun tr w' => tr = [] ∧ w' = w) (nicFlashMgrInit env)
      fun _ tr _ => EachGiven CommandedReady tr from triple_from_start.1 h
  unfold nicFlashMgrInit spiFlashCmdInit spiFlashCmdReadId
  refine triple_seq (M := fun _ tr _ => EachGiven CommandedReady tr) ?_ fun _ =>
    triple_pure fun _ _ h => h
  refine triple_seq (M := fun _ tr _ => EachGiven CommandedReady tr) ?_ fun _ =>
    triple_pure fun _ _ h => h
  refine triple_seq (M := fun _ tr _ => EachGiven CommandedReady tr) ?_ fun _ =>
    triple_pure fun _ _ h => h
  refine nicChipHalSpiTransfer_triple ?_ ?_ ?_
  · rintro _ _ rx w' ⟨rfl, rfl⟩ _
    exact commandedReady_snoc_of_quiet eachGiven_nil rfl
  · rintro _ _ rx w' ⟨rfl, rfl⟩ _
    exact commandedReady_snoc_of_quiet eachGiven_nil rfl
  · rintro _ _ ⟨rfl, rfl⟩ _
    exact commandedReady_snoc_of_quiet eachGiven_nil rfl

/-- `nic_flash_mgr_init` only succeeds when the HAL is initialised. -/
theorem sInitialized_of_init {w : W} {st : FlashMgrState}
    (hret : (nicFlashMgrInit env w).ret = .done st) : env.sInitialized = true := by
  cases hi : env.sInitialized with
  | true => rfl
  | false =>
    simp [nicFlashMgrInit, spiFlashCmdInit, spiFlashCmdReadId, Bind.bind, Traced.bind,
      nicChipHalSpiTransfer_apply, hi] at hret

/-- In a run of the task from boot, no command comes before the last operation has been seen finished,
exactly when every update that has something to write is taken on a settled trace. -/
theorem nicFlashMgrTask_commandedReady_iff (env : FlashEnv W) (w : W) (st : FlashMgrState)
    (hinit : (nicFlashMgrInit env w).ret = .done st) (jobs : List (FlashJob W)) (t : FlashTask W)
    (tr : List FlashEvent) (hrun : (nicFlashMgrTask env).exec (flashTaskInit env w) jobs = some (t, tr)) :
    EachGiven CommandedReady ((nicFlashMgrInit env w).trace ++ tr) ↔
      (nicFlashMgrTask env).AllSteps (fun _ tr' job => job.StartsWrite →
        settled ((nicFlashMgrInit env w).trace ++ tr') = true) (flashTaskInit env w) jobs := by
  have hi := sInitialized_of_init hinit
  induction jobs using List.reverseRecOn generalizing t tr with
  | nil =>
    obtain ⟨-, rfl⟩ : flashTaskInit env w = t ∧ [] = tr := by simpa using hrun
    rw [List.append_nil]
    exact ⟨fun _ => Machine.allSteps_nil, fun _ => nicFlashMgrInit_quiet w⟩
  | append_singleton jobs job ih =>
    obtain ⟨t', tr', evs, he, hs, rfl⟩ := Machine.exec_snoc.1 hrun
    rw [← List.append_assoc]
    refine Iff.trans ?_ Machine.allSteps_snoc.symm
    constructor
    · intro h
      have hbefore := h.of_append
      refine ⟨(ih t' tr' he).1 hbefore, fun t₂ tr₂ he₂ => ?_⟩
      obtain ⟨-, rfl⟩ : t' = t₂ ∧ tr' = tr₂ := by simpa using he.symm.trans he₂
      exact (nicFlashMgrTask_step_commanded hi hbefore hs).1 h
    · rintro ⟨hbefore, hlast⟩
      exact (nicFlashMgrTask_step_commanded hi ((ih t' tr' he).2 hbefore) hs).2 (hlast t' tr' he)

/-- An update of one byte, to be cut off after one poll. -/
def oneByteUpdate : FlashJob W where
  cmd := ⟨flashCmdUpdateStart, 0, 0, 0, 1⟩
  elapse := id
  data := fun _ => 0
  polls := 1

/-- An update on a device that finishes everything at once. -/
theorem nicFlashMgrTask_commandedReady_ideal :
    ∃ t tr, (nicFlashMgrTask idealEnv).exec (flashTaskInit idealEnv ⟨fun _ => 0xFF, false, false⟩)
        [oneByteUpdate] = some (t, tr) ∧
      EachGiven CommandedReady
        ((nicFlashMgrInit idealEnv ⟨fun _ => 0xFF, false, false⟩).trace ++ tr) := by
  obtain ⟨⟨t, tr⟩, hrun⟩ := Option.isSome_iff_exists.1
    (show ((nicFlashMgrTask idealEnv).exec (flashTaskInit idealEnv ⟨fun _ => 0xFF, false, false⟩)
      [oneByteUpdate]).isSome = true by decide +kernel)
  refine ⟨t, tr, hrun, (nicFlashMgrTask_commandedReady_iff idealEnv _ ⟨.idle, false⟩
    (by decide +kernel) _ t tr hrun).2 ?_⟩
  show Machine.AllSteps _ _ _ ([] ++ [oneByteUpdate])
  refine Machine.allSteps_snoc.2 ⟨Machine.allSteps_nil, fun t' tr' he _ => ?_⟩
  obtain ⟨-, rfl⟩ : _ = t' ∧ [] = tr' := by simpa using he
  decide +kernel

/-- A device that is still busy when a wait gives up: every status read finds it busy, and the thread
is preempted for three seconds in each poll. -/
def busyEnv : FlashEnv ℕ where
  cfg := ⟨10, 100⟩
  sInitialized := true
  spiDeviceTransmit w _ n := (true, Vector.replicate n 1, w)
  xTaskGetTickCount w := (w, w + 301)
  vTaskDelay w _ := w

/-- After an erase that timed out, the next update commands the device at once. -/
theorem update_after_timeout_not_ready :
    ∃ tr, ((nicFlashMgrTask busyEnv).exec (flashTaskInit busyEnv 0)
        [oneByteUpdate, oneByteUpdate]).map Prod.snd = some tr ∧
      ¬ EachGiven CommandedReady ((nicFlashMgrInit busyEnv 0).trace ++ tr) := by
  let update : List FlashEvent :=
    [.spi (some [0x06]) [1] true, .spi (some [0x20, 0, 0, 0]) [1, 1, 1, 1] true,
      .spi (some readStatusTx) [1, 1] true, .waitReady 3000 (.error .timeout)]
  refine ⟨update ++ update, by decide +kernel, fun h => ?_⟩
  have hready := h ((nicFlashMgrInit busyEnv 0).trace ++ update) (.spi (some [0x06]) [1] true)
    update.tail (by simp [update]) rfl
  exact absurd hready (by decide +kernel)

end NicObFw
