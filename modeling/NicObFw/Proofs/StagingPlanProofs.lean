import NicObFw.StagingPlan
import NicObFw.Proofs.FlashSystemProofs
import NicObFw.Proofs.StagingFailureProofs

/-!
# Proofs: staging plans

The staging loop carries out the plan of its update (`writeImageLoop_eq_forM`), so that whatever goes over
the SPI bus can be read off plans: in every run the bus sees the plans of the granted updates
(`flashSystem_followsPlans`), and the flash is told to erase no sector and to program no byte twice for
one update (`flashSystem_programsOnce`).
-/

namespace NicObFw

open Traced NorFlash

variable {W : Type} {env : FlashEnv W} {polls : ℕ}

/-! ## The loop is the plan -/

/-- The program that carries out an operation. -/
def FlashOperation.run (env : FlashEnv W) (polls : ℕ) (op : FlashOperation) : FlashM W Unit :=
  flashOperation env polls op.tx op.tx.length op.timeoutMs

theorem pageOperations_succ (offset size : ℕ) (image : ℕ → UInt8) (k : ℕ) :
    pageOperations offset size image (k + 1) =
      pageOperations (offset + 256) (size - 256) (fun i => image (256 + i)) k := by
  have hsize : size - 256 * (k + 1) = size - 256 - 256 * k := by omega
  have haddr : offset + 256 * (k + 1) = offset + 256 + 256 * k := by omega
  have hindex : ∀ i, 256 * (k + 1) + i = 256 + (256 * k + i) := by omega
  simp only [pageOperations, flashPageSize, hsize, haddr, hindex]

/-- The plan page by page. -/
theorem stagingPlan_of_pos {size : ℕ} (h : 0 < size) (offset : ℕ) (image : ℕ → UInt8) :
    stagingPlan offset size image =
      pageOperations offset size image 0 ++
        stagingPlan (offset + 256) (size - 256) (fun i => image (256 + i)) := by
  have hcount : pageCount size = pageCount (size - 256) + 1 := by
    simp only [pageCount, flashPageSize]
    omega
  rw [stagingPlan, hcount, List.range_succ_eq_map, List.flatMap_cons, List.flatMap_map]
  simp only [pageOperations_succ]
  rfl

theorem stagingPlan_zero (offset : ℕ) (image : ℕ → UInt8) : stagingPlan offset 0 image = [] := rfl

/-- One turn of the loop carries out the operations of one page. -/
theorem pageOperations_forM {a : ℕ} {addr remaining : UInt32} (ha : addr = UInt32.ofNat a)
    (data : ℕ → UInt8) :
    forM (pageOperations a remaining.toNat data 0) (FlashOperation.run env polls) = (do
      eraseSectorEntered env polls addr
      writePage env polls addr data (pageChunk remaining)) := by
  have hmod : addr.toNat % 4096 = a % 4096 := by
    rw [ha, UInt32.toNat_ofNat']
    omega
  have hpage : FlashOperation.run env polls (.pageProgram a
      ((List.range (min 256 remaining.toNat)).map data)) =
        writePage env polls addr data (pageChunk remaining) := by
    rw [writePage_chunk, pageChunk_toNat, Nat.min_comm remaining.toNat 256,
      ← length_pageProgramTx addr data, ha]
    rfl
  have hoperations : pageOperations a remaining.toNat data 0 =
      if a % 4096 = 0 then
        [.sectorErase a, .pageProgram a ((List.range (min 256 remaining.toNat)).map data)]
      else [.pageProgram a ((List.range (min 256 remaining.toNat)).map data)] := by
    simp [pageOperations, flashPageSize, flashSectorSize]
  rw [hoperations]
  by_cases hboundary : a % 4096 = 0
  · have herase : FlashOperation.run env polls (.sectorErase a) = eraseSectorEntered env polls addr := by
      rw [eraseSectorEntered_boundary (hmod.trans hboundary), ha]
      rfl
    rw [if_pos hboundary, List.forM_cons, List.forM_cons, List.forM_nil, herase, hpage, bind_pure_unit]
  · rw [if_neg hboundary, eraseSectorEntered_inside (fun h => hboundary (hmod.symm.trans h)),
      List.forM_cons, List.forM_nil, hpage, bind_pure_unit, pure_bind]

/-- The loop carries out the plan, operation after operation, until one fails. -/
theorem writeImageLoop_eq_forM (a : ℕ) {addr : UInt32} (ha : addr = UInt32.ofNat a)
    (data : ℕ → UInt8) (remaining : UInt32) :
    writeImageLoop env polls addr data remaining =
      forM (stagingPlan a remaining.toNat data) (FlashOperation.run env polls) := by
  induction hn : remaining.toNat using Nat.strongRecOn generalizing a addr data remaining with
  | ind n ih =>
    subst hn
    rcases Nat.eq_zero_or_pos remaining.toNat with hzero | hpos
    · rw [writeImageLoop_of_zero hzero, hzero, stagingPlan_zero, List.forM_nil]
    · have hrest : writeImageLoop env polls (addr + (pageChunk remaining).toUInt32)
          (fun i => data ((pageChunk remaining).toNat + i))
          (remaining - (pageChunk remaining).toUInt32) =
            forM (stagingPlan (a + 256) (remaining.toNat - 256) fun i => data (256 + i))
              (FlashOperation.run env polls) := by
        rcases Nat.lt_or_ge 256 remaining.toNat with hmore | hlast
        · have hchunk : pageChunk remaining = 256 := if_pos hmore
          have hnext : addr + (256 : UInt16).toUInt32 = UInt32.ofNat (a + 256) := by
            rw [ha, UInt32.ofNat_add]
            rfl
          have hih := ih _ (by rw [pageChunk_remaining]; omega) (a + 256) hnext
            (fun i => data (256 + i)) (remaining - (pageChunk remaining).toUInt32) rfl
          rw [pageChunk_remaining] at hih
          rw [← hih, hchunk]
          rfl
        · rw [writeImageLoop_of_zero (by rw [pageChunk_remaining]; omega),
            Nat.sub_eq_zero_of_le hlast, stagingPlan_zero, List.forM_nil]
      rw [writeImageLoop_of_pos hpos, stagingPlan_of_pos hpos, List.forM_append,
        pageOperations_forM ha, bind_assoc, hrest]

/-! ## What is left on the bus -/

theorem reads_pollEvent {w : W} (h : pollSucceeds env w) :
    (pollEvent env w).reads (decide (¬ seesReady env w)) = true := by
  have hstatus : (env.spiDeviceTransmit w (some readStatusTx) 2).2.1.toList.getD 1 0 =
      statusByte (env.spiDeviceTransmit w (some readStatusTx) 2).2.1 :=
    Memory.getD_toList _ (by decide) 0
  unfold pollEvent
  rw [if_pos h.1, h.2, FlashEvent.reads, hstatus]
  by_cases hready : seesReady env w
  · have hzero := hready
    rw [seesReady] at hzero
    simpa [hready, readStatusTx] using hzero
  · have hbusy := hready
    rw [seesReady] at hbusy
    simpa [hready, readStatusTx] using hbusy

theorem failsToSend_pollEvent {w : W} (h : ¬ pollSucceeds env w) :
    (pollEvent env w).failsToSend [flashCmdReadStatus, 0x00] = true := by
  unfold pollEvent
  by_cases hi : env.sInitialized = true
  · have hok : (env.spiDeviceTransmit w (some readStatusTx) 2).1 = false := by
      simpa [pollSucceeds, hi] using h
    rw [if_pos hi, hok]
    rfl
  · rw [if_neg hi]
    rfl

/-- A status read that finds the flash busy goes before a wait. -/
theorem WaitTranscript.cons {timeoutMs : UInt32} {ret : Ret RtosErr Unit} {tr : List FlashEvent}
    {e : FlashEvent} (he : e.reads true = true) (h : WaitTranscript timeoutMs ret tr) :
    WaitTranscript timeoutMs ret (e :: tr) := by
  cases h with
  | ready reads e' hreads he' => exact .ready (e :: reads) e' (List.forall_mem_cons.2 ⟨he, hreads⟩) he'
  | gaveUp _ reads hreads hret =>
    exact .gaveUp ret (e :: reads) (List.forall_mem_cons.2 ⟨he, hreads⟩) hret
  | failed reads e' hreads he' =>
    exact .failed (e :: reads) e' (List.forall_mem_cons.2 ⟨he, hreads⟩) he'

theorem waitReadyLoop_transcript (timeoutMs timeout start : UInt32) (polls : ℕ) (w : W) :
    WaitTranscript timeoutMs (waitReadyLoop env timeout start polls w).ret
      ((waitReadyLoop env timeout start polls w).trace ++
        [.waitReady timeoutMs (waitReadyLoop env timeout start polls w).ret]) := by
  induction polls generalizing w with
  | zero => exact .gaveUp .running [] (by simp) (Or.inl rfl)
  | succ polls ih =>
    rcases waitReadyLoop_turn timeout start polls w with
      ⟨hno, he⟩ | ⟨hs, hready, he⟩ | ⟨hs, hbusy, -, he⟩ | ⟨hs, hbusy, -, he⟩
    · rw [he]
      exact .failed [] _ (by simp) (failsToSend_pollEvent hno)
    · rw [he]
      exact .ready [] _ (by simp) (by simpa [hready] using reads_pollEvent hs)
    · have hread : (pollEvent env w).reads true = true := by simpa [hbusy] using reads_pollEvent hs
      rw [he]
      exact (ih (afterTest env w)).cons hread
    · have hread : (pollEvent env w).reads true = true := by simpa [hbusy] using reads_pollEvent hs
      rw [he]
      exact .gaveUp _ [_] (by simpa using hread) (Or.inr rfl)

theorem spiFlashCmdWaitReady_transcript (polls : ℕ) (timeoutMs : UInt32) (w : W) :
    WaitTranscript timeoutMs (spiFlashCmdWaitReady env polls timeoutMs w).ret
      (spiFlashCmdWaitReady env polls timeoutMs w).trace := by
  rw [spiFlashCmdWaitReady_apply]
  exact waitReadyLoop_transcript timeoutMs timeoutMs (startMs env w) polls (afterStart env w)

/-- An operation leaves a transcript of it on the bus. -/
theorem FlashOperation.run_transcript (op : FlashOperation) (w : W) :
    OperationTranscript op (op.run env polls w).ret (op.run env polls w).trace := by
  refine (triple_from_start (Q := fun r tr _ => OperationTranscript op r tr)).1 ?_
  unfold FlashOperation.run flashOperation
  refine triple_seq (M := fun _ tr _ => ∃ rx, tr = [.spi (some [flashCmdWriteEnable]) rx true])
    (sendCommand_triple ?_ ?_ ?_) fun _ => ?_
  · rintro tr w rx w' ⟨rfl, -⟩ -
    exact ⟨rx.toList, rfl⟩
  · rintro tr w rx w' ⟨rfl, -⟩ -
    exact .notEnabled _ rfl
  · rintro tr w ⟨rfl, -⟩ -
    exact .notEnabled _ rfl
  refine triple_seq (M := fun _ tr _ => ∃ rx rx', tr =
    [.spi (some [flashCmdWriteEnable]) rx true, .spi (some op.tx) rx' true])
    (sendCommand_triple ?_ ?_ ?_) fun _ => ?_
  · rintro tr w rx' w' ⟨rx, rfl⟩ -
    exact ⟨rx, rx'.toList, rfl⟩
  · rintro tr w rx' w' ⟨rx, rfl⟩ -
    exact .notSent rx _ (by simp [FlashEvent.failsToSend])
  · rintro tr w ⟨rx, rfl⟩ -
    exact .notSent rx _ (by simp [FlashEvent.failsToSend])
  rintro tr w ⟨rx, rx', rfl⟩
  exact .sent rx rx' _ _ (spiFlashCmdWaitReady_transcript polls op.timeoutMs w)

/-! ## Success and failure -/

theorem succeeded_of_reads {busy : Bool} {e : FlashEvent} (h : e.reads busy = true) :
    e.succeeded = true := by
  cases e with
  | spi tx rx ok =>
    cases ok with
    | true => rfl
    | false => cases tx <;> cases h
  | _ => cases h

theorem not_succeeded_of_failsToSend {tx : List UInt8} {e : FlashEvent}
    (h : e.failsToSend tx = true) : e.succeeded = false := by
  cases e with
  | spi tx' rx ok =>
    cases ok with
    | true => cases tx' <;> cases h
    | false => rfl
  | spiRefused tx' => rfl
  | waitReady timeoutMs ret => cases h

theorem WaitTranscript.done_iff {timeoutMs : UInt32} {ret : Ret RtosErr Unit} {tr : List FlashEvent}
    (h : WaitTranscript timeoutMs ret tr) : ret = .done () ↔ AllSucceeded tr := by
  cases h with
  | ready reads e hreads he =>
    refine iff_of_true rfl fun x hx => ?_
    rcases List.mem_append.1 hx with hx | hx
    · exact succeeded_of_reads (hreads x hx)
    · rcases List.mem_pair.1 hx with rfl | rfl
      · exact succeeded_of_reads he
      · rfl
  | gaveUp _ reads hreads hret =>
    have hne : ret ≠ .done () := by rcases hret with rfl | rfl <;> simp
    refine iff_of_false hne fun hall => hne ?_
    simpa [FlashEvent.succeeded] using hall (.waitReady timeoutMs ret) (by simp)
  | failed reads e hreads he =>
    refine iff_of_false (by simp) fun hall => ?_
    have hok := hall e (by simp)
    rw [not_succeeded_of_failsToSend he] at hok
    cases hok

theorem OperationTranscript.done_iff {op : FlashOperation} {ret : Ret RtosErr Unit}
    {tr : List FlashEvent} (h : OperationTranscript op ret tr) : ret = .done () ↔ AllSucceeded tr := by
  cases h with
  | notEnabled e he =>
    refine iff_of_false (by simp) fun hall => ?_
    have hok := hall e (by simp)
    rw [not_succeeded_of_failsToSend he] at hok
    cases hok
  | notSent rx e he =>
    refine iff_of_false (by simp) fun hall => ?_
    have hok := hall e (by simp)
    rw [not_succeeded_of_failsToSend he] at hok
    cases hok
  | sent rx rx' _ wait hwait =>
    rw [hwait.done_iff]
    simp [AllSucceeded, FlashEvent.succeeded]

theorem inTurn_done_iff {plan : List FlashOperation} {ret : Ret RtosErr Unit} {tr : List FlashEvent}
    (h : InTurn OperationTranscript plan ret tr) : ret = .done () ↔ AllSucceeded tr := by
  induction h with
  | finished => exact iff_of_true rfl (by simp [AllSucceeded])
  | next op plan ret tr tr' hop _ ih =>
    rw [ih]
    have hdone : AllSucceeded tr := hop.done_iff.1 rfl
    exact ⟨fun h => List.forall_mem_append.2 ⟨hdone, h⟩, fun h => (List.forall_mem_append.1 h).2⟩
  | stopped op plan ret tr hop hret => exact hop.done_iff

/-- What a staging write puts on the bus is its plan, up to the first failure. -/
theorem writeImageToStaging_followsPlan (offset size : UInt32) (image : ℕ → UInt8) (w : W) :
    FollowsPlan (stagingPlan offset.toNat size.toNat image)
      (writeImageToStaging env polls offset image size w).trace := by
  unfold writeImageToStaging
  rw [writeImageLoop_eq_forM offset.toNat (UInt32.ofNat_toNat).symm]
  have hrun : ∀ (op : FlashOperation) (w : W),
      OperationTranscript op (op.run env polls w).ret (op.run env polls w).trace :=
    FlashOperation.run_transcript
  have h := forM_inTurn hrun (stagingPlan offset.toNat size.toNat image) w
  exact ⟨_, h, inTurn_done_iff h⟩

/-! ## Executions -/

variable {cfg : TickConfig} {s s' : FlashSystem W} {a : FlashSystemAction W}
  {tr evs : List FlashSystemEvent} {xs : List UpdateExecution}

/-- What has been executed, and what is being executed. -/
structure ExecutedInv (s : FlashSystem W) (tr : List FlashSystemEvent) (xs : List UpdateExecution) :
    Prop where
  trace : flashEvents tr = xs.flatMap UpdateExecution.trace
  cmds : ∃ last, xs.map UpdateExecution.cmd = flashCommandsFinished (firmwareEvents tr) ++ last ∧
    last <+: s.fw.flashTask.toList ∧ (s.task.stuck = false → last = [])
  plans : ∀ x ∈ xs, x.cmd.cmdType = flashCmdUpdateStart → FollowsPlan x.plan x.trace

theorem nicFlashMgrTask_step_followsPlan {t t' : FlashTask W} {job : FlashJob W}
    {fevs : List FlashEvent} (hs : (nicFlashMgrTask env).step t job = some (t', fevs))
    (hstart : job.cmd.cmdType = flashCmdUpdateStart) :
    FollowsPlan (stagingPlan job.cmd.imageOffset.toNat job.cmd.imageSize.toNat job.data) fevs := by
  rw [nicFlashMgrTask_step_trace hs, if_pos hstart]
  exact writeImageToStaging_followsPlan _ _ _ _

theorem flashTask_firmware_step {fw fw' : Firmware} {a : FwAction} {fevs : List FwEvent}
    (hne : a ≠ .flashFinish) (hs : (firmware cfg).step fw a = some (fw', fevs)) :
    fw.flashTask.toList <+: fw'.flashTask.toList := by
  cases firmware_step_cases hs with
  | flashReceive cmd q hidle hq =>
    rw [hidle]
    exact List.nil_prefix
  | flashFinish cmd hbusy => exact absurd rfl hne
  | _ => exact List.prefix_rfl

theorem ExecutedInv.step (h : ExecutedInv s tr xs)
    (hs : (flashSystem cfg env).step s a = some (s', evs)) :
    ExecutedInv s' (tr ++ evs) (xs ++ updatesExecuted s a evs) := by
  obtain ⟨htrace, ⟨last, hcmds, hlast, hfree⟩, hplans⟩ := h
  cases flashSystem_step_cases hs with
  | firmware a fw fevs hne hstep =>
    refine ⟨?_, ⟨last, ?_, hlast.trans (flashTask_firmware_step hne hstep), hfree⟩, ?_⟩
    · rw [flashEvents_append, flashEvents_map_firmware, List.append_nil, updatesExecuted, List.append_nil,
        htrace]
    · rw [updatesExecuted, List.append_nil, firmwareEvents_append, firmwareEvents_map_firmware,
        flashCommandsFinished_append, finished_of_firmware_step hne hstep, List.append_nil, hcmds]
    · rw [updatesExecuted, List.append_nil]
      exact hplans
  | executed elapse data polls cmd task fevs hcmd hstep hdone =>
    have hidle := (nicFlashMgrTask_step_cases hstep).1
    have hnone : last = [] := hfree hidle
    have hnew : updatesExecuted s (.execute elapse data polls)
        (fevs.map .flash ++ [.firmware (.flashFinished cmd)]) = [⟨cmd, data, fevs⟩] := by
      rw [updatesExecuted, hcmd, flashEvents_append, flashEvents_map_flash]
      simp [flashEvents]
    rw [hnew]
    refine ⟨?_, ⟨[], ?_, List.nil_prefix, fun _ => rfl⟩, ?_⟩
    · rw [flashEvents_append, flashEvents_append, flashEvents_map_flash, htrace]
      simp [flashEvents]
    · rw [List.map_append, hcmds, hnone, firmwareEvents_append, firmwareEvents_append,
        firmwareEvents_map_flash, flashCommandsFinished_append]
      simp [firmwareEvents, flashCommandsFinished]
    · refine List.forall_mem_append.2 ⟨hplans, List.forall_mem_singleton.2 fun hstart => ?_⟩
      exact nicFlashMgrTask_step_followsPlan hstep hstart
  | stuck elapse data polls cmd task fevs hcmd hstep hstuck =>
    have hidle := (nicFlashMgrTask_step_cases hstep).1
    have hnone : last = [] := hfree hidle
    have hnew : updatesExecuted s (.execute elapse data polls) (fevs.map .flash) =
        [⟨cmd, data, fevs⟩] := by
      rw [updatesExecuted, hcmd, flashEvents_map_flash]
      rfl
    rw [hnew]
    refine ⟨?_, ⟨[cmd], ?_, ?_, ?_⟩, ?_⟩
    · rw [flashEvents_append, flashEvents_map_flash, htrace]
      simp
    · rw [List.map_append, hcmds, hnone, firmwareEvents_append, firmwareEvents_map_flash, List.append_nil,
        List.append_nil]
      rfl
    · rw [hcmd]
      exact List.prefix_rfl
    · intro hno
      rw [hstuck] at hno
      cases hno
    · refine List.forall_mem_append.2 ⟨hplans, List.forall_mem_singleton.2 fun hstart => ?_⟩
      exact nicFlashMgrTask_step_followsPlan hstep hstart

theorem executedInv_of_exec {ticks : ℕ} {w : W} {acts : List (FlashSystemAction W)}
    (hrun : (flashSystem cfg env).exec (flashSystemInit cfg ticks w) acts = some (s, tr)) :
    ExecutedInv s tr
      ((flashSystem cfg env).observe updatesExecuted (flashSystemInit cfg ticks w) acts) :=
  Machine.invariant_observe ⟨rfl, ⟨[], rfl, List.nil_prefix, fun _ => rfl⟩, by simp⟩
    (fun _ _ _ _ _ _ hI hs => hI.step hs) hrun

/-- The updates are executed in the order in which they were granted. -/
theorem executed_granted {ticks : ℕ} {w : W} {acts : List (FlashSystemAction W)}
    (hrun : (flashSystem cfg env).exec (flashSystemInit cfg ticks w) acts = some (s, tr))
    (hfit : MessagesFit (firmwareEvents tr)) :
    ((flashSystem cfg env).observe updatesExecuted (flashSystemInit cfg ticks w) acts).map
      UpdateExecution.cmd <+: grantedUpdates (firmwareEvents tr) := by
  obtain ⟨last, hcmds, hlast, -⟩ := (executedInv_of_exec hrun).cmds
  rw [hcmds, granted_of_exec hrun hfit, List.append_assoc]
  exact (List.prefix_append_right_inj _).2 (hlast.trans (List.prefix_append _ _))

/-- On every device, and however transfers and waits end: everything that goes over the SPI bus after
`nic_flash_mgr_init` belongs to the execution of an update. The updates are executed one after the other in
the order in which they were granted, and each execution is the plan of its update, carried out up to its
end or to the first failure. -/
theorem flashSystem_followsPlans (cfg : TickConfig) (env : FlashEnv W) (ticks : ℕ) (w : W)
    (acts : List (FlashSystemAction W)) (s : FlashSystem W) (tr : List FlashSystemEvent)
    (hrun : (flashSystem cfg env).exec (flashSystemInit cfg ticks w) acts = some (s, tr))
    (hfit : MessagesFit (firmwareEvents tr)) :
    let executions := (flashSystem cfg env).observe updatesExecuted (flashSystemInit cfg ticks w) acts
    flashEvents tr = executions.flatMap UpdateExecution.trace ∧
      executions.map UpdateExecution.cmd <+: grantedUpdates (firmwareEvents tr) ∧
      ∀ x ∈ executions, FollowsPlan x.plan x.trace := by
  intro executions
  have hgranted := executed_granted hrun hfit
  refine ⟨(executedInv_of_exec hrun).trace, hgranted, fun x hx => ?_⟩
  have hmem := hgranted.subset (List.mem_map_of_mem hx)
  exact (executedInv_of_exec hrun).plans x hx (cmdType_of_granted hmem)

/-- What `updateRun` puts on the bus follows the plan of its update. -/
theorem flashSystem_followsPlans_updateRun :
    ∃ s tr, (flashSystem ⟨10, 100⟩ idealEnv).exec
        (flashSystemInit ⟨10, 100⟩ 0 ⟨fun _ => 0, false, false⟩) updateRun = some (s, tr) ∧
      (flashEvents tr).length = 12 ∧
      ∀ x ∈ (flashSystem ⟨10, 100⟩ idealEnv).observe updatesExecuted
          (flashSystemInit ⟨10, 100⟩ 0 ⟨fun _ => 0, false, false⟩) updateRun,
        FollowsPlan x.plan x.trace := by
  obtain ⟨s, tr, hrun, -, hfit, -, hlen, -⟩ := updateRun_exec
  exact ⟨s, tr, hrun, hlen, (flashSystem_followsPlans ⟨10, 100⟩ idealEnv 0 ⟨fun _ => 0, false, false⟩
    updateRun s tr hrun hfit).2.2⟩

/-! ## What the flash is told -/

@[simp] theorem commandsGiven_append (tr tr' : List FlashEvent) :
    commandsGiven (tr ++ tr') = commandsGiven tr ++ commandsGiven tr' := by
  simp [commandsGiven]

theorem commandsGiven_quiet {tr : List FlashEvent} (h : ∀ e ∈ tr, e.modifies = false) :
    commandsGiven tr = [] := by
  rw [commandsGiven, List.filter_eq_nil_iff.2 fun e he => by simp [h e he]]
  rfl

theorem not_modifies_of_reads {busy : Bool} {e : FlashEvent} (h : e.reads busy = true) :
    e.modifies = false := by
  cases e with
  | spi tx rx ok =>
    cases tx with
    | none => rfl
    | some tx =>
      cases ok with
      | true =>
        obtain ⟨rfl, -⟩ : tx = [flashCmdReadStatus, 0x00] ∧ _ := by simpa [FlashEvent.reads] using h
        rfl
      | false => cases h
  | _ => rfl

/-- What a transaction gives to the flash does not depend on how it ends. -/
theorem commandsGiven_spi (tx rx : List UInt8) (ok : Bool) :
    commandsGiven [.spi (some tx) rx ok] = commandsGiven [.spi (some tx) [] true] := by
  have hmod : FlashEvent.modifies (.spi (some tx) rx ok) =
      FlashEvent.modifies (.spi (some tx) [] true) := rfl
  rw [commandsGiven, commandsGiven, List.filter_cons, List.filter_cons, hmod]
  split
  · rfl
  · rfl

/-- A transfer that failed may have given its bytes to the flash. -/
theorem commandsGiven_failsToSend {tx : List UInt8} {e : FlashEvent} (h : e.failsToSend tx = true) :
    commandsGiven [e] <+: commandsGiven [.spi (some tx) [] true] := by
  cases e with
  | spi tx' rx ok =>
    cases tx' with
    | none => cases ok <;> cases h
    | some tx' =>
      cases ok with
      | true => cases h
      | false =>
        obtain rfl : tx' = tx := by simpa [FlashEvent.failsToSend] using h
        rw [commandsGiven_spi tx' rx false]
  | spiRefused tx' => exact List.nil_prefix
  | waitReady timeoutMs ret => cases h

theorem WaitTranscript.quiet {timeoutMs : UInt32} {ret : Ret RtosErr Unit} {tr : List FlashEvent}
    (h : WaitTranscript timeoutMs ret tr) : commandsGiven tr = [] := by
  have hquiet : ∀ reads : List FlashEvent, (∀ b ∈ reads, b.reads true = true) →
      commandsGiven reads = [] := fun reads hreads =>
    commandsGiven_quiet fun b hb => not_modifies_of_reads (hreads b hb)
  have hwait : ∀ ret, commandsGiven [.waitReady timeoutMs ret] = [] := fun _ => rfl
  cases h with
  | ready reads e hreads he =>
    rw [commandsGiven_append, hquiet reads hreads, List.nil_append]
    exact commandsGiven_quiet fun x hx => by
      rcases List.mem_pair.1 hx with rfl | rfl
      · exact not_modifies_of_reads he
      · rfl
  | gaveUp _ reads hreads hret => rw [commandsGiven_append, hquiet reads hreads, hwait]; rfl
  | failed reads e hreads he =>
    have hfail : commandsGiven [e] = [] := List.prefix_nil.1 (commandsGiven_failsToSend he)
    rw [commandsGiven_append, hquiet reads hreads, List.nil_append, ← List.singleton_append,
      commandsGiven_append, hfail, hwait]
    rfl

/-- The commands that an operation gives to the flash: its own, or none. -/
theorem OperationTranscript.commands {op : FlashOperation} {ret : Ret RtosErr Unit}
    {tr : List FlashEvent} (h : OperationTranscript op ret tr) :
    commandsGiven tr <+: commandsGiven [.spi (some op.tx) [] true] ∧
      (ret = .done () → commandsGiven tr = commandsGiven [.spi (some op.tx) [] true]) := by
  have henable : ∀ rx ok, commandsGiven [.spi (some [flashCmdWriteEnable]) rx ok] = [] := fun _ _ => rfl
  cases h with
  | notEnabled e he =>
    have hnone : commandsGiven [e] = [] := List.prefix_nil.1 (commandsGiven_failsToSend he)
    rw [hnone]
    exact ⟨List.nil_prefix, by simp⟩
  | notSent rx e he =>
    rw [← List.singleton_append, commandsGiven_append, henable, List.nil_append]
    exact ⟨commandsGiven_failsToSend he, by simp⟩
  | sent rx rx' _ wait hwait =>
    have hall : commandsGiven (.spi (some [flashCmdWriteEnable]) rx true ::
        .spi (some op.tx) rx' true :: wait) = commandsGiven [.spi (some op.tx) [] true] := by
      rw [← List.singleton_append, commandsGiven_append, henable, List.nil_append,
        ← List.singleton_append, commandsGiven_append, hwait.quiet, List.append_nil, commandsGiven_spi]
    rw [hall]
    exact ⟨List.prefix_rfl, fun _ => rfl⟩

/-- Inside the flash, an operation is taken for what it is. -/
theorem commandsGiven_tx {offset size : ℕ} {image : ℕ → UInt8} (hcap : offset + size ≤ capacity)
    {op : FlashOperation} (hop : op ∈ stagingPlan offset size image) :
    commandsGiven [.spi (some op.tx) [] true] = [op.cmd] := by
  obtain ⟨k, hk, hop⟩ := List.mem_flatMap.1 hop
  have hlt : 256 * k < size := by
    have hcount : k < (size + 255) / 256 := List.mem_range.1 hk
    omega
  have haddr : offset + 256 * k < 2 ^ 24 := Nat.lt_of_lt_of_le (by omega) hcap
  have hlen : 0 < min 256 (size - 256 * k) := by omega
  have hnat : (UInt32.ofNat (offset + 256 * k)).toNat % capacity = offset + 256 * k := by
    rw [UInt32.toNat_ofNat', Nat.mod_eq_of_lt (Nat.lt_of_lt_of_le haddr (by decide)),
      Nat.mod_eq_of_lt haddr]
  have herase : decode (FlashOperation.sectorErase (offset + 256 * k)).tx =
      .sectorErase (offset + 256 * k) := by
    have h := decode_sectorEraseTx (UInt32.ofNat (offset + 256 * k))
    rw [hnat] at h
    exact h
  have hprogram : decode (FlashOperation.pageProgram (offset + 256 * k)
      ((List.range (min 256 (size - 256 * k))).map fun i => image (256 * k + i))).tx =
        .pageProgram (offset + 256 * k)
          ((List.range (min 256 (size - 256 * k))).map fun i => image (256 * k + i)) := by
    have h := decode_pageProgramTx (UInt32.ofNat (offset + 256 * k)) (fun i => image (256 * k + i)) hlen
    rw [hnat] at h
    exact h
  have hgiven : ∀ tx c, decode tx = c → FlashEvent.modifies (.spi (some tx) [] true) = true →
      commandsGiven [.spi (some tx) [] true] = [c] := by
    intro tx c hc hmod
    simp [commandsGiven, hmod, FlashEvent.cmd, hc]
  have hops : op = .sectorErase (offset + 256 * k) ∨ op = .pageProgram (offset + 256 * k)
      ((List.range (min 256 (size - 256 * k))).map fun i => image (256 * k + i)) := by
    simp only [pageOperations, flashPageSize] at hop
    split at hop
    · exact List.mem_pair.1 hop
    · exact Or.inr (List.mem_singleton.1 hop)
  rcases hops with rfl | rfl
  · exact hgiven _ _ herase (by simp [FlashEvent.modifies, FlashEvent.cmd, herase])
  · exact hgiven _ _ hprogram (by simp [FlashEvent.modifies, FlashEvent.cmd, hprogram])

/-- What follows a plan gives the commands of the plan to the flash, all of them if nothing fails. -/
theorem FollowsPlan.commands {offset size : ℕ} {image : ℕ → UInt8} (hcap : offset + size ≤ capacity)
    {tr : List FlashEvent} (h : FollowsPlan (stagingPlan offset size image) tr) :
    commandsGiven tr <+: (stagingPlan offset size image).map FlashOperation.cmd ∧
      ((∀ e ∈ tr, e.succeeded = true) →
        commandsGiven tr = (stagingPlan offset size image).map FlashOperation.cmd) := by
  obtain ⟨ret, hturn, hret⟩ := h
  have hseen : commandsGiven tr <+: (stagingPlan offset size image).flatMap (fun op => [op.cmd]) ∧
      (ret = .done () →
        commandsGiven tr = (stagingPlan offset size image).flatMap fun op => [op.cmd]) := by
    refine hturn.observed commandsGiven_append (fun op hop tr htr => ?_) fun op hop ret tr htr => ?_
    · rw [htr.commands.2 rfl, commandsGiven_tx hcap hop]
    · rw [← commandsGiven_tx hcap hop]
      exact htr.commands.1
  rw [← List.map_eq_flatMap] at hseen
  exact ⟨hseen.1, fun hok => hseen.2 (hret.2 hok)⟩

/-! ## What the plan says -/

@[simp] theorem sectorsErased_append (cmds cmds' : List Cmd) :
    sectorsErased (cmds ++ cmds') = sectorsErased cmds ++ sectorsErased cmds' := by
  simp [sectorsErased]

@[simp] theorem bytesProgrammed_append (cmds cmds' : List Cmd) :
    bytesProgrammed (cmds ++ cmds') = bytesProgrammed cmds ++ bytesProgrammed cmds' := by
  simp [bytesProgrammed]

/-- The sectors of a page: its own, if it is the first page of it. -/
theorem sectorsErased_page (offset size : ℕ) (image : ℕ → UInt8) (k : ℕ) :
    sectorsErased ((pageOperations offset size image k).map FlashOperation.cmd) =
      if (offset + 256 * k) % 4096 = 0 then [(offset + 256 * k) / 4096] else [] := by
  simp only [pageOperations, flashPageSize, flashSectorSize]
  split
  · rfl
  · rfl

theorem bytesProgrammed_page (offset size : ℕ) (image : ℕ → UInt8) (k : ℕ) :
    bytesProgrammed ((pageOperations offset size image k).map FlashOperation.cmd) =
      (List.range (min 256 (size - 256 * k))).map fun i =>
        (offset + (256 * k + i), image (256 * k + i)) := by
  have hbytes : ((List.range (min 256 (size - 256 * k))).map fun i => image (256 * k + i)).mapIdx
      (fun i byte => (offset + 256 * k + i, byte)) =
        (List.range (min 256 (size - 256 * k))).map fun i =>
          (offset + (256 * k + i), image (256 * k + i)) := by
    refine List.ext_getElem (by simp) fun i h₁ h₂ => ?_
    simp [Nat.add_assoc]
  simp only [pageOperations, flashPageSize, flashSectorSize]
  split
  · simpa [bytesProgrammed, FlashOperation.cmd] using hbytes
  · simpa [bytesProgrammed, FlashOperation.cmd] using hbytes

theorem sectorsErased_pages {offset : ℕ} (haligned : offset % 4096 = 0) (size : ℕ) (image : ℕ → UInt8)
    (n : ℕ) :
    sectorsErased (((List.range n).flatMap (pageOperations offset size image)).map FlashOperation.cmd) =
      (List.range ((n + 15) / 16)).map (offset / 4096 + ·) := by
  induction n with
  | zero => rfl
  | succ n ih =>
    rw [List.range_succ, List.flatMap_append, List.flatMap_singleton, List.map_append,
      sectorsErased_append, ih, sectorsErased_page]
    by_cases hfirst : n % 16 = 0
    · have hnext : (n + 1 + 15) / 16 = (n + 15) / 16 + 1 := by omega
      have hsector : (offset + 256 * n) / 4096 = offset / 4096 + (n + 15) / 16 := by omega
      rw [if_pos (by omega), hnext, List.range_succ, List.map_append, hsector]
      rfl
    · have hsame : (n + 1 + 15) / 16 = (n + 15) / 16 := by omega
      rw [if_neg (by omega), hsame, List.append_nil]

theorem bytesProgrammed_pages (offset size : ℕ) (image : ℕ → UInt8) (n : ℕ) :
    bytesProgrammed (((List.range n).flatMap (pageOperations offset size image)).map FlashOperation.cmd) =
      (List.range (min (256 * n) size)).map fun i => (offset + i, image i) := by
  induction n with
  | zero => simp [bytesProgrammed]
  | succ n ih =>
    rw [List.range_succ, List.flatMap_append, List.flatMap_singleton, List.map_append,
      bytesProgrammed_append, ih, bytesProgrammed_page]
    rcases Nat.le_total (256 * n) size with hle | hge
    · have hnext : min (256 * (n + 1)) size = 256 * n + min 256 (size - 256 * n) := by omega
      rw [hnext, Nat.min_eq_left hle, List.range_add, List.map_append, List.map_map]
      rfl
    · have hsame : min (256 * (n + 1)) size = size := by omega
      rw [hsame, Nat.min_eq_right hge, Nat.sub_eq_zero_of_le hge]
      simp

theorem sectorsErased_stagingPlan {offset : ℕ} (haligned : offset % 4096 = 0) (size : ℕ)
    (image : ℕ → UInt8) :
    sectorsErased ((stagingPlan offset size image).map FlashOperation.cmd) =
      (List.range ((size + 4095) / 4096)).map (offset / 4096 + ·) := by
  have hcount : (pageCount size + 15) / 16 = (size + 4095) / 4096 := by
    simp only [pageCount, flashPageSize]
    omega
  rw [stagingPlan, sectorsErased_pages haligned, hcount]

theorem bytesProgrammed_stagingPlan (offset size : ℕ) (image : ℕ → UInt8) :
    bytesProgrammed ((stagingPlan offset size image).map FlashOperation.cmd) =
      (List.range size).map fun i => (offset + i, image i) := by
  have hcount : min (256 * pageCount size) size = size := by
    simp only [pageCount, flashPageSize]
    omega
  rw [stagingPlan, bytesProgrammed_pages, hcount]

/-- On every device, and however transfers and waits end, the execution of an update that is sector-aligned
and inside the flash erases every sector of its range at most once and programs every byte of its image at
most once. -/
theorem flashSystem_programsOnce (cfg : TickConfig) (env : FlashEnv W) (ticks : ℕ) (w : W)
    (acts : List (FlashSystemAction W)) (s : FlashSystem W) (tr : List FlashSystemEvent)
    (hrun : (flashSystem cfg env).exec (flashSystemInit cfg ticks w) acts = some (s, tr))
    (hfit : MessagesFit (firmwareEvents tr)) :
    ∀ x ∈ (flashSystem cfg env).observe updatesExecuted (flashSystemInit cfg ticks w) acts,
      x.cmd.Stageable → x.ProgramsOnce := by
  rintro x hx ⟨haligned, hcap⟩
  have hgranted := (executed_granted hrun hfit).subset (List.mem_map_of_mem hx)
  have hplan := (executedInv_of_exec hrun).plans x hx (cmdType_of_granted hgranted)
  obtain ⟨hpre, hall⟩ := hplan.commands hcap
  have hsectors := sectorsErased_stagingPlan haligned x.cmd.imageSize.toNat x.image
  have hbytes := bytesProgrammed_stagingPlan x.cmd.imageOffset.toNat x.cmd.imageSize.toNat x.image
  refine ⟨?_, ?_, fun hok => ?_⟩
  · have h : sectorsErased (commandsGiven x.trace) <+: sectorsErased _ := hpre.filterMap _
    rw [hsectors] at h
    exact h
  · have h : bytesProgrammed (commandsGiven x.trace) <+: bytesProgrammed _ := hpre.flatMap _
    rw [hbytes] at h
    exact h
  · rw [hall hok]
    exact ⟨hsectors, hbytes⟩

/-- The update of `updateRun` on a bus that breaks after 7 transfers: the first page is programmed, and of
the second one nothing but the write-enable. -/
theorem flashSystem_programsOnce_breaking :
    ∃ s tr, (flashSystem ⟨10, 100⟩ (breakingEnv 7)).exec
        (flashSystemInit ⟨10, 100⟩ 0 (⟨fun _ => 0, false, false⟩, 0)) updateRun = some (s, tr) ∧
      (flashEvents tr).length = 10 ∧
      ∀ x ∈ (flashSystem ⟨10, 100⟩ (breakingEnv 7)).observe updatesExecuted
          (flashSystemInit ⟨10, 100⟩ 0 (⟨fun _ => 0, false, false⟩, 0)) updateRun,
        x.ProgramsOnce := by
  have heval : ((flashSystem ⟨10, 100⟩ (breakingEnv 7)).exec
      (flashSystemInit ⟨10, 100⟩ 0 (⟨fun _ => 0, false, false⟩, 0)) updateRun).any
      (fun r : FlashSystem (Chip × ℕ) × List FlashSystemEvent => decide
        (MessagesFit (firmwareEvents r.2) ∧ (flashEvents r.2).length = 10)) = true := by
    decide +kernel
  have hstageable : ∀ x ∈ (flashSystem ⟨10, 100⟩ (breakingEnv 7)).observe updatesExecuted
      (flashSystemInit ⟨10, 100⟩ 0 (⟨fun _ => 0, false, false⟩, 0)) updateRun, x.cmd.Stageable := by
    decide +kernel
  obtain ⟨s, tr, hrun, hfit, hlen⟩ := Machine.exists_of_any heval
  exact ⟨s, tr, hrun, hlen, fun x hx => flashSystem_programsOnce ⟨10, 100⟩ (breakingEnv 7) 0
    (⟨fun _ => 0, false, false⟩, 0) updateRun s tr hrun hfit x hx (hstageable x hx)⟩

end NicObFw
