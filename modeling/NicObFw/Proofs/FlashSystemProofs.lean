import NicObFw.FlashSystem
import NicObFw.Proofs.AnswerProofs
import NicObFw.Proofs.FlashBusyProofs
import NicObFw.Proofs.StagingFrameProofs
import NicObFw.Proofs.StagingImageProofs

/-!
# Proofs: the firmware and the flash

What the BMC was granted reaches the flash, and nothing else does: the updates answered with
`PLDM_CC_SUCCESS` are those executed, the one being executed and those that wait, in this order, and
between two executions the flash holds what they leave.
-/

namespace NicObFw

open Memory NorFlash Traced

/-! ## Granted updates in the firmware -/

section Granted

variable {cfg : TickConfig} {fw fw' : Firmware} {tr evs : List FwEvent} {a : FwAction}

theorem grantedUpdates_append (tr evs : List FwEvent) :
    grantedUpdates (tr ++ evs) = (evs.foldl noteAnswer (tr.foldl noteAnswer ([], none))).1 := by
  rw [grantedUpdates, List.foldl_append]

/-- Granted updates are never taken back. -/
theorem noteAnswer_extends (p : List FlashCmd × Option (List UInt8)) (evs : List FwEvent) :
    ∃ new, (evs.foldl noteAnswer p).1 = p.1 ++ new := by
  induction evs generalizing p with
  | nil => exact ⟨[], by simp⟩
  | cons e evs ih =>
    obtain ⟨new, hnew⟩ := ih (noteAnswer p e)
    obtain ⟨first, hfirst⟩ : ∃ first, (noteAnswer p e).1 = p.1 ++ first := by
      cases e with
      | transmit frame length => exact ⟨grantedBy p.2 frame, rfl⟩
      | _ => exact ⟨[], by simp [noteAnswer]⟩
    exact ⟨first ++ new, by rw [List.foldl_cons, hnew, hfirst, List.append_assoc]⟩

theorem grantedUpdates_subset {cmd : FlashCmd} (h : cmd ∈ grantedUpdates tr) (evs : List FwEvent) :
    cmd ∈ grantedUpdates (tr ++ evs) := by
  obtain ⟨new, hnew⟩ := noteAnswer_extends (tr.foldl noteAnswer ([], none)) evs
  rw [grantedUpdates_append, hnew]
  exact List.mem_append_left new h

theorem grantedUpdates_quiet (tr : List FwEvent) (h : ∀ e ∈ evs, e.isRequest = false) :
    grantedUpdates (tr ++ evs) = grantedUpdates tr := by
  rw [grantedUpdates_append, grantedUpdates]
  generalize tr.foldl noteAnswer ([], none) = p
  suffices evs.foldl noteAnswer p = p by rw [this]
  induction evs with
  | nil => rfl
  | cons e evs ih =>
    have he : noteAnswer p e = p := by
      have hq := h e (by simp)
      cases e <;> first | rfl | cases hq
    rw [List.foldl_cons, he]
    exact ih fun e' he' => h e' (List.mem_cons_of_mem _ he')

/-- Whatever request was open before, a message that is completed and answered in one step is granted
exactly if it is an update request and the answer is `PLDM_CC_SUCCESS`. -/
theorem grantedUpdates_answered (tr : List FwEvent) (raw : BmcRxMsg) (pkt : MctpPacket)
    (m : List UInt8) (fq : FreeRtos.Queue FlashCmd queueDepthFlash) (msg : PldmMsg)
    (frame : List UInt8) (length : UInt16) :
    grantedUpdates (tr ++ ([.rxReceived raw, .mctpComplete pkt m] ++ dispatchEvents fq msg frame length)) =
      grantedUpdates tr ++ grantedBy (some m) frame := by
  rw [grantedUpdates_append, grantedUpdates, dispatchEvents]
  generalize tr.foldl noteAnswer ([], none) = p
  split <;> rfl

theorem completionCode_responseFrame (locals : SendLocals) (msg : PldmMsg) (answer : Answer) :
    (responseFrame locals msg.messageBytes answer).getD 7 0 = answer.completionCode := by
  rw [responseFrame, answerBytes, take_messageBytes]
  rfl

/-- The commands granted are those finished, the one being executed and those that wait. -/
def Granted (fw : Firmware) (tr : List FwEvent) : Prop :=
  grantedUpdates tr = flashCommandsFinished tr ++ fw.flashTask.toList ++ fw.sFlashCmdQueue.items

@[simp] theorem flashCommandsFinished_append (tr evs : List FwEvent) :
    flashCommandsFinished (tr ++ evs) = flashCommandsFinished tr ++ flashCommandsFinished evs := by
  simp [flashCommandsFinished]

theorem flashCommandsFinished_request (h : ∀ e ∈ evs, e.isRequest = true) :
    flashCommandsFinished evs = [] :=
  Trace.filterMap_quiet (fun e he => by cases e <;> simp_all [FwEvent.isRequest]) h

theorem Granted.rx {raw : BmcRxMsg} {q : FreeRtos.Queue BmcRxMsg queueDepthBmc} {locals : TaskLocals}
    {run : List (List UInt8)} (h : Granted fw tr) (hfit : MessagesFit evs)
    (hs : RxStep cfg fw raw q locals run fw' evs) : Granted fw' (tr ++ evs) := by
  unfold Granted at h ⊢
  cases hs with
  | incomplete hm hc =>
    have hkeep : grantedUpdates (tr ++ [.rxReceived raw]) = grantedUpdates tr := by
      rw [grantedUpdates_append]
      rfl
    rw [hkeep, h, flashCommandsFinished_append, List.append_assoc (flashCommandsFinished tr)]
    simp [flashCommandsFinished, receivedRaw, livenessUpdate]
  | short pkt m hm h3 hc =>
    have hkeep : grantedUpdates (tr ++ [.rxReceived raw, .mctpComplete pkt m]) = grantedUpdates tr := by
      rw [grantedUpdates_append]
      rfl
    rw [hkeep, h, flashCommandsFinished_append, List.append_assoc (flashCommandsFinished tr)]
    simp [flashCommandsFinished, receivedRaw, livenessUpdate]
  | answered pkt m msg length hm h3 hc hmsg hlen =>
    have hbytes := hmsg (hfit pkt m (by simp))
    have hnone : flashCommandsFinished ([.rxReceived raw, .mctpComplete pkt m] ++
        dispatchEvents fw.sFlashCmdQueue msg (responseFrame locals.send msg.messageBytes
          (answerTo fw.sCache (hasRoom fw.sFlashCmdQueue) msg.messageBytes)) length) = [] := by
      rw [dispatchEvents]
      split <;> rfl
    -- the queue grows by what is granted
    have hqueue : (if msg.RequestsUpdate then (fw.sFlashCmdQueue.send (requestUpdateCmd msg)).2
        else fw.sFlashCmdQueue).items = fw.sFlashCmdQueue.items ++ grantedBy (some m)
          (responseFrame locals.send msg.messageBytes
            (answerTo fw.sCache (hasRoom fw.sFlashCmdQueue) msg.messageBytes)) := by
      rw [grantedBy, completionCode_responseFrame, answerTo_messageBytes, ← hbytes]
      by_cases hupd : msg.RequestsUpdate
      · rw [if_neg hupd.not_sensor, if_pos hupd, if_pos hupd]
        by_cases hroom : fw.sFlashCmdQueue.items.length < queueDepthFlash
        · have hgranted : IsUpdateRequest msg.messageBytes := hupd
          rw [(FreeRtos.Queue.send_of_lt hroom).2, requestUpdateCmd_eq]
          simp [hgranted, hasRoom_iff.2 hroom]
        · have hno : ¬ pldmCcError = pldmCcSuccess := by decide
          rw [FreeRtos.Queue.send_of_full hroom]
          simp [mt hasRoom_iff.1 hroom, hno]
      · have hno : ¬ IsUpdateRequest msg.messageBytes := hupd
        rw [if_neg hupd]
        simp [hno]
    rw [grantedUpdates_answered, h, flashCommandsFinished_append, hnone, List.append_nil,
      List.append_assoc, ← hqueue]
    rfl

/-- Steps that report no request. -/
theorem Granted.quiet (h : Granted fw tr) (hev : ∀ e ∈ evs, e.isRequest = false)
    (hkeep : flashCommandsFinished evs ++ fw'.flashTask.toList ++ fw'.sFlashCmdQueue.items =
      fw.flashTask.toList ++ fw.sFlashCmdQueue.items) : Granted fw' (tr ++ evs) := by
  unfold Granted at h ⊢
  rw [grantedUpdates_quiet tr hev, h, flashCommandsFinished_append, List.append_assoc, ← hkeep]
  simp only [List.append_assoc]

/-- What the firmware has granted, as long as all messages fit a packet. -/
structure GrantInv (fw : Firmware) (tr : List FwEvent) : Prop where
  rx : RxInv fw tr
  count : fw.sCache.count = 2
  granted : MessagesFit tr → Granted fw tr

theorem GrantInv.step (h : GrantInv fw tr) (hs : (firmware cfg).step fw a = some (fw', evs)) :
    GrantInv fw' (tr ++ evs) := by
  refine ⟨h.rx.step (firmware_step_cases hs), (count_step (firmware_step_cases hs)).trans h.count,
    fun hfit => ?_⟩
  have hgranted := h.granted hfit.of_append.1
  cases firmware_step_cases hs with
  | rx locals raw q fq dispatched hp hq hd =>
    exact hgranted.rx hfit.of_append.2 (rxStep_of_inv h.rx h.count hp hq hs)
  | flashReceive cmd q hidle hq =>
    refine hgranted.quiet (by simp [FwEvent.isRequest]) ?_
    simp [flashCommandsFinished, hidle, hq]
  | flashFinish cmd hbusy =>
    refine hgranted.quiet (by simp [FwEvent.isRequest]) ?_
    simp [flashCommandsFinished, hbusy]
  | _ => exact hgranted.quiet (by simp [FwEvent.isRequest]) rfl

theorem grantInv_of_exec {ticks : ℕ} {acts : List FwAction}
    (h : (firmware cfg).exec (firmwareInit cfg ticks) acts = some (fw, tr)) : GrantInv fw tr :=
  Machine.invariant ⟨rxInv_init cfg ticks, rfl, fun _ => rfl⟩ (fun _ _ _ _ _ hI hs => hI.step hs) h

end Granted

/-! ## The steps of the system -/

variable {W : Type} {cfg : TickConfig} {env : FlashEnv W} {chipOf : W → Chip}

/-- Everything that a step of the system can do. -/
inductive FlashSystemStep (cfg : TickConfig) (env : FlashEnv W) (s : FlashSystem W) :
    FlashSystemAction W → FlashSystem W → List FlashSystemEvent → Prop
  | firmware (a : FwAction) (fw : Firmware) (evs : List FwEvent) (hne : a ≠ .flashFinish)
      (hs : (firmware cfg).step s.fw a = some (fw, evs)) :
    FlashSystemStep cfg env s (.firmware a) { s with fw } (evs.map .firmware)
  | executed (elapse : W → W) (data : ℕ → UInt8) (polls : ℕ) (cmd : FlashCmd) (task : FlashTask W)
      (evs : List FlashEvent) (hcmd : s.fw.flashTask = some cmd)
      (hs : (nicFlashMgrTask env).step s.task ⟨cmd, elapse, data, polls⟩ = some (task, evs))
      (hfree : task.stuck = false) :
    FlashSystemStep cfg env s (.execute elapse data polls) ⟨{ s.fw with flashTask := none }, task⟩
      (evs.map .flash ++ [.firmware (.flashFinished cmd)])
  | stuck (elapse : W → W) (data : ℕ → UInt8) (polls : ℕ) (cmd : FlashCmd) (task : FlashTask W)
      (evs : List FlashEvent) (hcmd : s.fw.flashTask = some cmd)
      (hs : (nicFlashMgrTask env).step s.task ⟨cmd, elapse, data, polls⟩ = some (task, evs))
      (hstuck : task.stuck = true) :
    FlashSystemStep cfg env s (.execute elapse data polls) { s with task } (evs.map .flash)

variable {s s' : FlashSystem W} {a : FlashSystemAction W} {tr evs : List FlashSystemEvent}

theorem firmware_flashFinish {fw : Firmware} {cmd : FlashCmd} (h : fw.flashTask = some cmd) :
    (firmware cfg).step fw .flashFinish =
      some ({ fw with flashTask := none }, [.flashFinished cmd]) := by
  simp only [firmware, h]

theorem flashSystem_step_cases (hs : (flashSystem cfg env).step s a = some (s', evs)) :
    FlashSystemStep cfg env s a s' evs := by
  cases a with
  | firmware a =>
    have hne : a ≠ .flashFinish := by
      rintro rfl
      cases hs
    obtain ⟨⟨fw, fevs⟩, hstep, heq⟩ : ∃ r, (firmware cfg).step s.fw a = some r ∧
        ({ s with fw := r.1 }, r.2.map FlashSystemEvent.firmware) = (s', evs) := by
      cases a <;> first | exact Option.map_eq_some_iff.1 hs | exact absurd rfl hne
    obtain ⟨rfl, rfl⟩ := Prod.mk.inj heq
    exact .firmware a fw fevs hne hstep
  | execute elapse data polls =>
    obtain ⟨cmd, hcmd, hs⟩ := Option.bind_eq_some_iff.1 hs
    obtain ⟨⟨task, fevs⟩, hstep, hs⟩ := Option.bind_eq_some_iff.1 hs
    cases hstuck : task.stuck with
    | true =>
      simp only [hstuck, if_true, Option.some.injEq, Prod.mk.injEq] at hs
      obtain ⟨rfl, rfl⟩ := hs
      exact .stuck elapse data polls cmd task fevs hcmd hstep hstuck
    | false =>
      simp only [hstuck, Bool.false_eq_true, if_false, firmware_flashFinish hcmd, Option.map_some,
        Option.some.injEq, Prod.mk.injEq] at hs
      obtain ⟨rfl, rfl⟩ := hs
      exact .executed elapse data polls cmd task fevs hcmd hstep hstuck

/-! ## Projections -/

@[simp] theorem firmwareEvents_append (tr evs : List FlashSystemEvent) :
    firmwareEvents (tr ++ evs) = firmwareEvents tr ++ firmwareEvents evs := by
  simp [firmwareEvents]

@[simp] theorem flashEvents_append (tr evs : List FlashSystemEvent) :
    flashEvents (tr ++ evs) = flashEvents tr ++ flashEvents evs := by
  simp [flashEvents]

@[simp] theorem firmwareEvents_map_firmware (evs : List FwEvent) :
    firmwareEvents (evs.map .firmware) = evs := by
  simp [firmwareEvents, List.filterMap_map]

@[simp] theorem firmwareEvents_map_flash (evs : List FlashEvent) :
    firmwareEvents (evs.map .flash) = [] := by
  simp [firmwareEvents, List.filterMap_map]

@[simp] theorem flashEvents_map_flash (evs : List FlashEvent) :
    flashEvents (evs.map .flash) = evs := by
  simp [flashEvents, List.filterMap_map]

@[simp] theorem flashEvents_map_firmware (evs : List FwEvent) :
    flashEvents (evs.map .firmware) = [] := by
  simp [flashEvents, List.filterMap_map]

theorem firmware_of_step (hs : (flashSystem cfg env).step s a = some (s', evs)) :
    ∃ bs, (firmware cfg).exec s.fw bs = some (s'.fw, firmwareEvents evs) := by
  cases flashSystem_step_cases hs with
  | firmware a fw fevs hne hstep =>
    exact ⟨[a], by rw [firmwareEvents_map_firmware]; exact Machine.exec_singleton.2 hstep⟩
  | executed elapse data polls cmd task fevs hcmd hstep hfree =>
    refine ⟨[.flashFinish], Machine.exec_singleton.2 ?_⟩
    rw [firmware_flashFinish hcmd, firmwareEvents_append, firmwareEvents_map_flash]
    rfl
  | stuck elapse data polls cmd task fevs hcmd hstep hstuck =>
    exact ⟨[], by rw [firmwareEvents_map_flash]; rfl⟩

/-- Every run of the system is a run of the firmware, as far as the firmware is concerned. -/
theorem firmware_of_exec {ticks : ℕ} {w : W} {acts : List (FlashSystemAction W)}
    (hrun : (flashSystem cfg env).exec (flashSystemInit cfg ticks w) acts = some (s, tr)) :
    ∃ bs, (firmware cfg).exec (firmwareInit cfg ticks) bs = some (s.fw, firmwareEvents tr) := by
  have h0 : firmwareInit cfg ticks = (flashSystemInit cfg ticks w).fw ∧
      ([] : List FwEvent) = firmwareEvents [] := ⟨rfl, rfl⟩
  obtain ⟨bs, fw, ur, hfw, rfl, rfl⟩ := Machine.simulated_by (N := firmware cfg)
    (fun (s : FlashSystem W) tr fw ur => fw = s.fw ∧ ur = firmwareEvents tr)
    (fun s tr fw ur a s' evs hR hs => by
      obtain ⟨rfl, rfl⟩ := hR
      obtain ⟨bs, hbs⟩ := firmware_of_step hs
      exact ⟨bs, s'.fw, _, hbs, rfl, (firmwareEvents_append tr evs).symm⟩) h0 hrun
  exact ⟨bs, hfw⟩

/-- The updates granted in a run of the system are those executed, the one being executed and those
that wait. -/
theorem granted_of_exec {ticks : ℕ} {w : W} {acts : List (FlashSystemAction W)}
    (hrun : (flashSystem cfg env).exec (flashSystemInit cfg ticks w) acts = some (s, tr))
    (hfit : MessagesFit (firmwareEvents tr)) : Granted s.fw (firmwareEvents tr) := by
  obtain ⟨bs, hbs⟩ := firmware_of_exec hrun
  exact (grantInv_of_exec hbs).granted hfit

/-- The command that is being executed has been granted. -/
theorem Granted.executing {fw : Firmware} {tr : List FwEvent} {cmd : FlashCmd} (h : Granted fw tr)
    (hcmd : fw.flashTask = some cmd) : cmd ∈ grantedUpdates tr := by
  rw [h, hcmd]
  simp

/-! ## Bytes that no granted update touches -/

theorem OnlyTimePasses.of_append {acts acts' : List (FlashSystemAction W)}
    (h : OnlyTimePasses chipOf (acts ++ acts')) :
    OnlyTimePasses chipOf acts ∧ OnlyTimePasses chipOf acts' :=
  ⟨fun elapse data polls hmem => h elapse data polls (List.mem_append_left _ hmem),
    fun elapse data polls hmem => h elapse data polls (List.mem_append_right _ hmem)⟩

/-- A `REQUEST_UPDATE` for 300 bytes at the second sector, in one packet. -/
def updateRequest : I2cWrite :=
  ⟨[1, 8, 9, 0xC0, 0, 5, 0x10, 0, 0x10, 0, 0, 0x2C, 1, 0, 0], by decide⟩

/-- It arrives while the task waits, and is executed. -/
def updateRun : List (FlashSystemAction W) :=
  [.firmware (.bmcI2cRxIsr updateRequest (Vector.replicate _ 0)), .firmware .waitTimeout,
    .firmware (.bmcMgrTask zeroLocals), .firmware .flashReceive,
    .execute id (fun i => UInt8.ofNat i) 1]

/-- What `updateRun` does on a flash of zeros that finishes everything at once. -/
theorem updateRun_exec :
    ∃ s tr, (flashSystem ⟨10, 100⟩ idealEnv).exec
        (flashSystemInit ⟨10, 100⟩ 0 ⟨fun _ => 0, false, false⟩) updateRun = some (s, tr) ∧
      s.fw.flashTask = none ∧
      MessagesFit (firmwareEvents tr) ∧ (∀ e ∈ flashEvents tr, e.succeeded = true) ∧
      (flashEvents tr).length = 12 ∧
      grantedUpdates (firmwareEvents tr) = [⟨flashCmdUpdateStart, 0, 0, 4096, 300⟩] := by
  have heval : ((flashSystem ⟨10, 100⟩ idealEnv).exec
      (flashSystemInit ⟨10, 100⟩ 0 ⟨fun _ => 0, false, false⟩) updateRun).any
      (fun r : FlashSystem Chip × List FlashSystemEvent => decide
        (r.1.fw.flashTask = none ∧
          MessagesFit (firmwareEvents r.2) ∧ (∀ e ∈ flashEvents r.2, e.succeeded = true) ∧
          (flashEvents r.2).length = 12 ∧
          grantedUpdates (firmwareEvents r.2) = [⟨flashCmdUpdateStart, 0, 0, 4096, 300⟩])) = true := by
    decide +kernel
  obtain ⟨s, tr, hrun, h⟩ := Machine.exists_of_any heval
  exact ⟨s, tr, hrun, h⟩

theorem updateRun_time : OnlyTimePasses chipOf updateRun := by
  intro elapse data polls hmem w
  obtain ⟨rfl, -⟩ : elapse = id ∧ _ := by simpa [updateRun] using hmem
  exact Later.refl (chipOf w)

/-- What a staging write without a failure leaves is an idle chip with the image. -/
theorem writeImageToStaging_idle (hdev : DrivesChip env chipOf) {polls : ℕ} {offset size : UInt32}
    {image : ℕ → UInt8} {w : W} {old : ℕ → UInt8} (haligned : offset.toNat % 4096 = 0)
    (hcap : offset.toNat + size.toNat ≤ 2 ^ 24) (hidle : Idle (chipOf w) old)
    (hok : AllSucceeded (writeImageToStaging env polls offset image size w).trace) :
    (writeImageToStaging env polls offset image size w).ret = .done () ∧
      Idle (chipOf (writeImageToStaging env polls offset image size w).world)
        (stagedMem old offset.toNat size.toNat image) := by
  have h : Triple _ (writeImageLoop env polls offset image size) _ := writeImageLoop_triple
    (I := fun addr data remaining tr w' =>
      AtChunk image offset.toNat size.toNat addr data remaining ∧ (AllSucceeded tr →
        Idle (chipOf w') (stagedUpTo old image offset.toNat addr.toNat (roundUp addr.toNat))))
    (M := fun addr data remaining tr w' =>
      AtChunk image offset.toNat size.toNat addr data remaining ∧ (AllSucceeded tr →
        Idle (chipOf w') (stagedUpTo old image offset.toNat addr.toNat (sectorEnd addr.toNat))))
    (Q := fun r tr w' => AllSucceeded tr → r = .done () ∧
      Idle (chipOf w') (stagedMem old offset.toNat size.toNat image)) ?_ ?_ ?_ offset image size
  · refine h [] w ⟨⟨Nat.le_refl _, rfl, fun _ => by omega, by simp⟩, fun _ => ?_⟩ hok
    rw [stagedUpTo_start haligned]
    exact hidle
  · intro addr data remaining hpos
    refine triple_of_imp fun hat => ?_
    have htotal := hat.total
    refine (eraseSectorEntered_effect hdev (by omega)).post fun r tr w' hr => ?_
    cases r with
    | done _ => exact ⟨hat, hr⟩
    | error _ => exact fun hall => absurd hall hr
    | running => exact fun hall => absurd hall hr
  · intro addr data remaining hpos
    refine triple_of_imp fun hat => ?_
    refine (writePage_effect hdev hat hpos hcap).post fun r tr w' hr => ?_
    cases r with
    | done _ => exact ⟨hat.next hcap hpos, hr⟩
    | error _ => exact fun hall => absurd hall hr
    | running => exact fun hall => absurd hall hr
  · rintro addr data remaining tr w' hzero ⟨hat, hmem⟩ hall
    have haddr : addr.toNat = offset.toNat + size.toNat := by
      have := hat.total
      omega
    refine ⟨rfl, ?_⟩
    have hend := hmem hall
    rw [haddr] at hend
    exact hend

/-- An update without a failure on an idle chip leaves an idle chip with the image, and an idle task. -/
theorem nicFlashMgrTask_step_stages (hdev : DrivesChip env chipOf) {t t' : FlashTask W}
    {job : FlashJob W} {fevs : List FlashEvent} {old : ℕ → UInt8}
    (htime : ∀ w, Later (chipOf w) (chipOf (job.elapse w)))
    (hstart : job.cmd.cmdType = flashCmdUpdateStart) (hcmd : job.cmd.Stageable)
    (hidle : Idle (chipOf t.world) old) (hok : AllSucceeded fevs)
    (hs : (nicFlashMgrTask env).step t job = some (t', fevs)) :
    t'.stuck = false ∧ t'.st = ⟨.idle, false⟩ ∧ Idle (chipOf t'.world)
      (stagedMem old job.cmd.imageOffset.toNat job.cmd.imageSize.toNat job.data) := by
  have hlater := htime t.world
  have hidle' : Idle (chipOf (job.elapse t.world)) old :=
    ⟨hlater.idle hidle.busy, hlater.mem.trans hidle.mem⟩
  have htrace := nicFlashMgrTask_step_trace hs
  rw [if_pos hstart] at htrace
  rw [htrace] at hok
  obtain ⟨hret, hstaged⟩ := writeImageToStaging_idle hdev hcmd.1 hcmd.2 hidle' hok
  simp only [nicFlashMgrTask, hstart, if_true, handleUpdateStart_apply, hret] at hs
  split at hs
  · cases hs
  · obtain ⟨rfl, -⟩ := Prod.mk.inj (Option.some.inj hs)
    exact ⟨rfl, rfl, hstaged⟩

theorem cmdType_of_granted {tr : List FwEvent} {cmd : FlashCmd} (h : cmd ∈ grantedUpdates tr) :
    cmd.cmdType = flashCmdUpdateStart := by
  induction tr using List.reverseRecOn with
  | nil => cases h
  | append_singleton tr e ih =>
    rw [grantedUpdates_append] at h
    cases e with
    | transmit frame length =>
      rcases List.mem_append.1 h with hold | hnew
      · exact ih hold
      · obtain ⟨message, -, hcmd⟩ := List.mem_filterMap.1 hnew
        obtain ⟨-, rfl⟩ : _ ∧ updateCmdOf message = cmd := by simpa using hcmd
        rfl
    | _ => exact ih h

theorem finished_of_firmware_step {fw fw' : Firmware} {a : FwAction} {fevs : List FwEvent}
    (hne : a ≠ .flashFinish) (hs : (firmware cfg).step fw a = some (fw', fevs)) :
    flashCommandsFinished fevs = [] := by
  cases firmware_step_cases hs with
  | rx locals raw q fq dispatched hp hq hd =>
    refine flashCommandsFinished_request fun e he => ?_
    rcases List.mem_cons.1 he with rfl | he
    · rfl
    · rcases List.mem_append.1 he with he | he
      · split at he
        · obtain rfl := List.mem_singleton.1 he
          rfl
        · cases he
      · have hdisp := hd e he
        cases e <;> first | rfl | cases hdisp
  | flashFinish cmd hbusy => exact absurd rfl hne
  | _ => rfl

/-- What a run without a failure leaves behind: an idle task, and an idle chip that holds the images
that were executed. -/
structure Staged (chipOf : W → Chip) (old : ℕ → UInt8) (s : FlashSystem W)
    (executed : List (FlashCmd × (ℕ → UInt8))) : Prop where
  idle : Idle (chipOf s.task.world) (stagedAll old executed)
  state : s.task.st = ⟨.idle, false⟩

theorem Staged.step (hdev : DrivesChip env chipOf) {old : ℕ → UInt8}
    {executed : List (FlashCmd × (ℕ → UInt8))} (h : Staged chipOf old s executed)
    (hs : FlashSystemStep cfg env s a s' evs) (htime : OnlyTimePasses chipOf [a])
    (hcmd : ∀ cmd, s.fw.flashTask = some cmd → cmd.cmdType = flashCmdUpdateStart ∧ cmd.Stageable)
    (hok : AllSucceeded (flashEvents evs)) :
    Staged chipOf old s' (executed ++ commandsExecuted s a evs) := by
  cases hs with
  | firmware a fw fevs hne hstep =>
    rw [commandsExecuted, List.append_nil]
    exact ⟨h.idle, h.state⟩
  | executed elapse data polls cmd task fevs htask hstep hfree =>
    obtain ⟨hstart, hstageable⟩ := hcmd cmd htask
    have hfevs : AllSucceeded fevs := fun e he => hok e (by simp [he])
    obtain ⟨-, hst, hidle⟩ := nicFlashMgrTask_step_stages hdev (htime elapse data polls (by simp))
      hstart hstageable h.idle hfevs hstep
    have hnew : commandsExecuted s (.execute elapse data polls)
        (fevs.map .flash ++ [.firmware (.flashFinished cmd)]) = [(cmd, data)] := by
      rw [commandsExecuted, firmwareEvents_append, firmwareEvents_map_flash]
      rfl
    rw [hnew]
    refine ⟨?_, hst⟩
    rw [stagedAll, List.foldl_append]
    exact hidle
  | stuck elapse data polls cmd task fevs htask hstep hstuck =>
    obtain ⟨hstart, hstageable⟩ := hcmd cmd htask
    have hfevs : AllSucceeded fevs := fun e he => hok e (by simp [he])
    obtain ⟨hfree, -⟩ := nicFlashMgrTask_step_stages hdev (htime elapse data polls (by simp))
      hstart hstageable h.idle hfevs hstep
    rw [hfree] at hstuck
    cases hstuck

/-- A run without a failure whose granted updates are all sector-aligned and inside the flash. -/
structure Favourable (chipOf : W → Chip) (acts : List (FlashSystemAction W))
    (tr : List FlashSystemEvent) : Prop where
  time : OnlyTimePasses chipOf acts
  fit : MessagesFit (firmwareEvents tr)
  ok : ∀ e ∈ flashEvents tr, e.succeeded = true
  granted : ∀ cmd ∈ grantedUpdates (firmwareEvents tr), cmd.Stageable

theorem Favourable.of_append {acts acts' : List (FlashSystemAction W)}
    (h : Favourable chipOf (acts ++ acts') (tr ++ evs)) : Favourable chipOf acts tr := by
  obtain ⟨htime, hfit, hok, hgranted⟩ := h
  rw [firmwareEvents_append] at hfit hgranted
  rw [flashEvents_append] at hok
  exact ⟨htime.of_append.1, hfit.of_append.1, fun e he => hok e (List.mem_append_left _ he),
    fun cmd hcmd => hgranted cmd (grantedUpdates_subset hcmd _)⟩

theorem staged_of_exec (hdev : DrivesChip env chipOf) {ticks : ℕ} {w : W}
    (hidle : (chipOf w).busy = false) {acts : List (FlashSystemAction W)}
    (hrun : (flashSystem cfg env).exec (flashSystemInit cfg ticks w) acts = some (s, tr))
    (hfav : Favourable chipOf acts tr) :
    Staged chipOf (chipOf w).mem s
      ((flashSystem cfg env).observe commandsExecuted (flashSystemInit cfg ticks w) acts) := by
  induction acts using List.reverseRecOn generalizing s tr with
  | nil =>
    obtain ⟨rfl, -⟩ : flashSystemInit cfg ticks w = s ∧ [] = tr := by simpa using hrun
    exact ⟨⟨hidle, rfl⟩, rfl⟩
  | append_singleton acts act ih =>
    obtain ⟨s', tr', evs, he, hs, rfl⟩ := Machine.exec_snoc.1 hrun
    have hbefore := hfav.of_append
    rw [Machine.observe_snoc he hs]
    refine (ih he hbefore).step hdev (flashSystem_step_cases hs) hfav.time.of_append.2
      (fun cmd hcmd => ?_) fun e he => hfav.ok e (by rw [flashEvents_append]; simp [he])
    have hmem := (granted_of_exec he hbefore.fit).executing hcmd
    exact ⟨cmdType_of_granted hmem, hbefore.granted cmd hmem⟩

end NicObFw
