import NicObFw.UpdateHandoff
import NicObFw.Proofs.AnswerProofs
import NicObFw.Proofs.FlashDeviceProofs

/-!
# Proofs: the handoff of updates

What the BMC was told, what waits in the flash queue and what the flash thread has taken tell the same
story at every point. The queue has room for two commands, and the flash thread makes room by taking a
command before it executes it, so a full queue is not the interlock that keeps updates apart.
-/

namespace NicObFw

open Memory

/-- A message that is no `REQUEST_UPDATE` leaves the queue alone. -/
theorem dispatchPldm_quiet {msg : PldmMsg} (sCache : SensorCache)
    (q : FreeRtos.Queue FlashCmd queueDepthFlash) (locals : TaskLocals) (h : ¬ msg.RequestsUpdate) :
    ∃ frame length, dispatchPldm sCache q msg locals = (q, [.transmit frame length]) := by
  by_cases hty : msg.pldmType = pldmTypeSensorMonitoring
  · by_cases hcmd : msg.command = pldmCmdGetSensorReading
    · simp only [dispatchPldm, pldmGetType, pldmGetCommand, hty, hcmd, if_true]
      split <;> exact ⟨_, _, rfl⟩
    · obtain ⟨length, -, hdisp⟩ := dispatchPldm_other sCache q msg locals h
        (fun hs => hcmd hs.2)
      exact ⟨_, _, hdisp⟩
  · obtain ⟨length, -, hdisp⟩ := dispatchPldm_other sCache q msg locals h
      (fun hs => hty hs.1)
    exact ⟨_, _, hdisp⟩

/-! ## Steps -/

/-- Everything that a step of the handoff can do. -/
inductive HandoffStep (h : UpdateHandoff) : HandoffAction → UpdateHandoff → List HandoffEvent → Prop
  | accept {msg : PldmMsg} {sCache : SensorCache} {locals : TaskLocals}
      {q : FreeRtos.Queue FlashCmd queueDepthFlash} {frame : List UInt8} (hupd : msg.RequestsUpdate)
      (hroom : h.sFlashCmdQueue.items.length < queueDepthFlash)
      (hq : q.items = h.sFlashCmdQueue.items ++ [requestUpdateCmd msg])
      (hcc : completionCodeOf frame = pldmCcSuccess) :
    HandoffStep h (.dispatchPldm msg sCache locals) { h with sFlashCmdQueue := q }
      [.answered msg frame]
  | refuse {msg : PldmMsg} {sCache : SensorCache} {locals : TaskLocals} {frame : List UInt8}
      (hupd : msg.RequestsUpdate) (hfull : h.sFlashCmdQueue.items.length = queueDepthFlash)
      (hcc : completionCodeOf frame = pldmCcError) :
    HandoffStep h (.dispatchPldm msg sCache locals) h [.answered msg frame]
  | other {msg : PldmMsg} {sCache : SensorCache} {locals : TaskLocals} {frame : List UInt8}
      (hupd : ¬ msg.RequestsUpdate) :
    HandoffStep h (.dispatchPldm msg sCache locals) h [.answered msg frame]
  | take {cmd : FlashCmd} {q : FreeRtos.Queue FlashCmd queueDepthFlash} (hidle : h.flashTask = none)
      (hq : h.sFlashCmdQueue.items = cmd :: q.items) :
    HandoffStep h .flashReceive ⟨q, some cmd⟩ [.taken cmd]
  | finish {cmd : FlashCmd} (hbusy : h.flashTask = some cmd) :
    HandoffStep h .flashFinish { h with flashTask := none } [.finished cmd]

variable {h h' : UpdateHandoff} {a : HandoffAction} {tr evs : List HandoffEvent}

theorem dispatch_step (h : UpdateHandoff) (msg : PldmMsg) (sCache : SensorCache)
    (locals : TaskLocals) :
    ∃ h' frame, framesSent (dispatchPldm sCache h.sFlashCmdQueue msg locals).2 = [frame] ∧
      updateHandoff.step h (.dispatchPldm msg sCache locals) = some (h', [.answered msg frame]) ∧
      HandoffStep h (.dispatchPldm msg sCache locals) h' [.answered msg frame] := by
  by_cases hupd : msg.RequestsUpdate
  · obtain ⟨length, -, hdisp⟩ :=
      dispatchPldm_update sCache h.sFlashCmdQueue msg locals hupd
    refine ⟨_, _, by rw [hdisp]; rfl, by simp only [updateHandoff, hdisp]; rfl, ?_⟩
    by_cases hroom : h.sFlashCmdQueue.items.length < queueDepthFlash
    · have hsend := FreeRtos.Queue.send_of_lt (x := requestUpdateCmd msg) hroom
      exact .accept hupd hroom hsend.2 (by rw [if_pos (hasRoom_iff.2 hroom)]; rfl)
    · rw [FreeRtos.Queue.send_of_full hroom]
      have hfull : h.sFlashCmdQueue.items.length = queueDepthFlash :=
        Nat.le_antisymm h.sFlashCmdQueue.bounded (Nat.le_of_not_lt hroom)
      exact .refuse hupd hfull (by rw [if_neg (by rw [hasRoom_iff]; exact hroom)]; rfl)
  · obtain ⟨frame, length, hdisp⟩ := dispatchPldm_quiet sCache h.sFlashCmdQueue locals hupd
    exact ⟨h, frame, by rw [hdisp]; rfl, by simp only [updateHandoff, hdisp]; rfl, .other hupd⟩

theorem updateHandoff_step_cases (hs : updateHandoff.step h a = some (h', evs)) :
    HandoffStep h a h' evs := by
  cases a with
  | dispatchPldm msg sCache locals =>
    obtain ⟨h₁, frame, -, hstep, hcases⟩ := dispatch_step h msg sCache locals
    obtain ⟨rfl, rfl⟩ : h₁ = h' ∧ [HandoffEvent.answered msg frame] = evs := by
      simpa using hstep.symm.trans hs
    exact hcases
  | flashReceive =>
    cases ht : h.flashTask with
    | some cmd => simp [updateHandoff, ht] at hs
    | none =>
      cases hq : h.sFlashCmdQueue.items with
      | nil => simp [updateHandoff, ht, rtosQueueReceive_nil hq] at hs
      | cons cmd rest =>
        obtain ⟨q, hrecv, rfl⟩ := rtosQueueReceive_cons hq
        simp only [updateHandoff, ht, hrecv, Option.some.injEq, Prod.mk.injEq] at hs
        obtain ⟨rfl, rfl⟩ := hs
        exact .take ht hq
  | flashFinish =>
    cases ht : h.flashTask with
    | none => simp [updateHandoff, ht] at hs
    | some cmd =>
      simp only [updateHandoff, ht, Option.some.injEq, Prod.mk.injEq] at hs
      obtain ⟨rfl, rfl⟩ := hs
      exact .finish ht

/-! ## The three histories -/

@[simp] theorem acceptedUpdates_append (tr evs : List HandoffEvent) :
    acceptedUpdates (tr ++ evs) = acceptedUpdates tr ++ acceptedUpdates evs := by
  simp [acceptedUpdates]

@[simp] theorem takenCommands_append (tr evs : List HandoffEvent) :
    takenCommands (tr ++ evs) = takenCommands tr ++ takenCommands evs := by
  simp [takenCommands]

@[simp] theorem finishedCommands_append (tr evs : List HandoffEvent) :
    finishedCommands (tr ++ evs) = finishedCommands tr ++ finishedCommands evs := by
  simp [finishedCommands]

/-- The accepted updates are the commands taken and those that wait, and the commands taken are those
finished and the one being executed. -/
structure Accounts (h : UpdateHandoff) (tr : List HandoffEvent) : Prop where
  accepted : (acceptedUpdates tr).map requestUpdateCmd = takenCommands tr ++ h.sFlashCmdQueue.items
  executed : takenCommands tr = finishedCommands tr ++ h.flashTask.toList

theorem accounts_init : Accounts updateHandoffInit [] := ⟨rfl, rfl⟩

theorem Accounts.unaccepted {msg : PldmMsg} {frame : List UInt8} (hacc : Accounts h tr)
    (hnone : acceptedUpdates [.answered msg frame] = []) :
    Accounts h (tr ++ [.answered msg frame]) := by
  refine ⟨?_, ?_⟩
  · rw [acceptedUpdates_append, hnone, List.append_nil, takenCommands_append, hacc.accepted]
    simp [takenCommands]
  · rw [takenCommands_append, finishedCommands_append, hacc.executed]
    simp [takenCommands, finishedCommands]

theorem Accounts.step (hacc : Accounts h tr) (hs : HandoffStep h a h' evs) :
    Accounts h' (tr ++ evs) := by
  obtain ⟨haccepted, hexecuted⟩ := hacc
  cases hs with
  | @accept msg _ _ q frame hupd hroom hq hcc =>
    have hnew : acceptedUpdates [.answered msg frame] = [msg] := by
      simp [acceptedUpdates, hupd, hcc]
    have hnone : takenCommands [.answered msg frame] = [] := rfl
    have hfin : finishedCommands [.answered msg frame] = [] := rfl
    constructor
    · simp only [acceptedUpdates_append, takenCommands_append, hnew, hnone, List.map_append,
        haccepted, List.append_nil, hq, List.append_assoc, List.map_cons, List.map_nil]
    · simpa only [takenCommands_append, finishedCommands_append, hnone, hfin, List.append_nil]
        using hexecuted
  | @refuse msg _ _ frame hupd hfull hcc =>
    have hne : ¬ pldmCcError = pldmCcSuccess := by decide
    exact Accounts.unaccepted ⟨haccepted, hexecuted⟩ (by simp [acceptedUpdates, hcc, hne])
  | @other msg _ _ frame hupd =>
    exact Accounts.unaccepted ⟨haccepted, hexecuted⟩ (by simp [acceptedUpdates, hupd])
  | @take cmd q hidle hq =>
    have hnew : acceptedUpdates [.taken cmd] = [] := rfl
    have hone : takenCommands [.taken cmd] = [cmd] := rfl
    have hfin : finishedCommands [.taken cmd] = [] := rfl
    constructor
    · simp only [acceptedUpdates_append, takenCommands_append, hnew, hone, List.append_nil, haccepted,
        hq, List.append_assoc, List.cons_append, List.nil_append]
    · simp only [takenCommands_append, finishedCommands_append, hone, hfin, hexecuted, hidle,
        Option.toList_none, Option.toList_some, List.append_nil]
  | @finish cmd hbusy =>
    have hnew : acceptedUpdates [.finished cmd] = [] := rfl
    have hnone : takenCommands [.finished cmd] = [] := rfl
    have hone : finishedCommands [.finished cmd] = [cmd] := rfl
    constructor
    · simpa only [acceptedUpdates_append, takenCommands_append, hnew, hnone, List.append_nil]
        using haccepted
    · simp only [takenCommands_append, finishedCommands_append, hone, hnone, hexecuted, hbusy,
        Option.toList_none, Option.toList_some, List.append_nil]

theorem accounts_of_exec {acts : List HandoffAction}
    (hrun : updateHandoff.exec updateHandoffInit acts = some (h, tr)) : Accounts h tr :=
  Machine.invariant accounts_init
    (fun _ _ _ _ _ hacc hs => hacc.step (updateHandoff_step_cases hs)) hrun

theorem cmdType_requestUpdateCmd (msg : PldmMsg) :
    (requestUpdateCmd msg).cmdType = flashCmdUpdateStart := rfl

theorem range_requestUpdateCmd (msg : PldmMsg) : (requestUpdateCmd msg).range = requestedRange msg :=
  Prod.ext (requestUpdateCmd_range msg).1 (requestUpdateCmd_range msg).2

/-- Accepted updates are executed once and in order. At every point the ranges of the `REQUEST_UPDATE`
messages answered with `PLDM_CC_SUCCESS` are those of the commands that the flash thread has taken and
of those that wait in its queue, in this order, and the thread has finished all it has taken but the one
it executes. The next message is refused exactly if it is a `REQUEST_UPDATE` that meets a full queue, and
no other message touches the queue. -/
theorem updateHandoff_accounts (acts : List HandoffAction) (h : UpdateHandoff)
    (tr : List HandoffEvent) (hrun : updateHandoff.exec updateHandoffInit acts = some (h, tr)) :
    (acceptedUpdates tr).map requestedRange =
      (takenCommands tr ++ h.sFlashCmdQueue.items).map FlashCmd.range ∧
    (∀ cmd ∈ takenCommands tr ++ h.sFlashCmdQueue.items, cmd.cmdType = flashCmdUpdateStart) ∧
    takenCommands tr = finishedCommands tr ++ h.flashTask.toList ∧
    ∀ msg sCache locals, ∃ h' frame,
      updateHandoff.step h (.dispatchPldm msg sCache locals) = some (h', [.answered msg frame]) ∧
      (msg.RequestsUpdate →
        (completionCodeOf frame = pldmCcError ↔ h.sFlashCmdQueue.items.length = queueDepthFlash) ∧
        (completionCodeOf frame = pldmCcSuccess ↔ h.sFlashCmdQueue.items.length ≠ queueDepthFlash)) ∧
      (¬ msg.RequestsUpdate → h' = h) := by
  have hacc := accounts_of_exec hrun
  refine ⟨?_, ?_, hacc.executed, fun msg sCache locals => ?_⟩
  · rw [← hacc.accepted, List.map_map]
    exact List.map_congr_left fun msg _ => (range_requestUpdateCmd msg).symm
  · rw [← hacc.accepted]
    intro cmd hcmd
    obtain ⟨msg, -, rfl⟩ := List.mem_map.1 hcmd
    exact cmdType_requestUpdateCmd msg
  · obtain ⟨h', frame, -, hstep, hcases⟩ := dispatch_step h msg sCache locals
    have hne : pldmCcError ≠ pldmCcSuccess := by decide
    refine ⟨h', frame, hstep, ?_⟩
    cases hcases with
    | accept hupd hroom hq hcc =>
      have hnot : h.sFlashCmdQueue.items.length ≠ queueDepthFlash := Nat.ne_of_lt hroom
      exact ⟨fun _ => ⟨by simp [hcc, hnot, hne.symm], by simp [hcc, hnot]⟩,
        fun hno => absurd hupd hno⟩
    | refuse hupd hfull hcc =>
      exact ⟨fun _ => ⟨by simp [hcc, hfull], by simp [hcc, hfull, hne]⟩, fun _ => rfl⟩
    | other hupd => exact ⟨fun hyes => absurd hyes hupd, fun _ => rfl⟩

/-- A `REQUEST_UPDATE` for one byte at the start of the flash. -/
def updateMsg : PldmMsg where
  instanceId := 0
  pldmType := pldmTypeFwUpdate
  command := pldmCmdRequestUpdate
  completionCode := 0
  payloadLen := 8
  reserved := 0
  payload := (Vector.replicate _ 0).setIfInBounds 4 1

/-- The cache after `sensor_mgr_init`, and automatic objects that hold zeros. -/
def dispatchUpdate : HandoffAction := .dispatchPldm updateMsg sensorMgrInit zeroLocals

theorem updateHandoff_accounts_two :
    ∃ h tr, updateHandoff.exec updateHandoffInit [dispatchUpdate, .flashReceive, dispatchUpdate] =
        some (h, tr) ∧
      (takenCommands tr).length = 1 ∧ h.sFlashCmdQueue.items.length = 1 ∧
      (acceptedUpdates tr).map requestedRange =
        (takenCommands tr ++ h.sFlashCmdQueue.items).map FlashCmd.range :=
  ⟨_, _, rfl, rfl, rfl,
    (updateHandoff_accounts [dispatchUpdate, .flashReceive, dispatchUpdate] _ _ rfl).1⟩

/-! ## The handoff in the firmware -/

/-- The commands that the flash thread of the firmware has taken. -/
def flashCommandsTaken (tr : List FwEvent) : List FlashCmd :=
  tr.filterMap fun
    | .flashReceived cmd => some cmd
    | _ => none

/-- The frames that the handoff answered with. -/
def framesAnswered (tr : List HandoffEvent) : List (List UInt8) :=
  tr.filterMap fun
    | .answered _ frame => some frame
    | _ => none

theorem framesAnswered_map (msg : PldmMsg) (frames : List (List UInt8)) :
    framesAnswered (frames.map (.answered msg)) = frames := by
  induction frames with
  | nil => rfl
  | cons frame frames ih => rw [List.map_cons, framesAnswered, List.filterMap_cons, ← framesAnswered, ih]

theorem takenCommands_map (msg : PldmMsg) (frames : List (List UInt8)) :
    takenCommands (frames.map (.answered msg)) = [] := by
  simp [takenCommands, List.filterMap_map]

/-- The firmware and the handoff have the same queue and the same flash thread, and have sent the same
frames and taken the same commands. -/
structure SameHandoff (fw : Firmware) (tr : List FwEvent) (h : UpdateHandoff)
    (ur : List HandoffEvent) : Prop where
  state : h = ⟨fw.sFlashCmdQueue, fw.flashTask⟩
  frames : framesAnswered ur = framesSent tr
  taken : takenCommands ur = flashCommandsTaken tr

section Firmware

variable {cfg : TickConfig} {fw fw' : Firmware} {ur : List FwEvent} {fevs : List FwEvent}

@[simp] theorem flashCommandsTaken_append (tr evs : List FwEvent) :
    flashCommandsTaken (tr ++ evs) = flashCommandsTaken tr ++ flashCommandsTaken evs := by
  simp [flashCommandsTaken]

@[simp] theorem framesAnswered_append (tr evs : List HandoffEvent) :
    framesAnswered (tr ++ evs) = framesAnswered tr ++ framesAnswered evs := by
  simp [framesAnswered]

theorem updateHandoff_dispatch (h : UpdateHandoff) (msg : PldmMsg) (sCache : SensorCache)
    (locals : TaskLocals) :
    updateHandoff.step h (.dispatchPldm msg sCache locals) =
      some ({ h with sFlashCmdQueue := (dispatchPldm sCache h.sFlashCmdQueue msg locals).1 },
        (framesSent (dispatchPldm sCache h.sFlashCmdQueue msg locals).2).map (.answered msg)) := rfl

theorem flashCommandsTaken_dispatch (h : ∀ e ∈ fevs, e.isDispatch = true) :
    flashCommandsTaken fevs = [] :=
  Trace.filterMap_quiet (fun e he => by cases e <;> simp_all [FwEvent.isDispatch]) h

/-- Steps of the two machines that keep the relation. -/
theorem SameHandoff.extend (hR : SameHandoff fw ur h tr)
    (hstate : h' = ⟨fw'.sFlashCmdQueue, fw'.flashTask⟩) (hframes : framesAnswered evs = framesSent fevs)
    (htaken : takenCommands evs = flashCommandsTaken fevs) :
    SameHandoff fw' (ur ++ fevs) h' (tr ++ evs) := by
  refine ⟨hstate, ?_, ?_⟩
  · rw [framesAnswered_append, framesSent_append, hR.frames, hframes]
  · rw [takenCommands_append, flashCommandsTaken_append, hR.taken, htaken]

/-- What a raw message completes is dispatched as in the handoff. -/
theorem SameHandoff.rx (hR : SameHandoff fw ur h tr) {locals : TaskLocals} {raw : BmcRxMsg}
    {q : FreeRtos.Queue BmcRxMsg queueDepthBmc} (hp : fw.phase = .drainRx)
    (hq : fw.sBmcRxQueue.items = raw :: q.items)
    (hs : bmcMgrTask cfg fw locals = some (fw', fevs)) :
    ∃ bs h' evs', updateHandoff.exec h bs = some (h', evs') ∧
      SameHandoff fw' (ur ++ fevs) h' (tr ++ evs') := by
  rw [bmcMgrTask_rx cfg locals hp hq, Option.some.injEq, Prod.mk.injEq] at hs
  obtain ⟨rfl, rfl⟩ := hs
  obtain rfl := hR.state
  set rx := protocolHdlrProcessRx fw.mctp raw locals.mctpPkt locals.pldm with hrx
  have hquiet : ∀ dispatched : List FwEvent,
      framesSent (.rxReceived raw :: (completedEvents (mctpProcessRx fw.mctp raw locals.mctpPkt) ++
        dispatched)) = framesSent dispatched ∧
      flashCommandsTaken (.rxReceived raw ::
        (completedEvents (mctpProcessRx fw.mctp raw locals.mctpPkt) ++ dispatched)) =
        flashCommandsTaken dispatched := by
    intro dispatched
    rw [completedEvents]
    split <;> exact ⟨rfl, rfl⟩
  by_cases hc : rx.complete = true
  · refine ⟨[.dispatchPldm rx.pldmOut fw.sCache locals], _, _,
      Machine.exec_singleton.2 (updateHandoff_dispatch _ _ _ _), ?_⟩
    have hev := flashCommandsTaken_dispatch (dispatchPldm_events fw.sCache fw.sFlashCmdQueue
      rx.pldmOut locals)
    generalize dispatchPldm fw.sCache fw.sFlashCmdQueue rx.pldmOut locals = dispatched at *
    simp only [hc, if_true]
    refine hR.extend rfl ?_ ?_
    · rw [(hquiet _).1, framesAnswered_map]
    · rw [(hquiet _).2, takenCommands_map, hev]
  · simp only [hc, if_false, Bool.false_eq_true]
    exact ⟨[], _, [], rfl, hR.extend rfl (hquiet []).1.symm (hquiet []).2.symm⟩

/-- Every step of the firmware is a step of the handoff, or none. -/
theorem SameHandoff.step {a : FwAction} (hR : SameHandoff fw ur h tr)
    (hs : (firmware cfg).step fw a = some (fw', fevs)) :
    ∃ bs h' evs', updateHandoff.exec h bs = some (h', evs') ∧
      SameHandoff fw' (ur ++ fevs) h' (tr ++ evs') := by
  cases firmware_step_cases hs with
  | rx locals raw q fq dispatched hp hq hd => exact hR.rx hp hq hs
  | flashReceive cmd q hidle hq =>
    obtain rfl := hR.state
    obtain ⟨q', hrecv, hitems⟩ := rtosQueueReceive_cons hq
    obtain rfl : q' = q := FreeRtos.Queue.ext hitems
    refine ⟨[.flashReceive], ⟨q', some cmd⟩, [.taken cmd], ?_, hR.extend rfl rfl rfl⟩
    simp only [Machine.exec_singleton, updateHandoff, hidle, hrecv]
  | flashFinish cmd hbusy =>
    obtain rfl := hR.state
    refine ⟨[.flashFinish], ⟨fw.sFlashCmdQueue, none⟩, [.finished cmd], ?_, hR.extend rfl rfl rfl⟩
    simp only [Machine.exec_singleton, updateHandoff, hbusy]
  | _ =>
    obtain rfl := hR.state
    exact ⟨[], _, [], rfl, hR.extend rfl rfl rfl⟩

/-- The handoff is what the firmware does with updates: every run of the firmware is one of the handoff,
with the same queue and flash thread, the same frames and the same commands taken. -/
theorem firmware_handoff {ticks : ℕ} {acts : List FwAction}
    (hrun : (firmware cfg).exec (firmwareInit cfg ticks) acts = some (fw, ur)) :
    ∃ bs h tr, updateHandoff.exec updateHandoffInit bs = some (h, tr) ∧ SameHandoff fw ur h tr :=
  Machine.simulated_by SameHandoff (fun _ _ _ _ _ _ _ hR hs => hR.step hs) ⟨rfl, rfl, rfl⟩ hrun

end Firmware

/-! ## Updates overlap -/

/-- As long as every `REQUEST_UPDATE` comes when no command is outstanding, at most one is. -/
theorem outstanding_step (hle : h.outstanding.length ≤ 1) (hapart : UpdatesApart h tr a)
    (hs : HandoffStep h a h' evs) : h'.outstanding.length ≤ 1 := by
  cases hs with
  | accept hupd hroom hq hcc =>
    have hnone := List.append_eq_nil_iff.1 (hapart hupd)
    simp [UpdateHandoff.outstanding, hq, hnone.1, hnone.2]
  | refuse hupd hfull hcc => exact hle
  | other hupd => exact hle
  | take hidle hq =>
    simp only [UpdateHandoff.outstanding, hidle, hq, Option.toList_none, Option.toList_some,
      List.nil_append, List.cons_append] at hle ⊢
    exact hle
  | finish hbusy =>
    simp only [UpdateHandoff.outstanding, hbusy, Option.toList_none, Option.toList_some,
      List.nil_append, List.cons_append, List.length_cons] at hle ⊢
    omega

/-- With at most one command outstanding the queue has room, so a `REQUEST_UPDATE` is accepted whether
one is outstanding or not. -/
theorem oneUpdateAtATime_iff_apart (hle : h.outstanding.length ≤ 1) (a : HandoffAction) :
    OneUpdateAtATime h tr a ↔ UpdatesApart h tr a := by
  cases a with
  | flashReceive => exact Iff.rfl
  | flashFinish => exact Iff.rfl
  | dispatchPldm msg sCache locals =>
    refine imp_congr_right fun hupd => ?_
    obtain ⟨h', frame, hframes, -, hcases⟩ := dispatch_step h msg sCache locals
    have hcc : completionCodeOf frame = pldmCcSuccess := by
      cases hcases with
      | accept _ _ _ hcc => exact hcc
      | refuse _ hfull _ =>
        simp only [UpdateHandoff.outstanding, List.length_append, queueDepthFlash] at hle hfull
        omega
      | other hno => exact absurd hupd hno
    simp only [hframes, List.mem_singleton, forall_eq, hcc, forall_const]
    constructor
    · exact fun hboth => hboth.1
    · exact fun hnone => ⟨hnone, fun hsome => absurd hnone hsome⟩

/-- Updates are answered one at a time exactly in the runs in which every `REQUEST_UPDATE` comes when
no command is outstanding: the first one that does not is answered with `PLDM_CC_SUCCESS`. -/
theorem oneUpdateAtATime_iff (acts : List HandoffAction) :
    updateHandoff.AllSteps OneUpdateAtATime updateHandoffInit acts ↔
      updateHandoff.AllSteps UpdatesApart updateHandoffInit acts :=
  Machine.allSteps_iff (I := fun h _ => h.outstanding.length ≤ 1) (by simp [updateHandoffInit,
      UpdateHandoff.outstanding])
    (fun _ _ _ _ _ hle hapart hs => outstanding_step hle hapart (updateHandoff_step_cases hs))
    (fun _ _ a hle => oneUpdateAtATime_iff_apart hle a) acts

/-- Two `REQUEST_UPDATE` messages in a row are both accepted. -/
theorem two_updates_accepted :
    ¬ updateHandoff.AllSteps OneUpdateAtATime updateHandoffInit [dispatchUpdate, dispatchUpdate] := by
  intro h
  have hsecond := h [dispatchUpdate] dispatchUpdate [] _ _ rfl rfl
  have hapart := (oneUpdateAtATime_iff_apart (by decide) _).1 hsecond (by decide)
  exact absurd hapart (by decide)

end NicObFw
