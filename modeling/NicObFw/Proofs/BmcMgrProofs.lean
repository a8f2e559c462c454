import NicObFw.BmcMgr

/-!
# Proofs: the steps of the machine

`FwStep` lists everything a step of the machine can do, guards included. The invariants of the machine
are proved by cases over it, and never unfold a step.
-/

namespace NicObFw

open Memory

theorem rtosQueueReceive_nil {α : Type*} {depth : ℕ} {q : FreeRtos.Queue α depth} (h : q.items = []) :
    rtosQueueReceive q = (.timeout, none, q) := by
  simp [rtosQueueReceive, FreeRtos.Queue.receive_nil h]

theorem rtosQueueReceive_cons {α : Type*} {depth : ℕ} {q : FreeRtos.Queue α depth} {x : α}
    {xs : List α} (h : q.items = x :: xs) :
    ∃ q' : FreeRtos.Queue α depth, rtosQueueReceive q = (.ok, some x, q') ∧ q'.items = xs := by
  obtain ⟨hx, hxs⟩ := FreeRtos.Queue.receive_cons h
  refine ⟨q.receive.2, ?_, hxs⟩
  have hr : q.receive = (some x, q.receive.2) := by rw [← hx]
  rw [rtosQueueReceive, hr]

/-- What `dispatch_pldm` reports: the posted command, if any, and the transmitted response. -/
def FwEvent.isDispatch : FwEvent → Bool
  | flashSent .. => true
  | transmit .. => true
  | _ => false

theorem dispatchPldm_events (sCache : SensorCache)
    (sFlashCmdQueue : FreeRtos.Queue FlashCmd queueDepthFlash) (msg : PldmMsg) (locals : TaskLocals) :
    ∀ e ∈ (dispatchPldm sCache sFlashCmdQueue msg locals).2, e.isDispatch = true := by
  simp only [dispatchPldm]
  split_ifs
  · split <;> simp [FwEvent.isDispatch]
  · split <;> simp [FwEvent.isDispatch]
  all_goals simp [FwEvent.isDispatch]

/-- Handling a raw message changes the time of the last message, the reassembly state and the flash
queue. -/
theorem handleBmcMsg_spec (cfg : TickConfig) (fw : Firmware) (raw : BmcRxMsg) (locals : TaskLocals) :
    ∃ sFlashCmdQueue dispatched,
      let mctp := mctpProcessRx fw.mctp raw locals.mctpPkt
      (∀ e ∈ dispatched, e.isDispatch = true) ∧
      handleBmcMsg cfg fw raw locals =
        ({ livenessUpdate cfg fw with mctp := mctp.st, sFlashCmdQueue },
          (if mctp.complete then
            [FwEvent.mctpComplete mctp.pktOut (load mctp.st.sReasmBuf 0 mctp.pktOut.payloadLen.toNat)]
          else []) ++ dispatched) := by
  have hst : (protocolHdlrProcessRx fw.mctp raw locals.mctpPkt locals.pldm).st =
      (mctpProcessRx fw.mctp raw locals.mctpPkt).st := by
    simp only [protocolHdlrProcessRx]
    split
    · rfl
    · split <;> rfl
  cases hc : (protocolHdlrProcessRx fw.mctp raw locals.mctpPkt locals.pldm).complete with
  | false =>
    refine ⟨fw.sFlashCmdQueue, [], by simp, ?_⟩
    simp only [handleBmcMsg, livenessUpdate, hc, hst, Bool.false_eq_true, if_false, List.append_nil]
    rfl
  | true =>
    let rx := protocolHdlrProcessRx fw.mctp raw locals.mctpPkt locals.pldm
    let out := dispatchPldm fw.sCache fw.sFlashCmdQueue rx.pldmOut locals
    refine ⟨out.1, out.2, dispatchPldm_events _ _ _ _, ?_⟩
    simp only [handleBmcMsg, livenessUpdate, hc, hst, if_true]
    rfl

theorem sent_beq_ok (b : Bool) : ((if b = true then RtosErr.ok else RtosErr.full) == RtosErr.ok) = b := by
  cases b <;> rfl

/-- Everything that a step of the machine can do. -/
inductive FwStep (cfg : TickConfig) (fw : Firmware) : FwAction → Firmware → List FwEvent → Prop
  | rxIsr (w : I2cWrite) (msgData : Vector UInt8 smbMaxBlockSize) :
    FwStep cfg fw (.bmcI2cRxIsr w msgData)
      { fw with sBmcRxQueue := (fw.sBmcRxQueue.send (bmcI2cRxMsg msgData w).1).2 }
      [.i2cRx w (fw.sBmcRxQueue.send (bmcI2cRxMsg msgData w).1).1]
  | nicPost (evt : NicEventMsg) :
    FwStep cfg fw (.nicPost evt) { fw with sNicEventQueue := (fw.sNicEventQueue.send evt).2 }
      [.nicPost evt (fw.sNicEventQueue.send evt).1]
  | wake (locals : TaskLocals) (hp : fw.phase = .wait)
      (hr : fw.sEvents.Ready (bitBmcRx ||| bitNicEvent) false) :
    FwStep cfg fw (.bmcMgrTask locals)
      { fw with
        phase := .drainRx
        sEvents := ⟨fw.sEvents.bits &&& ~~~(bitBmcRx ||| bitNicEvent)⟩ } []
  | rx (locals : TaskLocals) (raw : BmcRxMsg) (sBmcRxQueue : FreeRtos.Queue BmcRxMsg queueDepthBmc)
      (sFlashCmdQueue : FreeRtos.Queue FlashCmd queueDepthFlash) (dispatched : List FwEvent)
      (hp : fw.phase = .drainRx) (hq : fw.sBmcRxQueue.items = raw :: sBmcRxQueue.items)
      (hd : ∀ e ∈ dispatched, e.isDispatch = true) :
    FwStep cfg fw (.bmcMgrTask locals)
      { livenessUpdate cfg fw with
        sBmcRxQueue, sFlashCmdQueue, mctp := (mctpProcessRx fw.mctp raw locals.mctpPkt).st }
      (.rxReceived raw :: ((if (mctpProcessRx fw.mctp raw locals.mctpPkt).complete then
        [FwEvent.mctpComplete (mctpProcessRx fw.mctp raw locals.mctpPkt).pktOut
          (load (mctpProcessRx fw.mctp raw locals.mctpPkt).st.sReasmBuf 0
            (mctpProcessRx fw.mctp raw locals.mctpPkt).pktOut.payloadLen.toNat)]
        else []) ++ dispatched))
  | rxDone (locals : TaskLocals) (hp : fw.phase = .drainRx) (hq : fw.sBmcRxQueue.items = []) :
    FwStep cfg fw (.bmcMgrTask locals) { fw with phase := .drainNic } []
  | nic (locals : TaskLocals) (evt : NicEventMsg)
      (sNicEventQueue : FreeRtos.Queue NicEventMsg queueDepthNicGen)
      (hp : fw.phase = .drainNic) (hq : fw.sNicEventQueue.items = evt :: sNicEventQueue.items) :
    FwStep cfg fw (.bmcMgrTask locals)
      { fw with
        sNicEventQueue
        sel := nicGenMgrHandleNicEvent fw.sel evt (rtosGetTickMs cfg fw.ticks) }
      [.nicReceived evt, .selLogged evt.eventType evt.eventData]
  | nicDone (locals : TaskLocals) (hp : fw.phase = .drainNic) (hq : fw.sNicEventQueue.items = []) :
    FwStep cfg fw (.bmcMgrTask locals) { fw with phase := .liveness } []
  | alive (locals : TaskLocals) (hp : fw.phase = .liveness) (hl : livenessCheck cfg fw = true) :
    FwStep cfg fw (.bmcMgrTask locals) { fw with phase := .wait } []
  | silent (locals : TaskLocals) (hp : fw.phase = .liveness) (hl : livenessCheck cfg fw = false) :
    FwStep cfg fw (.bmcMgrTask locals)
      { fw with
        phase := .wait
        sel := nicGenMgrLogSelEvent fw.sel msgTypeLiveness 0 (rtosGetTickMs cfg fw.ticks) }
      [.selLogged msgTypeLiveness 0]
  | timeout (hp : fw.phase = .wait) : FwStep cfg fw .waitTimeout { fw with phase := .drainRx } []
  | clock (ticks : ℕ) : FwStep cfg fw (.clock ticks) { fw with ticks := fw.ticks + ticks } []
  | sensorStore (sensorId : Fin maxSensors) (rec : SensorRecord) :
    FwStep cfg fw (.sensorStore sensorId rec)
      { fw with sCache := sensorCacheStore fw.sCache sensorId rec } []
  | flashReceive (cmd : FlashCmd) (sFlashCmdQueue : FreeRtos.Queue FlashCmd queueDepthFlash)
      (hidle : fw.flashTask = none) (hq : fw.sFlashCmdQueue.items = cmd :: sFlashCmdQueue.items) :
    FwStep cfg fw .flashReceive { fw with sFlashCmdQueue, flashTask := some cmd }
      [.flashReceived cmd]
  | flashFinish (cmd : FlashCmd) (hbusy : fw.flashTask = some cmd) :
    FwStep cfg fw .flashFinish { fw with flashTask := none } [.flashFinished cmd]

variable {cfg : TickConfig} {fw fw' : Firmware} {evs : List FwEvent}

theorem bmcMgrTask_cases {locals : TaskLocals} (h : bmcMgrTask cfg fw locals = some (fw', evs)) :
    FwStep cfg fw (.bmcMgrTask locals) fw' evs := by
  unfold bmcMgrTask at h
  split at h
  case h_1 hp =>
    by_cases hr : fw.sEvents.Ready (bitBmcRx ||| bitNicEvent) false
    · simp only [rtosEventGroupWait, FreeRtos.EventGroup.waitBits, hr, if_true, Option.some.injEq,
        Prod.mk.injEq] at h
      obtain ⟨rfl, rfl⟩ := h
      exact .wake locals hp hr
    · simp [rtosEventGroupWait, FreeRtos.EventGroup.waitBits, hr] at h
  case h_2 hp =>
    cases hq : fw.sBmcRxQueue.items with
    | nil =>
      simp only [rtosQueueReceive_nil hq, Option.some.injEq, Prod.mk.injEq] at h
      obtain ⟨rfl, rfl⟩ := h
      exact .rxDone locals hp hq
    | cons raw rest =>
      obtain ⟨q', hrecv, rfl⟩ := rtosQueueReceive_cons hq
      obtain ⟨fq, dispatched, hd, hhandle⟩ :=
        handleBmcMsg_spec cfg { fw with sBmcRxQueue := q' } raw locals
      simp only [hrecv, hhandle, Option.some.injEq, Prod.mk.injEq] at h
      obtain ⟨rfl, rfl⟩ := h
      exact .rx locals raw q' fq dispatched hp hq hd
  case h_3 hp =>
    cases hq : fw.sNicEventQueue.items with
    | nil =>
      simp only [rtosQueueReceive_nil hq, Option.some.injEq, Prod.mk.injEq] at h
      obtain ⟨rfl, rfl⟩ := h
      exact .nicDone locals hp hq
    | cons evt rest =>
      obtain ⟨q', hrecv, rfl⟩ := rtosQueueReceive_cons hq
      simp only [hrecv, Option.some.injEq, Prod.mk.injEq] at h
      obtain ⟨rfl, rfl⟩ := h
      exact .nic locals evt q' hp hq
  case h_4 hp =>
    cases hl : livenessCheck cfg fw with
    | true =>
      simp only [hl, if_true, Option.some.injEq, Prod.mk.injEq] at h
      obtain ⟨rfl, rfl⟩ := h
      exact .alive locals hp hl
    | false =>
      simp only [hl, Bool.false_eq_true, if_false, Option.some.injEq, Prod.mk.injEq] at h
      obtain ⟨rfl, rfl⟩ := h
      exact .silent locals hp hl

/-- A step of the machine is one of the listed ones. -/
theorem firmware_step_cases {a : FwAction} (h : (firmware cfg).step fw a = some (fw', evs)) :
    FwStep cfg fw a fw' evs := by
  cases a with
  | bmcI2cRxIsr w msgData =>
    simp only [firmware, bmcI2cRxIsr, rtosQueueSendFromIsr, rtosQueueSend, sent_beq_ok,
      Option.some.injEq, Prod.mk.injEq] at h
    obtain ⟨rfl, rfl⟩ := h
    exact .rxIsr w msgData
  | nicPost evt =>
    simp only [firmware, nicEventPost, rtosQueueSendFromIsr, rtosQueueSend, sent_beq_ok,
      Option.map_some, Option.some.injEq, Prod.mk.injEq] at h
    obtain ⟨rfl, rfl⟩ := h
    exact .nicPost evt
  | bmcMgrTask locals => exact bmcMgrTask_cases h
  | waitTimeout =>
    simp only [firmware] at h
    split at h
    · rename_i hp
      simp only [FreeRtos.EventGroup.waitTimeout, Option.some.injEq, Prod.mk.injEq] at h
      obtain ⟨rfl, rfl⟩ := h
      exact .timeout hp
    · exact absurd h (by simp)
  | clock ticks =>
    simp only [firmware, Option.some.injEq, Prod.mk.injEq] at h
    obtain ⟨rfl, rfl⟩ := h
    exact .clock ticks
  | sensorStore sensorId rec =>
    simp only [firmware, Option.some.injEq, Prod.mk.injEq] at h
    obtain ⟨rfl, rfl⟩ := h
    exact .sensorStore sensorId rec
  | flashReceive =>
    cases ht : fw.flashTask with
    | some cmd => simp [firmware, ht] at h
    | none =>
      cases hq : fw.sFlashCmdQueue.items with
      | nil => simp [firmware, ht, rtosQueueReceive_nil hq] at h
      | cons cmd rest =>
        obtain ⟨q', hrecv, rfl⟩ := rtosQueueReceive_cons hq
        simp only [firmware, ht, hrecv, Option.some.injEq, Prod.mk.injEq] at h
        obtain ⟨rfl, rfl⟩ := h
        exact .flashReceive cmd q' ht hq
  | flashFinish =>
    cases ht : fw.flashTask with
    | none => simp [firmware, ht] at h
    | some cmd =>
      simp only [firmware, ht, Option.some.injEq, Prod.mk.injEq] at h
      obtain ⟨rfl, rfl⟩ := h
      exact .flashFinish cmd ht

/-- The automatic objects of a step, all zero. -/
def zeroLocals : TaskLocals where
  mctpPkt := ⟨0, 0, 0, 0, 0, 0, Vector.replicate _ 0⟩
  pldm := ⟨0, 0, 0, 0, 0, 0, Vector.replicate _ 0⟩
  respBuf := Vector.replicate _ 0
  send := ⟨⟨0, 0, 0, 0, 0, 0, Vector.replicate _ 0⟩, Vector.replicate _ 0⟩

end NicObFw
