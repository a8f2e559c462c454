import NicObFw.IsrHandlers
import NicObFw.NicGenMgr
import NicObFw.ProtocolHdlr
import NicObFw.SensorMgr
import NicObFw.Lib.Machine

/-!
# BMC Manager

The main dispatch thread of `bmc_mgr.c`, and the machine it forms with the interrupt service routines
and the other threads that share its queues. One step of the task is one turn of a loop in
`bmc_mgr_task`: the wait, the receipt of one message with everything that follows from it, the
receipt of one NIC event, the liveness check. Interrupts and other threads come between steps.

Automatic objects are uninitialised in the source, so a step takes their contents as a parameter.
-/

namespace NicObFw

open Memory

def bitBmcRx : UInt32 := (1 : UInt32) <<< 0

def bitNicEvent : UInt32 := (1 : UInt32) <<< 1

/-- Where `bmc_mgr_task` is in its loop. -/
inductive BmcMgrPhase where
  /-- In `rtos_event_group_wait`. -/
  | wait
  /-- At the loop that drains the BMC queue. -/
  | drainRx
  /-- At the loop that drains the NIC event queue. -/
  | drainNic
  /-- At the periodic liveness check. -/
  | liveness
deriving DecidableEq, Repr

/-- The queues, static variables and task positions that the machine works on. -/
structure Firmware where
  phase : BmcMgrPhase
  sBmcRxQueue : FreeRtos.Queue BmcRxMsg queueDepthBmc
  sNicEventQueue : FreeRtos.Queue NicEventMsg queueDepthNicGen
  sFlashCmdQueue : FreeRtos.Queue FlashCmd queueDepthFlash
  sEvents : FreeRtos.EventGroup
  mctp : MctpState
  sLastBmcSeenMs : UInt32
  sel : SelState
  sCache : SensorCache
  /-- The command that the flash thread is executing. -/
  flashTask : Option FlashCmd
  /-- Ticks since boot. -/
  ticks : ℕ

/-- What can be observed of a step. -/
inductive FwEvent where
  /-- `bmc_i2c_rx_isr` posted a write, and the queue took it or was full. -/
  | i2cRx (w : I2cWrite) (taken : Bool)
  /-- A NIC event was posted, and the queue took it or was full. -/
  | nicPost (evt : NicEventMsg) (taken : Bool)
  /-- The task received a raw message. -/
  | rxReceived (raw : BmcRxMsg)
  /-- `mctp_process_rx` returned true with this packet and these bytes in its reassembly buffer. -/
  | mctpComplete (pkt : MctpPacket) (reasmBytes : List UInt8)
  /-- `dispatch_pldm` posted a command to the flash queue, with this result. -/
  | flashSent (cmd : FlashCmd) (ret : RtosErr)
  /-- `bmc_hal_transmit` was called with these bytes and this length. -/
  | transmit (bytes : List UInt8) (length : UInt16)
  /-- The task received a NIC event. -/
  | nicReceived (evt : NicEventMsg)
  /-- An entry was written to the event log. -/
  | selLogged (eventType : UInt8) (eventData : UInt32)
  /-- The flash thread took a command from its queue. -/
  | flashReceived (cmd : FlashCmd)
  /-- The flash thread finished its command. -/
  | flashFinished (cmd : FlashCmd)
deriving DecidableEq

/-! ## Liveness -/

def sLivenessTimeoutMs : UInt32 := 5000

/-- `liveness_update`. -/
def livenessUpdate (cfg : TickConfig) (fw : Firmware) : Firmware :=
  { fw with sLastBmcSeenMs := rtosGetTickMs cfg fw.ticks }

/-- `liveness_check`. -/
def livenessCheck (cfg : TickConfig) (fw : Firmware) : Bool :=
  rtosGetTickMs cfg fw.ticks - fw.sLastBmcSeenMs < sLivenessTimeoutMs

/-! ## PLDM command dispatch -/

/-- The command that a `REQUEST_UPDATE` message asks for. -/
def requestUpdateCmd (msg : PldmMsg) : FlashCmd :=
  let p := msg.payload
  let (imageOffset, imageSize) :=
    if msg.payloadLen.toNat ≥ 8 then
      (uint32Of p[0] p[1] p[2] p[3], uint32Of p[4] p[5] p[6] p[7])
    else (0, 0)
  { cmdType := flashCmdUpdateStart, targetPartition := 0, reserved := 0, imageOffset, imageSize }

/-- The automatic objects of a step of the task. -/
structure TaskLocals where
  mctpPkt : MctpPacket
  pldm : PldmMsg
  respBuf : Vector UInt8 64
  send : SendLocals

/-- `dispatch_pldm`: the flash queue afterwards, and what was done. -/
def dispatchPldm (sCache : SensorCache) (sFlashCmdQueue : FreeRtos.Queue FlashCmd queueDepthFlash)
    (msg : PldmMsg) (locals : TaskLocals) :
    FreeRtos.Queue FlashCmd queueDepthFlash × List FwEvent :=
  let respond := fun (respBuf : Vector UInt8 64) (respLen : UInt16) (cc : UInt8) =>
    let (txBuf, txLen, _) :=
      protocolHdlrSendResponse msg (some respBuf.toList) respLen cc locals.send
    FwEvent.transmit (load txBuf 0 txLen.toNat) txLen
  if pldmGetType msg = pldmTypeSensorMonitoring then
    if pldmGetCommand msg = pldmCmdGetSensorReading then
      let sensorId := if msg.payloadLen.toNat > 0 then msg.payload[0] else 0
      match sensorMgrGetCached sCache sensorId with
      | some rec =>
        (sFlashCmdQueue, [respond (store locals.respBuf 0 rec.bytes) 16 pldmCcSuccess])
      | none => (sFlashCmdQueue, [respond locals.respBuf 0 pldmCcError])
    else (sFlashCmdQueue, [respond locals.respBuf 0 pldmCcInvalidCmd])
  else if pldmGetType msg = pldmTypeFwUpdate then
    if pldmGetCommand msg = pldmCmdRequestUpdate then
      let cmd := requestUpdateCmd msg
      let (ret, sFlashCmdQueue) := rtosQueueSend sFlashCmdQueue cmd
      let cc := if ret ≠ .ok then pldmCcError else pldmCcSuccess
      (sFlashCmdQueue, [.flashSent cmd ret, respond locals.respBuf 0 cc])
    else (sFlashCmdQueue, [respond locals.respBuf 0 pldmCcInvalidCmd])
  else (sFlashCmdQueue, [respond locals.respBuf 0 pldmCcInvalidCmd])

/-! ## The task -/

/-- The body of the loop that drains the BMC queue, for the message `raw`. -/
def handleBmcMsg (cfg : TickConfig) (fw : Firmware) (raw : BmcRxMsg) (locals : TaskLocals) :
    Firmware × List FwEvent :=
  let fw := livenessUpdate cfg fw
  let mctp := mctpProcessRx fw.mctp raw locals.mctpPkt
  let completed :=
    if mctp.complete then
      [FwEvent.mctpComplete mctp.pktOut (load mctp.st.sReasmBuf 0 mctp.pktOut.payloadLen.toNat)]
    else []
  let rx := protocolHdlrProcessRx fw.mctp raw locals.mctpPkt locals.pldm
  let fw := { fw with mctp := rx.st }
  if rx.complete then
    let (sFlashCmdQueue, events) := dispatchPldm fw.sCache fw.sFlashCmdQueue rx.pldmOut locals
    ({ fw with sFlashCmdQueue }, completed ++ events)
  else (fw, completed)

/-- The next step of `bmc_mgr_task`; `none` while the task is blocked. -/
def bmcMgrTask (cfg : TickConfig) (fw : Firmware) (locals : TaskLocals) :
    Option (Firmware × List FwEvent) :=
  match fw.phase with
  | .wait =>
    match rtosEventGroupWait fw.sEvents (bitBmcRx ||| bitNicEvent) true false with
    | some (_, sEvents) => some ({ fw with phase := .drainRx, sEvents }, [])
    | none => none
  | .drainRx =>
    match rtosQueueReceive fw.sBmcRxQueue with
    | (.ok, some raw, sBmcRxQueue) =>
      let (fw, events) := handleBmcMsg cfg { fw with sBmcRxQueue } raw locals
      some (fw, .rxReceived raw :: events)
    | _ => some ({ fw with phase := .drainNic }, [])
  | .drainNic =>
    match rtosQueueReceive fw.sNicEventQueue with
    | (.ok, some evt, sNicEventQueue) =>
      some ({ fw with
          sNicEventQueue
          sel := nicGenMgrHandleNicEvent fw.sel evt (rtosGetTickMs cfg fw.ticks) },
        [.nicReceived evt, .selLogged evt.eventType evt.eventData])
    | _ => some ({ fw with phase := .liveness }, [])
  | .liveness =>
    if livenessCheck cfg fw then some ({ fw with phase := .wait }, [])
    else
      -- the BMC has gone silent
      some ({ fw with
          phase := .wait
          sel := nicGenMgrLogSelEvent fw.sel msgTypeLiveness 0 (rtosGetTickMs cfg fw.ticks) },
        [.selLogged msgTypeLiveness 0])

/-! ## The machine -/

/-- The steps of all parties. -/
inductive FwAction where
  | bmcI2cRxIsr (w : I2cWrite) (msgData : Vector UInt8 smbMaxBlockSize)
  /-- A post to the NIC event queue; that of `nic_alert_isr` is `nicAlertEvent`. -/
  | nicPost (evt : NicEventMsg)
  | bmcMgrTask (locals : TaskLocals)
  /-- The wait of the task runs into its timeout. -/
  | waitTimeout
  /-- The clock advances. -/
  | clock (ticks : ℕ)
  /-- The sensor thread stores a record. -/
  | sensorStore (sensorId : Fin maxSensors) (rec : SensorRecord)
  /-- The flash thread, idle, takes a command. -/
  | flashReceive
  /-- The flash thread finishes its command. -/
  | flashFinish

/-- The steps of the machine. `s_events` is only read and cleared here: no function of the source
calls `rtos_event_group_set` or `rtos_event_group_set_from_isr`. -/
def firmware (cfg : TickConfig) : Machine Firmware FwAction FwEvent where
  step fw
    | .bmcI2cRxIsr w msgData =>
      let ret := (rtosQueueSendFromIsr fw.sBmcRxQueue (bmcI2cRxMsg msgData w).1).1
      match bmcI2cRxIsr (some fw.sBmcRxQueue) msgData w with
      | (some sBmcRxQueue, _) => some ({ fw with sBmcRxQueue }, [.i2cRx w (ret == .ok)])
      | (none, _) => none
    | .nicPost evt =>
      let ret := (rtosQueueSendFromIsr fw.sNicEventQueue evt).1
      match nicEventPost (some fw.sNicEventQueue) evt with
      | some sNicEventQueue => some ({ fw with sNicEventQueue }, [.nicPost evt (ret == .ok)])
      | none => none
    | .bmcMgrTask locals => bmcMgrTask cfg fw locals
    | .waitTimeout =>
      if fw.phase = .wait then
        some ({ fw with phase := .drainRx, sEvents := fw.sEvents.waitTimeout.2 }, [])
      else none
    | .clock ticks => some ({ fw with ticks := fw.ticks + ticks }, [])
    | .sensorStore sensorId rec =>
      some ({ fw with sCache := sensorCacheStore fw.sCache sensorId rec }, [])
    | .flashReceive =>
      match fw.flashTask, rtosQueueReceive fw.sFlashCmdQueue with
      | none, (.ok, some cmd, sFlashCmdQueue) =>
        some ({ fw with sFlashCmdQueue, flashTask := some cmd }, [.flashReceived cmd])
      | _, _ => none
    | .flashFinish =>
      match fw.flashTask with
      | some cmd => some ({ fw with flashTask := none }, [.flashFinished cmd])
      | none => none

/-- The state that `app_main` leaves when the tasks start, the services having been initialised at
the tick `ticks`. -/
def firmwareInit (cfg : TickConfig) (ticks : ℕ) : Firmware where
  phase := .wait
  sBmcRxQueue := .create _ _
  sNicEventQueue := .create _ _
  sFlashCmdQueue := .create _ _
  sEvents := .create
  mctp := protocolHdlrInit
  sLastBmcSeenMs := rtosGetTickMs cfg ticks
  sel := nicGenMgrInit
  sCache := sensorMgrInit
  flashTask := none
  ticks := ticks

end NicObFw
