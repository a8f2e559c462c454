import NicObFw.Answers
import NicObFw.SensorThreads

/-!
# The BMC Manager among the threads around the sensor cache

The machine of `BmcMgr.lean` stores a record and answers a request for one in a single step each. Here
both take the steps that they have in the source: `poll_all_sensors` writes field by field under
`s_cache_mutex`, as in `SensorThreads.lean`, and the BMC Manager is the thread that calls
`sensor_mgr_get_cached`, in the middle of `dispatch_pldm`.
-/

namespace NicObFw

open Memory

/-- The state of the machine of the BMC Manager, whose `sCache` is the memory that the threads share,
with the threads around it. -/
structure FineFirmware where
  fw : Firmware
  sCacheMutex : FreeRtos.Mutex (CacheThread Unit)
  /-- The sensor thread. -/
  task : SensorTaskPhase
  /-- The call of `sensor_mgr_get_cached` that the BMC Manager is in. -/
  reader : ReaderPhase
  /-- The message that `dispatch_pldm` has in hand during this call, and its automatic objects. -/
  request : Option (PldmMsg × TaskLocals)

/-- The threads around the cache. -/
def FineFirmware.threads (s : FineFirmware) : SensorThreads Unit where
  sCache := s.fw.sCache
  sCacheMutex := s.sCacheMutex
  task := s.task
  reader := fun _ => s.reader
  ticks := s.fw.ticks

/-- The threads around the cache have taken a step. -/
def FineFirmware.setThreads (s : FineFirmware) (threads : SensorThreads Unit) : FineFirmware :=
  { s with
    fw := { s.fw with sCache := threads.sCache }
    sCacheMutex := threads.sCacheMutex
    task := threads.task
    reader := threads.reader () }

inductive FineEvent where
  | fw (e : FwEvent)
  | cache (e : SensorEvent Unit)
deriving DecidableEq

/-! ## The BMC Manager -/

/-- `sensor_id` in `dispatch_pldm`. -/
def sensorIdAsked (msg : PldmMsg) : UInt8 :=
  if msg.payloadLen.toNat > 0 then msg.payload.toList.getD 0 0 else 0

/-- The sensor that `dispatch_pldm` asks `sensor_mgr_get_cached` for, if the call takes the mutex. -/
def recordAsked (count : UInt8) (msg : PldmMsg) : Option UInt8 :=
  if pldmGetType msg = pldmTypeSensorMonitoring ∧ pldmGetCommand msg = pldmCmdGetSensorReading ∧
      ¬ sensorIdAsked msg ≥ count then
    some (sensorIdAsked msg)
  else none

/-- What `dispatch_pldm` does when `sensor_mgr_get_cached` has returned this record. -/
def respondReading (msg : PldmMsg) (locals : TaskLocals) (rec : SensorRecord) : FwEvent :=
  let respBuf := store locals.respBuf 0 rec.bytes
  let (txBuf, txLen, _) :=
    protocolHdlrSendResponse msg (some respBuf.toList) 16 pldmCcSuccess locals.send
  .transmit (load txBuf 0 txLen.toNat) txLen

/-- The step of `bmc_mgr_task` that receives a request for a record, up to the call of
`sensor_mgr_get_cached`: the message, the sensor and what was done so far; `none` if the next step is
another one. -/
def bmcMgrTaskCalls (cfg : TickConfig) (fw : Firmware) (locals : TaskLocals) :
    Option (Firmware × PldmMsg × UInt8 × List FwEvent) :=
  match fw.phase, rtosQueueReceive fw.sBmcRxQueue with
  | .drainRx, (.ok, some raw, sBmcRxQueue) =>
    let fw := livenessUpdate cfg { fw with sBmcRxQueue }
    let mctp := mctpProcessRx fw.mctp raw locals.mctpPkt
    let completed :=
      if mctp.complete then
        [FwEvent.mctpComplete mctp.pktOut (load mctp.st.sReasmBuf 0 mctp.pktOut.payloadLen.toNat)]
      else []
    let rx := protocolHdlrProcessRx fw.mctp raw locals.mctpPkt locals.pldm
    if rx.complete then
      (recordAsked fw.sCache.count rx.pldmOut).map fun sensorId =>
        ({ fw with mctp := rx.st }, rx.pldmOut, sensorId, .rxReceived raw :: completed)
    else none
  | _, _ => none

/-- The response that follows the return of `sensor_mgr_get_cached`. -/
def respondTo (request : PldmMsg × TaskLocals) : SensorEvent Unit → List FineEvent
  | .gotCached _ _ recordOut => [.fw (respondReading request.1 request.2 recordOut)]
  | _ => []

/-- The action is one of an interrupt, of the flash thread or of the clock, or the end of the wait. -/
def FwAction.isOther : FwAction → Bool
  | bmcMgrTask _ => false
  | sensorStore .. => false
  | _ => true

/-- The event is one of the BMC Manager. -/
def FwEvent.ofBmcMgr : FwEvent → Bool
  | i2cRx .. => false
  | nicPost .. => false
  | flashReceived _ => false
  | flashFinished _ => false
  | _ => true

/-- What the BMC Manager does. -/
def bmcMgrEvents (tr : List FwEvent) : List FwEvent := tr.filter FwEvent.ofBmcMgr

/-- What the interrupts and the flash thread do. -/
def otherEvents (tr : List FwEvent) : List FwEvent := tr.filter fun e => !e.ofBmcMgr

/-- What the machine of the BMC Manager would report. -/
def fwEvents (tr : List FineEvent) : List FwEvent :=
  tr.filterMap fun
    | .fw e => some e
    | _ => none

/-- What the threads around the cache report. -/
def cacheEvents (tr : List FineEvent) : List (SensorEvent Unit) :=
  tr.filterMap fun
    | .cache e => some e
    | _ => none

/-- The sensor thread has written some fields of the record of this sensor, and not all. -/
def SensorTaskPhase.writes (sensorId : ℕ) : SensorTaskPhase → Bool
  | store .scaledValue reading _ => reading.sensorId.toNat == sensorId
  | store .state reading _ => reading.sensorId.toNat == sensorId
  | store .timestampMs reading _ => reading.sensorId.toNat == sensorId
  | _ => false

/-! ## Atomicity -/

/-- The cache with the record that is being written as it was before. -/
structure Committed (threads : SensorThreads Unit) (sCache : SensorCache) : Prop where
  count : sCache.count = threads.sCache.count
  records : ∀ i : ℕ, threads.task.writes i = false →
    sCache.records[i]? = threads.sCache.records[i]?

/-- What a reading makes of the record of its sensor. -/
def storedRecord (sensorId : UInt8) (raw : Int16) (timestampMs : UInt32) (old : SensorRecord) :
    Except SensorFault SensorRecord := do
  let scaledValue ← applyCalibration sensorId raw
  let state ← checkThresholds sensorId scaledValue
  return { old with rawValue := raw, scaledValue, state, timestampMs }

/-- A use of the cache by the machine of the BMC Manager: a record is stored over an old one, or a frame is
sent. -/
inductive AtomicUse where
  | stored (sensorId : ℕ) (old rec : SensorRecord)
  | sent (bytes : List UInt8) (length : UInt16)

/-- The frame that an event hands to `bmc_hal_transmit`. -/
def FwEvent.sentFrame : FwEvent → Option AtomicUse
  | .transmit bytes length => some (.sent bytes length)
  | _ => none

/-- What a step of the machine of the BMC Manager stores or sends. -/
def atomicUses (fw : Firmware) (a : FwAction) (evs : List FwEvent) : List AtomicUse :=
  match a with
  | .sensorStore sensorId rec => [.stored sensorId (fw.sCache.records.get sensorId) rec]
  | _ => evs.filterMap FwEvent.sentFrame

/-- The completed stores of records, and the frames sent, in their order. -/
def storesAndFrames (tr : List FineEvent) : List FineEvent :=
  tr.filter fun
    | .cache (.stored ..) => true
    | .fw (.transmit ..) => true
    | _ => false

/-- A single step does what was done in several: it stores what the reading makes of the record, or sends
the same frame. -/
inductive Performs : AtomicUse → FineEvent → Prop
  | stored (sensorId : UInt8) (raw : Int16) (tickMs : UInt32) (old rec : SensorRecord)
      (hrec : storedRecord sensorId raw tickMs old = .ok rec) :
    Performs (.stored sensorId.toNat old rec) (.cache (.stored sensorId raw tickMs))
  | sent (bytes : List UInt8) (length : UInt16) :
    Performs (.sent bytes length) (.fw (.transmit bytes length))

/-! ## What the BMC should be answered -/

/-- The message that was reassembled last. -/
def lastCompleted (tr : List FwEvent) : Option (List UInt8) :=
  (tr.filterMap fun
    | .mctpComplete _ message => some message
    | _ => none).getLast?

/-- The bytes of an MCTP message ask for the reading of a sensor that the cache has. -/
def AsksForReading (message : List UInt8) : Prop :=
  message.getD 1 0 = pldmTypeSensorMonitoring ∧ message.getD 2 0 = pldmCmdGetSensorReading ∧
    message.getD 3 0 < sensorMgrInit.count

instance (message : List UInt8) : Decidable (AsksForReading message) :=
  inferInstanceAs (Decidable (_ ∧ _ ∧ _))

/-- What the answer to `message` is after the trace `pre`. A reading that is asked for is the last one
stored of this sensor. No other answer depends on the sensors; that to an update request says whether
the flash queue took the command just before. -/
def AnswerGiven (pre : List FineEvent) (message : List UInt8) (answer : Answer) : Prop :=
  if AsksForReading message then
    ∃ rec, answer = ⟨pldmCcSuccess, rec.bytes⟩ ∧
      Current (message.getD 3 0) (lastStored (cacheEvents pre) (message.getD 3 0)) rec
  else
    ∃ room, answer = answerTo sensorMgrInit room message ∧
      (IsUpdateRequest message → (fwEvents pre).getLast? =
        some (.flashSent (updateCmdOf message) (if room then .ok else .full)))

/-- A frame that is sent answers the message that was reassembled last. -/
def AnswersLast (pre : List FineEvent) : FineEvent → Prop
  | .fw (.transmit bytes _) =>
    ∃ message answer, lastCompleted (fwEvents pre) = some message ∧ 3 ≤ message.length ∧
      bytes.drop 4 = answerBytes message answer ∧ AnswerGiven pre message answer
  | _ => True

end NicObFw
