import NicObFw.RtosHal
import NicObFw.SensorMgr
import NicObFw.Lib.Machine

/-!
# The threads around the sensor cache

`poll_all_sensors` in the sensor thread, and any number of threads that call `sensor_mgr_get_cached` and
`sensor_mgr_get_cache_snapshot`. They share `s_cache`, and `s_cache_mutex` that protects it. A record is
written field by field; every write is a step, and so is every operation on the mutex.
-/

namespace NicObFw

/-- A reading on its way into the cache. -/
structure Reading where
  sensorId : UInt8
  raw : Int16
  scaled : Int16
deriving DecidableEq, Repr

/-- Where `poll_all_sensors` is in the block that stores a reading. -/
inductive StoreStep where
  /-- At `rtos_mutex_take`. -/
  | take
  /-- At the assignment to this field. -/
  | rawValue
  | scaledValue
  | state
  | timestampMs
  /-- At `rtos_mutex_give`. -/
  | give
deriving DecidableEq, Repr

/-- Where the sensor thread is. -/
inductive SensorTaskPhase where
  /-- Waiting for the poll trigger. -/
  | idle
  /-- In `poll_all_sensors`, with these sensors left to read. -/
  | poll (todo : List UInt8)
  | store (step : StoreStep) (reading : Reading) (todo : List UInt8)
  /-- Behind undefined behaviour. -/
  | fault
deriving DecidableEq, Repr

/-- Where a call is in its section under the mutex. -/
inductive ReadStep where
  | take
  | copy
  | give
deriving DecidableEq, Repr

/-- What a thread that reads the cache is doing. -/
inductive ReaderPhase where
  | idle
  | getCached (step : ReadStep) (sensorId : UInt8) (recordOut : SensorRecord)
  | getCacheSnapshot (step : ReadStep) (snapshotOut : SensorCache)
  | fault
deriving DecidableEq, Repr

/-- The threads that take `s_cache_mutex`. -/
inductive CacheThread (ι : Type) where
  | sensorMgr
  | reader (i : ι)
deriving DecidableEq

/-- The static variables of `sensor_mgr.c`, the threads and the clock. -/
structure SensorThreads (ι : Type) where
  sCache : SensorCache
  sCacheMutex : FreeRtos.Mutex (CacheThread ι)
  task : SensorTaskPhase
  reader : ι → ReaderPhase
  ticks : ℕ

inductive SensorAction (ι : Type) where
  /-- A step of the sensor thread; a read of a sensor in it goes through this HAL. -/
  | sensorMgrTask (hal : SensorHal)
  /-- A reader calls `sensor_mgr_get_cached`. -/
  | getCached (i : ι) (sensorId : UInt8) (recordOut : SensorRecord)
  /-- A reader calls `sensor_mgr_get_cache_snapshot`. -/
  | getCacheSnapshot (i : ι) (snapshotOut : SensorCache)
  /-- The next step in the call of a reader. -/
  | readerStep (i : ι)
  | clock (ticks : ℕ)

inductive SensorEvent (ι : Type) where
  | pollStarted
  /-- `sensor_protocol_read` returned this value, or an error. -/
  | read (sensorId : UInt8) (result : Option Int16)
  /-- The last field of a record was written, at this time. -/
  | stored (sensorId : UInt8) (raw : Int16) (tickMs : UInt32)
  | pollFinished
  /-- `sensor_mgr_get_cached` returned `RTOS_OK`, with this record. -/
  | gotCached (i : ι) (sensorId : UInt8) (recordOut : SensorRecord)
  /-- `sensor_mgr_get_cached` returned `RTOS_ERR_FAIL`; the record before and after the call. -/
  | getCachedFailed (i : ι) (sensorId : UInt8) (before after : SensorRecord)
  | gotCacheSnapshot (i : ι) (snapshotOut : SensorCache)
  | fault (f : SensorFault)
deriving DecidableEq

variable {ι : Type} [DecidableEq ι]

namespace SensorThreads

/-- The sensor thread runs into undefined behaviour. -/
def taskFault (s : SensorThreads ι) (f : SensorFault) : SensorThreads ι × List (SensorEvent ι) :=
  ({ s with task := .fault }, [.fault f])

/-- The sensor thread writes to the record of `reading`, and goes on to `step`. -/
def write (s : SensorThreads ι) (reading : Reading) (todo : List UInt8)
    (f : SensorRecord → SensorRecord) (step : StoreStep) (evs : List (SensorEvent ι)) :
    SensorThreads ι × List (SensorEvent ι) :=
  match s.sCache.modify reading.sensorId f with
  | .ok sCache => ({ s with sCache, task := .store step reading todo }, evs)
  | .error fault => s.taskFault fault

/-- A reader goes to the next point of its call. -/
def setReader (s : SensorThreads ι) (i : ι) (phase : ReaderPhase) : SensorThreads ι :=
  { s with reader := Function.update s.reader i phase }

end SensorThreads

/-- The block that stores a reading. -/
def storeReading (cfg : TickConfig) (s : SensorThreads ι) (step : StoreStep) (reading : Reading)
    (todo : List UInt8) : Option (SensorThreads ι × List (SensorEvent ι)) :=
  match step with
  | .take =>
    (s.sCacheMutex.take .sensorMgr).map fun sCacheMutex =>
      ({ s with sCacheMutex, task := .store .rawValue reading todo }, [])
  | .rawValue =>
    some (s.write reading todo (fun rec => { rec with rawValue := reading.raw }) .scaledValue [])
  | .scaledValue =>
    some (s.write reading todo (fun rec => { rec with scaledValue := reading.scaled }) .state [])
  | .state =>
    match checkThresholds reading.sensorId reading.scaled with
    | .ok state => some (s.write reading todo (fun rec => { rec with state }) .timestampMs [])
    | .error fault => some (s.taskFault fault)
  | .timestampMs =>
    let timestampMs := rtosGetTickMs cfg s.ticks
    some (s.write reading todo (fun rec => { rec with timestampMs }) .give
      [.stored reading.sensorId reading.raw timestampMs])
  | .give => some ({ s with sCacheMutex := s.sCacheMutex.give, task := .poll todo }, [])

/-- The next step of `sensor_mgr_task`, as far as polling is concerned; `none` while it is blocked. -/
def sensorMgrTask (cfg : TickConfig) (s : SensorThreads ι) (hal : SensorHal) :
    Option (SensorThreads ι × List (SensorEvent ι)) :=
  match s.task with
  | .idle => some ({ s with task := .poll (pollOrder s.sCache.count) }, [.pollStarted])
  | .poll [] => some ({ s with task := .idle }, [.pollFinished])
  | .poll (sensorId :: todo) =>
    match sensorProtocolRead hal sensorId with
    | none => some ({ s with task := .poll todo }, [.read sensorId none])
    | some raw =>
      match applyCalibration sensorId raw with
      | .ok scaled =>
        some ({ s with task := .store .take ⟨sensorId, raw, scaled⟩ todo }, [.read sensorId (some raw)])
      | .error fault => some (s.taskFault fault)
  | .store step reading todo => storeReading cfg s step reading todo
  | .fault => none

/-- The next step in the call of a reader; `none` while it is blocked or has no call open. -/
def readerStep (s : SensorThreads ι) (i : ι) : Option (SensorThreads ι × List (SensorEvent ι)) :=
  match s.reader i with
  | .idle => none
  | .getCached .take sensorId recordOut =>
    (s.sCacheMutex.take (.reader i)).map fun sCacheMutex =>
      ({ s.setReader i (.getCached .copy sensorId recordOut) with sCacheMutex }, [])
  | .getCached .copy sensorId _ =>
    match s.sCache.records[sensorId.toNat]? with
    | some rec => some (s.setReader i (.getCached .give sensorId rec), [])
    | none => some (s.setReader i .fault, [.fault .index])
  | .getCached .give sensorId recordOut =>
    some ({ s.setReader i .idle with sCacheMutex := s.sCacheMutex.give },
      [.gotCached i sensorId recordOut])
  | .getCacheSnapshot .take snapshotOut =>
    (s.sCacheMutex.take (.reader i)).map fun sCacheMutex =>
      ({ s.setReader i (.getCacheSnapshot .copy snapshotOut) with sCacheMutex }, [])
  | .getCacheSnapshot .copy _ => some (s.setReader i (.getCacheSnapshot .give s.sCache), [])
  | .getCacheSnapshot .give snapshotOut =>
    some ({ s.setReader i .idle with sCacheMutex := s.sCacheMutex.give },
      [.gotCacheSnapshot i snapshotOut])
  | .fault => none

/-- The steps of all threads. -/
def sensorThreads (ι : Type) [DecidableEq ι] (cfg : TickConfig) :
    Machine (SensorThreads ι) (SensorAction ι) (SensorEvent ι) where
  step s
    | .sensorMgrTask hal => sensorMgrTask cfg s hal
    | .getCached i sensorId recordOut =>
      if s.reader i = .idle then
        if sensorId ≥ s.sCache.count then
          some (s, [.getCachedFailed i sensorId recordOut recordOut])
        else some (s.setReader i (.getCached .take sensorId recordOut), [])
      else none
    | .getCacheSnapshot i snapshotOut =>
      if s.reader i = .idle then some (s.setReader i (.getCacheSnapshot .take snapshotOut), [])
      else none
    | .readerStep i => readerStep s i
    | .clock ticks => some ({ s with ticks := s.ticks + ticks }, [])

/-- The state that `sensor_mgr_init` leaves. -/
def sensorThreadsInit (ι : Type) (ticks : ℕ) : SensorThreads ι where
  sCache := sensorMgrInit
  sCacheMutex := .create
  task := .idle
  reader := fun _ => .idle
  ticks := ticks

/-! ## What the cache should show -/

/-- The values and times of the readings of a sensor that were stored. -/
def storedReadings (tr : List (SensorEvent ι)) (sensorId : UInt8) : List (Int16 × UInt32) :=
  tr.filterMap fun
    | .stored id raw tickMs => if id = sensorId then some (raw, tickMs) else none
    | _ => none

/-- The reading that was stored last. -/
def lastStored (tr : List (SensorEvent ι)) (sensorId : UInt8) : Option (Int16 × UInt32) :=
  (storedReadings tr sensorId).getLast?

/-- The record of a sensor after its last reading: all zero if there was none, otherwise the value, what
calibration and thresholds make of it, and the time. -/
def Current (sensorId : UInt8) (last : Option (Int16 × UInt32)) (rec : SensorRecord) : Prop :=
  match last with
  | none => rec = ⟨0, 0, 0, 0, 0, 0, Vector.replicate _ 0, 0⟩
  | some (raw, tickMs) =>
    rec.rawValue = raw ∧ applyCalibration sensorId raw = .ok rec.scaledValue ∧
      checkThresholds sensorId rec.scaledValue = .ok rec.state ∧ rec.timestampMs = tickMs

/-- The cache after the trace `tr`: the count is that of `sensor_mgr_init`, the records of the sensors
below it are current, and the others are all zero. -/
def CacheCurrent (sCache : SensorCache) (tr : List (SensorEvent ι)) : Prop :=
  sCache.count = sensorMgrInit.count ∧
    ∀ sensorId rec, sCache.records[sensorId.toNat]? = some rec →
      if sensorId < sCache.count then Current sensorId (lastStored tr sensorId) rec
      else Current sensorId none rec

/-- What the readers get is current when they get it. A call for an id that is not below the count fails
and leaves `record_out` alone; no other call fails. -/
def ReturnsCurrent (pre : List (SensorEvent ι)) : SensorEvent ι → Prop
  | .gotCached _ sensorId recordOut =>
    sensorId < sensorMgrInit.count ∧ Current sensorId (lastStored pre sensorId) recordOut
  | .getCachedFailed _ sensorId before after => ¬ sensorId < sensorMgrInit.count ∧ after = before
  | .gotCacheSnapshot _ snapshotOut => CacheCurrent snapshotOut pre
  | _ => True

/-! ## Which sensor a record names -/

/-- The record names the sensor, with the type that the address table gives it. -/
def SensorRecord.Identifies (rec : SensorRecord) (sensorId : UInt8) : Prop :=
  rec.sensorId = sensorId.toUInt16 ∧
    (sSensorMap[sensorId.toNat]?).map SensorHwMap.sensorType = some rec.sensorType

instance (rec : SensorRecord) (sensorId : UInt8) : Decidable (rec.Identifies sensorId) :=
  inferInstanceAs (Decidable (_ ∧ _))

/-- The bytes of a record, as a response carries them, name the sensor and its type. -/
def DataIdentifies (data : List UInt8) (sensorId : UInt8) : Prop :=
  data.take 2 = bytesOf16 sensorId.toUInt16 ∧
    (sSensorMap[sensorId.toNat]?).map SensorHwMap.sensorType = data[2]?

/-! ## What was read -/

/-- The values of the successful reads of a sensor. -/
def successfulReads (tr : List (SensorEvent ι)) (sensorId : UInt8) : List Int16 :=
  tr.filterMap fun
    | .read id (some raw) => if id = sensorId then some raw else none
    | _ => none

/-- The completed polls, each with its reads, and the reads since. -/
def notePoll (s : List (List (UInt8 × Option Int16)) × List (UInt8 × Option Int16)) :
    SensorEvent ι → List (List (UInt8 × Option Int16)) × List (UInt8 × Option Int16)
  | .read sensorId result => (s.1, s.2 ++ [(sensorId, result)])
  | .pollFinished => (s.1 ++ [s.2], [])
  | _ => s

/-- The reads of each completed poll. -/
def completedPolls (tr : List (SensorEvent ι)) : List (List (UInt8 × Option Int16)) :=
  (tr.foldl notePoll ([], [])).1

/-- The last poll that was completed, if one was, read the sensor. -/
def ReadByLastPoll (tr : List (SensorEvent ι)) (sensorId : UInt8) : Prop :=
  ∀ poll ∈ (completedPolls tr).getLast?, ∃ raw, (sensorId, some raw) ∈ poll

/-- After a completed poll, a record that says `SENSOR_STATE_OK` shows the reading of the last one, and a
sensor that this poll did not read, if a record is returned for it at all, is shown as failed or
unavailable. -/
def OkMeansRead (s : SensorThreads ι) (tr : List (SensorEvent ι)) (sensorId : UInt8) : Prop :=
  ∀ poll ∈ (completedPolls tr).getLast?, ∀ rec ∈ sensorMgrGetCached s.sCache sensorId,
    (rec.state = sensorStateOk →
      ∃ raw, (sensorId, some raw) ∈ poll ∧ rec.rawValue = raw ∧
        applyCalibration sensorId raw = .ok rec.scaledValue) ∧
    ((¬ ∃ raw, (sensorId, some raw) ∈ poll) →
      rec.state = sensorStateFailed ∨ rec.state = sensorStateUnavailable)

end NicObFw
