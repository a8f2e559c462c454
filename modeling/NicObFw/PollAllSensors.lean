import NicObFw.RtosHal
import NicObFw.SensorMgr
import NicObFw.Lib.Memory
import NicObFw.Lib.Traced

/-!
# poll_all_sensors

The function as one call, with its counters in the eight bits that they have in the source, and with every
access to an array. What the sensors answer and what the clock shows is any sequence of answers and of
readings, and the calibration table can be any table. Taking and giving the mutex are events; what the
threads around it do is in `sensorThreads`. Beside the function stands the loop that it is an unrolling
of.
-/

namespace NicObFw

open Traced

/-- What a poll depends on. -/
structure PollEnv where
  sCalibration : Vector SensorCal maxSensors
  cfg : TickConfig
  /-- The HAL behind each call of `sensor_protocol_read`. -/
  hal : ℕ → SensorHal
  /-- The ticks since boot at each call of `rtos_get_tick_ms`. -/
  ticks : ℕ → ℕ

structure PollState where
  sCache : SensorCache
  /-- The calls of `sensor_protocol_read` so far. -/
  reads : ℕ
  /-- The calls of `rtos_get_tick_ms` so far. -/
  clocks : ℕ

/-- The arrays of `MAX_SENSORS` elements. -/
inductive PollArray where
  | sSensorMap
  | sCalibration
  | records
deriving DecidableEq, Repr

inductive PollEvent where
  /-- `sensor_protocol_read` returned this value, or an error. -/
  | read (sensorId : UInt8) (result : Option Int16)
  | access (a : Memory.Access PollArray)
  | mutexTake
  | mutexGive
deriving DecidableEq, Repr

variable (env : PollEnv)

/-! ## The function -/

/-- A call of `sensor_protocol_read`, which looks into the address table behind its check of the id. -/
def pollRead (sensorId : UInt8) : Traced PollState PollEvent SensorFault (Option Int16) := fun s =>
  let result := sensorProtocolRead (env.hal s.reads) sensorId
  let looked : List PollEvent :=
    if sensorId.toNat ≥ maxSensors then [] else [.access ⟨.sSensorMap, sensorId.toNat, 1⟩]
  ⟨.done result, looked ++ [.read sensorId result], { s with reads := s.reads + 1 }⟩

/-- `&s_calibration[sensor_id]`, and what is read there. -/
def pollCalibration (sensorId : UInt8) : Traced PollState PollEvent SensorFault SensorCal := fun s =>
  match env.sCalibration[sensorId.toNat]? with
  | some cal => ⟨.done cal, [.access ⟨.sCalibration, sensorId.toNat, 1⟩], s⟩
  | none => ⟨.error .index, [.access ⟨.sCalibration, sensorId.toNat, 1⟩], s⟩

/-- A call of `apply_calibration`. -/
def pollApplyCalibration (sensorId : UInt8) (raw : Int16) :
    Traced PollState PollEvent SensorFault Int16 := do
  let cal ← pollCalibration env sensorId
  match cal.applyCalibration raw with
  | .ok scaled => pure scaled
  | .error fault => fail fault

/-- A call of `check_thresholds`. -/
def pollCheckThresholds (sensorId : UInt8) (scaled : Int16) :
    Traced PollState PollEvent SensorFault UInt8 := do
  let cal ← pollCalibration env sensorId
  pure (cal.checkThresholds scaled)

/-- A call of `rtos_get_tick_ms`. -/
def pollTickMs : Traced PollState PollEvent SensorFault UInt32 :=
  act fun s => (rtosGetTickMs env.cfg (env.ticks s.clocks), { s with clocks := s.clocks + 1 })

/-- An assignment to a field of `s_cache.records[index]`. -/
def pollWrite (index : ℕ) (f : SensorRecord → SensorRecord) :
    Traced PollState PollEvent SensorFault Unit := fun s =>
  if h : index < maxSensors then
    ⟨.done (), [.access ⟨.records, index, 1⟩],
      { s with sCache := sensorCacheStore s.sCache ⟨index, h⟩ (f s.sCache.records[index]) }⟩
  else ⟨.error .index, [.access ⟨.records, index, 1⟩], s⟩

/-- One of the five copies of the block that reads a sensor. The calls take the index as a `uint8_t`, the
array takes it as an `int`. -/
def pollSensor (index : ℕ) : Traced PollState PollEvent SensorFault Unit := do
  let sensorId := UInt8.ofNat index
  match ← pollRead env sensorId with
  | none => pure ()
  | some raw =>
    let scaled ← pollApplyCalibration env sensorId raw
    emit .mutexTake
    pollWrite index fun rec => { rec with rawValue := raw }
    pollWrite index fun rec => { rec with scaledValue := scaled }
    let state ← pollCheckThresholds env sensorId scaled
    pollWrite index fun rec => { rec with state }
    let timestampMs ← pollTickMs env
    pollWrite index fun rec => { rec with timestampMs }
    emit .mutexGive

/-- `for (i = 0; i < unrolled; i += 4)`, from `i` on: the `i` it leaves. It is given a number of turns. -/
def pollUnrolled (unrolled : UInt8) : ℕ → UInt8 → Traced PollState PollEvent SensorFault UInt8
  | 0, _ => running
  | turns + 1, i =>
    if i < unrolled then do
      pollSensor env i.toNat
      pollSensor env (i.toNat + 1)
      pollSensor env (i.toNat + 2)
      pollSensor env (i.toNat + 3)
      pollUnrolled unrolled turns (i + 4)
    else pure i

/-- `for (; i < count; i++)`, from `i` on. -/
def pollRemaining (count : UInt8) : ℕ → UInt8 → Traced PollState PollEvent SensorFault Unit
  | 0, _ => running
  | turns + 1, i =>
    if i < count then do
      pollSensor env i.toNat
      pollRemaining count turns (i + 1)
    else pure ()

/-- `poll_all_sensors`. -/
def pollAllSensors (turns : ℕ) : Traced PollState PollEvent SensorFault Unit := do
  let count ← act fun s => (s.sCache.count, s)
  -- `count` is promoted, and the result cut to eight bits
  let unrolled := (count.toUInt32 &&& ~~~(3 : UInt32)).toUInt8
  let i ← pollUnrolled env unrolled turns 0
  pollRemaining env count turns i

/-! ## What a poll does -/

/-- The calls of `sensor_protocol_read` and their results. -/
def pollReads (tr : List PollEvent) : List (UInt8 × Option Int16) :=
  tr.filterMap fun
    | .read sensorId result => some (sensorId, result)
    | _ => none

def pollAccesses (tr : List PollEvent) : List (Memory.Access PollArray) :=
  tr.filterMap fun
    | .access a => some a
    | _ => none

/-! ## The plain loop -/

/-- One sensor: on a successful read the raw value, the scaled one, the state and the time are stored;
otherwise nothing changes. -/
def plainSensor (sensorId : UInt8) :
    Traced PollState (UInt8 × Option Int16) SensorFault Unit := fun s =>
  let result := sensorProtocolRead (env.hal s.reads) sensorId
  let s := { s with reads := s.reads + 1 }
  match result with
  | none => ⟨.done (), [(sensorId, none)], s⟩
  | some raw =>
    if h : sensorId.toNat < maxSensors then
      let cal := env.sCalibration[sensorId.toNat]
      match cal.applyCalibration raw with
      | .error fault => ⟨.error fault, [(sensorId, some raw)], s⟩
      | .ok scaled =>
        let stored := { s.sCache.records[sensorId.toNat] with
          rawValue := raw
          scaledValue := scaled
          state := cal.checkThresholds scaled
          timestampMs := rtosGetTickMs env.cfg (env.ticks s.clocks) }
        ⟨.done (), [(sensorId, some raw)],
          { s with
            sCache := sensorCacheStore s.sCache ⟨sensorId.toNat, h⟩ stored
            clocks := s.clocks + 1 }⟩
    else ⟨.error .index, [(sensorId, some raw)], s⟩

def plainLoop : List ℕ → Traced PollState (UInt8 × Option Int16) SensorFault Unit
  | [] => pure ()
  | id :: ids => do
    plainSensor env (UInt8.ofNat id)
    plainLoop ids

/-- The loop over the ids below the count. -/
def plainPoll : Traced PollState (UInt8 × Option Int16) SensorFault Unit := do
  let count ← act fun s => (s.sCache.count, s)
  plainLoop env (List.range count.toNat)

/-! ## Agreement -/

/-- The trace of a poll has these reads, and its accesses are inside the arrays. -/
structure SameReads (tr : List PollEvent) (reads : List (UInt8 × Option Int16)) : Prop where
  reads : pollReads tr = reads
  inBounds : Memory.AllInBounds (fun _ => maxSensors) (pollAccesses tr)

/-- A poll of the cache that is the first to call the sensors and the clock. -/
def pollStart (sCache : SensorCache) : PollState := ⟨sCache, 0, 0⟩

/-- The poll has come to its end, has read every sensor below the count once and in order, has left the
cache as the plain loop does, and has not indexed an array at or beyond `MAX_SENSORS`. -/
structure PollsAll (sCache : SensorCache) (o : Outcome PollState PollEvent SensorFault Unit) : Prop where
  done : o.ret = .done ()
  reads : (pollReads o.trace).map Prod.fst = (List.range sCache.count.toNat).map UInt8.ofNat
  cache : o.world.sCache = (plainPoll env (pollStart sCache)).world.sCache
  inBounds : Memory.AllInBounds (fun _ => maxSensors) (pollAccesses o.trace)

/-- No sensor below the count returns a raw value for which the product of its calibration overflows. -/
def ProductsFit (sCache : SensorCache) : Prop :=
  ∀ id, id < sCache.count.toNat → ∀ raw ∈ sensorProtocolRead (env.hal id) (UInt8.ofNat id),
    ∀ cal ∈ env.sCalibration[id]?, FitsInt (cal.product raw)

instance (sCache : SensorCache) : Decidable (ProductsFit env sCache) :=
  inferInstanceAs (Decidable (∀ id, id < _ → _))

/-- Every calibration that the count reaches has a divisor. -/
def Divides (sCache : SensorCache) : Prop :=
  ∀ id, id < min sCache.count.toNat maxSensors → ∀ cal ∈ env.sCalibration[id]?, cal.scaleDen ≠ 0

instance (sCache : SensorCache) : Decidable (Divides env sCache) :=
  inferInstanceAs (Decidable (∀ id, id < _ → _))

end NicObFw
