import Mathlib.Data.Int.Notation
import NicObFw.SensorProtocol

/-!
# Sensor Manager

The cache of sensor records of `sensor_mgr.c`, as the BMC Manager reads it, and how a record is made from
a raw value. An index outside a table, a product that does not fit and a division by zero are undefined in
the source; here they are faults.
-/

namespace NicObFw

/-! ## The cache -/

/-- The cache after `sensor_mgr_init`. -/
def sensorMgrInit : SensorCache where
  records := Vector.replicate _ ⟨0, 0, 0, 0, 0, 0, Vector.replicate _ 0, 0⟩
  count := 2

/-- `sensor_mgr_get_cached`: `none` for `RTOS_ERR_FAIL`. -/
def sensorMgrGetCached (sCache : SensorCache) (sensorId : UInt8) : Option SensorRecord :=
  if sensorId ≥ sCache.count then none
  else sCache.records[sensorId.toNat]?

/-- `s_cache` with a record stored for a sensor. -/
def sensorCacheStore (sCache : SensorCache) (sensorId : Fin maxSensors) (rec : SensorRecord) :
    SensorCache :=
  { sCache with records := sCache.records.set sensorId rec }

/-! ## Calibration -/

def sensorStateOk : UInt8 := 0
def sensorStateCritical : UInt8 := 2
def sensorStateFailed : UInt8 := 3
def sensorStateUnavailable : UInt8 := 4

/-- What the source must not do. -/
inductive SensorFault where
  | index
  | overflow
  | divByZero
deriving DecidableEq, Repr

/-- `sensor_cal_t`. -/
structure SensorCal where
  offset : Int16
  /-- scaled = (raw + offset) * num / den -/
  scaleNum : UInt16
  scaleDen : UInt16
  upperCritical : Int16
  lowerCritical : Int16
deriving DecidableEq, Repr

/-- The calibration table; entries without an initialiser are zero. -/
def sCalibration : Vector SensorCal maxSensors :=
  ((Vector.replicate _ ⟨0, 0, 0, 0, 0⟩).setIfInBounds 0 ⟨0, 1, 16, 85, -40⟩).setIfInBounds 1
    ⟨0, 1, 16, 85, -40⟩

/-- `&s_calibration[sensor_id]`. -/
def calibrationOf (sensorId : UInt8) : Except SensorFault SensorCal :=
  match sCalibration[sensorId.toNat]? with
  | some cal => .ok cal
  | none => .error .index

/-- A value that fits in an `int`. -/
def FitsInt (x : ℤ) : Prop := -0x80000000 ≤ x ∧ x ≤ 0x7FFFFFFF

instance (x : ℤ) : Decidable (FitsInt x) := inferInstanceAs (Decidable (_ ∧ _))

namespace SensorCal

/-- The body of `apply_calibration`, for the record `cal`. The factors of the product are promoted to
`int`, and so is the divisor; the cast to `int16_t` keeps the low 16 bits. -/
def applyCalibration (cal : SensorCal) (raw : Int16) : Except SensorFault Int16 := do
  let adjusted : Int32 := raw.toInt32 + cal.offset.toInt32
  if ¬ FitsInt (adjusted.toInt * cal.scaleNum.toNat) then throw .overflow
  if cal.scaleDen = 0 then throw .divByZero
  return ((adjusted * cal.scaleNum.toUInt32.toInt32) / cal.scaleDen.toUInt32.toInt32).toInt16

/-- The body of `check_thresholds`, for the record `cal`. -/
def checkThresholds (cal : SensorCal) (scaled : Int16) : UInt8 :=
  if scaled ≥ cal.upperCritical ∨ scaled ≤ cal.lowerCritical then sensorStateCritical
  else sensorStateOk

/-- `(raw + offset) * scale_num`, without width limits. -/
def product (cal : SensorCal) (raw : Int16) : ℤ := (raw.toInt + cal.offset.toInt) * cal.scaleNum.toNat

/-- `(raw + offset) * scale_num / scale_den`, without width limits and truncated toward zero. -/
def quotient (cal : SensorCal) (raw : Int16) : ℤ := (cal.product raw).tdiv cal.scaleDen.toNat

/-- The raw value is at or beyond a limit. -/
def OverLimit (cal : SensorCal) (raw : Int16) : Prop :=
  cal.upperCritical.toInt ≤ cal.quotient raw ∨ cal.quotient raw ≤ cal.lowerCritical.toInt

instance (cal : SensorCal) (raw : Int16) : Decidable (cal.OverLimit raw) :=
  inferInstanceAs (Decidable (_ ∨ _))

end SensorCal

/-- `apply_calibration`. -/
def applyCalibration (sensorId : UInt8) (raw : Int16) : Except SensorFault Int16 := do
  let cal ← calibrationOf sensorId
  cal.applyCalibration raw

/-- `check_thresholds`. -/
def checkThresholds (sensorId : UInt8) (scaled : Int16) : Except SensorFault UInt8 := do
  let cal ← calibrationOf sensorId
  return cal.checkThresholds scaled

/-- The order in which `poll_all_sensors` reads the sensors: the unrolled loop takes four at a time, the
second one those that remain. -/
def pollOrder (count : UInt8) : List UInt8 :=
  let unrolled := (count &&& ~~~3).toNat
  -- `for (i = 0; i < unrolled; i += 4)`, then `for (; i < count; i++)`
  let ids := ((List.range' 0 (unrolled / 4) 4).flatMap fun i => [i, i + 1, i + 2, i + 3]) ++
    List.range' unrolled (count.toNat - unrolled)
  ids.map UInt8.ofNat

/-- `s_cache.records[sensor_id]` changed by `f`. -/
def SensorCache.modify (sCache : SensorCache) (sensorId : UInt8) (f : SensorRecord → SensorRecord) :
    Except SensorFault SensorCache :=
  match sCache.records[sensorId.toNat]? with
  | some rec => .ok { sCache with records := sCache.records.setIfInBounds sensorId.toNat (f rec) }
  | none => .error .index

end NicObFw
