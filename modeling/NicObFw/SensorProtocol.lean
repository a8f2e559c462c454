import NicObFw.CommonTypes

/-!
# Sensor protocol

`sensor_protocol.c`: the addresses of the sensors, and the read of one raw value. The I2C transfer below
it can return anything, and is a parameter.
-/

namespace NicObFw

def sensorTypeTemp : UInt8 := 0

/-- `sensor_hw_map_t`. -/
structure SensorHwMap where
  i2cAddr : UInt8
  regAddr : UInt8
  sensorType : UInt8
deriving DecidableEq, Repr

/-- The address table; entries without an initialiser are zero. -/
def sSensorMap : Vector SensorHwMap maxSensors :=
  ((Vector.replicate _ ⟨0, 0, 0⟩).setIfInBounds 0 ⟨0x48, 0x00, sensorTypeTemp⟩).setIfInBounds 1
    ⟨0x49, 0x00, sensorTypeTemp⟩

/-- A call of `sensor_hal_read_reg` for two bytes, by device and register address: the bytes, or `none`
for an error code. -/
abbrev SensorHal := UInt8 → UInt8 → Option (UInt8 × UInt8)

/-- `sensor_protocol_read`: `none` for an error code, which it is for an id outside the table. The value is
big-endian. -/
def sensorProtocolRead (sensorHalReadReg : SensorHal) (sensorId : UInt8) : Option Int16 :=
  match sSensorMap[sensorId.toNat]? with
  | none => none
  | some map =>
    (sensorHalReadReg map.i2cAddr map.regAddr).map fun raw =>
      ((raw.1.toUInt16 <<< (8 : UInt16)) ||| raw.2.toUInt16).toInt16

end NicObFw
