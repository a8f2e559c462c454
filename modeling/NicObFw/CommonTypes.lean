import NicObFw.RtosHal
import NicObFw.Lib.Memory

/-!
# Shared types

The constants and data structures of `common_types.h`. Array members are vectors of the declared
length; integer members have the declared width.
-/

namespace NicObFw

/-! ## System-wide constants -/

@[simp] abbrev maxSensors : ℕ := 16
@[simp] abbrev mctpMaxPayload : ℕ := 64
@[simp] abbrev pldmMaxPayload : ℕ := 256
@[simp] abbrev smbMaxBlockSize : ℕ := 32
@[simp] abbrev flashPageSize : ℕ := 256
@[simp] abbrev flashSectorSize : ℕ := 4096

@[simp] abbrev queueDepthBmc : ℕ := 8
@[simp] abbrev queueDepthNicGen : ℕ := 4
@[simp] abbrev queueDepthSensor : ℕ := 4
@[simp] abbrev queueDepthFlash : ℕ := 2

/-! ## Message type enumerations -/

def msgTypeLiveness : UInt8 := 8

def nicEventHwError : UInt8 := 0

def flashCmdUpdateStart : UInt8 := 0
def flashCmdUpdateAbort : UInt8 := 1

/-! ## Little-endian layout -/

/-- The bytes of a 16-bit member in memory. -/
def bytesOf16 (x : UInt16) : List UInt8 := [x.toUInt8, (x >>> 8).toUInt8]

/-- The bytes of a 32-bit member in memory. -/
def bytesOf32 (x : UInt32) : List UInt8 :=
  [x.toUInt8, (x >>> 8).toUInt8, (x >>> 16).toUInt8, (x >>> 24).toUInt8]

/-- The 32-bit member whose bytes in memory are given. -/
def uint32Of (b0 b1 b2 b3 : UInt8) : UInt32 :=
  b0.toUInt32 ||| (b1.toUInt32 <<< 8) ||| (b2.toUInt32 <<< 16) ||| (b3.toUInt32 <<< 24)

/-! ## Core data structures -/

/-- Sensor record: cached sensor data. -/
structure SensorRecord where
  sensorId : UInt16
  sensorType : UInt8
  state : UInt8
  rawValue : Int16
  scaledValue : Int16
  unit : UInt8
  reserved : Vector UInt8 3
  timestampMs : UInt32
deriving DecidableEq, Repr

/-- The `sizeof(sensor_record_t)` bytes of a record in memory. -/
def SensorRecord.bytes (rec : SensorRecord) : List UInt8 :=
  bytesOf16 rec.sensorId ++ [rec.sensorType, rec.state] ++ bytesOf16 rec.rawValue.toUInt16 ++
    bytesOf16 rec.scaledValue.toUInt16 ++ [rec.unit] ++ rec.reserved.toList ++
    bytesOf32 rec.timestampMs

/-- Sensor cache table. -/
structure SensorCache where
  records : Vector SensorRecord maxSensors
  count : UInt8
deriving DecidableEq, Repr

/-- Flash manager command, posted from the BMC Manager to the Flash Manager queue. -/
structure FlashCmd where
  cmdType : UInt8
  targetPartition : UInt8
  reserved : UInt16
  imageOffset : UInt32
  imageSize : UInt32
deriving DecidableEq, Repr

/-- NIC General manager message, posted from the NIC ASIC ISR. -/
structure NicEventMsg where
  eventType : UInt8
  eventData : UInt32
  timestampMs : UInt32
deriving DecidableEq, Repr

/-- BMC receive queue message: raw bytes from the I2C ISR. -/
structure BmcRxMsg where
  data : Vector UInt8 smbMaxBlockSize
  length : UInt16
  reserved : UInt16
deriving DecidableEq, Repr

/-- MCTP packet structure. -/
structure MctpPacket where
  hdrVersion : UInt8
  destEid : UInt8
  srcEid : UInt8
  /-- SOM | EOM | seq_num | tag -/
  flagsSeq : UInt8
  payloadLen : UInt16
  reserved : UInt16
  payload : Vector UInt8 mctpMaxPayload
deriving DecidableEq, Repr

/-- PLDM message structure. -/
structure PldmMsg where
  instanceId : UInt8
  /-- 2 = sensor, 5 = fw_update -/
  pldmType : UInt8
  command : UInt8
  completionCode : UInt8
  payloadLen : UInt16
  reserved : UInt16
  payload : Vector UInt8 pldmMaxPayload
deriving DecidableEq, Repr

/-! ## The arrays of the receive path -/

/-- The arrays that the receive path reads and writes. -/
inductive RxArray where
  /-- The buffer of `length` bytes that the I2C driver hands to the ISR. -/
  | isrData (length : ℕ)
  /-- `msg.data` in the ISR. -/
  | msgData
  /-- `raw->data`. -/
  | rawData
  /-- `s_reasm_buf`. -/
  | reasmBuf
  /-- `payload` of an `mctp_packet_t`. -/
  | pktPayload
  /-- `payload` of a `pldm_msg_t`. -/
  | pldmPayload
deriving DecidableEq, Repr

/-- The number of elements of each array. -/
def RxArray.size : RxArray → ℕ
  | isrData length => length
  | msgData => smbMaxBlockSize
  | rawData => smbMaxBlockSize
  | reasmBuf => pldmMaxPayload
  | pktPayload => mctpMaxPayload
  | pldmPayload => pldmMaxPayload

/-- An array access of the receive path. -/
abbrev RxAccess := Memory.Access RxArray

/-! ## The arrays of the transmit path -/

/-- The arrays that the transmit path reads and writes. -/
inductive TxArray where
  /-- The response data of the given length. -/
  | respData (length : ℕ)
  /-- `mctp_resp.payload`. -/
  | mctpPayload
  /-- `tx_buf`. -/
  | txBuf
deriving DecidableEq, Repr

/-- The number of elements of each array. -/
def TxArray.size : TxArray → ℕ
  | respData length => length
  | mctpPayload => mctpMaxPayload
  | txBuf => smbMaxBlockSize

/-- An array access of the transmit path. -/
abbrev TxAccess := Memory.Access TxArray

end NicObFw
