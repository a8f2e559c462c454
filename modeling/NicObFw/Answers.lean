import NicObFw.BmcMgr
import NicObFw.ReceivePath

/-!
# Answers to the BMC

What the BMC is owed for a request, in terms of the bytes of the MCTP message it sent: the instance
id, the type, the command and the rest. This is a description of the purpose of `dispatch_pldm`, not a
translation of it.
-/

namespace NicObFw

/-- The PLDM message is a `REQUEST_UPDATE`. -/
def PldmMsg.RequestsUpdate (msg : PldmMsg) : Prop :=
  msg.pldmType = pldmTypeFwUpdate ∧ msg.command = pldmCmdRequestUpdate

instance (msg : PldmMsg) : Decidable msg.RequestsUpdate := inferInstanceAs (Decidable (_ ∧ _))

/-- A completion code, and the data that come with it. -/
structure Answer where
  completionCode : UInt8
  data : List UInt8
deriving DecidableEq, Repr

/-- The answer to a `GET_SENSOR_READING` for the sensor `sensorId`. -/
def sensorAnswer (sCache : SensorCache) (sensorId : UInt8) : Answer :=
  if sensorId < sCache.count then
    ⟨pldmCcSuccess, (sCache.records.toList[sensorId.toNat]?).elim [] SensorRecord.bytes⟩
  else ⟨pldmCcError, []⟩

/-- The answer to the MCTP message `message` when the cache is `sCache` and the flash queue has room
for a command or not. -/
def answerTo (sCache : SensorCache) (room : Bool) (message : List UInt8) : Answer :=
  let pldmType := message.getD 1 0
  let command := message.getD 2 0
  if pldmType = pldmTypeSensorMonitoring ∧ command = pldmCmdGetSensorReading then
    sensorAnswer sCache (message.getD 3 0)
  else if pldmType = pldmTypeFwUpdate ∧ command = pldmCmdRequestUpdate then
    ⟨if room then pldmCcSuccess else pldmCcError, []⟩
  else ⟨pldmCcInvalidCmd, []⟩

/-- The bytes that a frame carries after its MCTP header: the first three bytes of the request, and
the answer to it. -/
def answerBytes (message : List UInt8) (answer : Answer) : List UInt8 :=
  message.take 3 ++ answer.completionCode :: answer.data

/-- The flash queue has room for a command. -/
def hasRoom (sFlashCmdQueue : FreeRtos.Queue FlashCmd queueDepthFlash) : Bool :=
  sFlashCmdQueue.items.length < queueDepthFlash

/-- The frames handed to `bmc_hal_transmit`. -/
def framesSent (tr : List FwEvent) : List (List UInt8) :=
  tr.filterMap fun
    | .transmit bytes _ => some bytes
    | _ => none

/-- What the BMC is owed for a step from the state `fw`: an answer to every message of at least three
bytes that the step has completed. -/
def answersDue (fw : Firmware) (_ : FwAction) (evs : List FwEvent) : List (List UInt8) :=
  evs.filterMap fun
    | .mctpComplete _ message =>
      if 3 ≤ message.length then some (answerBytes message (answerTo fw.sCache (hasRoom fw.sFlashCmdQueue) message))
      else none
    | _ => none

/-- The first bytes of the frames that a step sends: they are those of the uninitialised `mctp_resp`. -/
def responseHeader : FwAction → List UInt8
  | .bmcMgrTask locals =>
    let mctpResp := locals.send.mctpResp
    [mctpResp.hdrVersion, mctpResp.destEid, mctpResp.srcEid]
  | _ => []

/-- The responses to a step: for each answer that is due the header it goes out with, and its bytes. -/
def responsesDue (fw : Firmware) (a : FwAction) (evs : List FwEvent) :
    List (List UInt8 × List UInt8) :=
  (answersDue fw a evs).map fun bytes => (responseHeader a, bytes)

/-- The commands that the flash queue took. -/
def commandsPosted (tr : List FwEvent) : List FlashCmd :=
  tr.filterMap fun
    | .flashSent cmd .ok => some cmd
    | _ => none

/-- The bytes of an MCTP message ask for an update. -/
def IsUpdateRequest (message : List UInt8) : Prop :=
  message.getD 1 0 = pldmTypeFwUpdate ∧ message.getD 2 0 = pldmCmdRequestUpdate

instance (message : List UInt8) : Decidable (IsUpdateRequest message) :=
  inferInstanceAs (Decidable (_ ∧ _))

/-- The command that an update request asks for: two numbers, if it is long enough to hold them. -/
def updateCmdOf (message : List UInt8) : FlashCmd :=
  let number := fun i => uint32Of (message.getD i 0) (message.getD (i + 1) 0)
    (message.getD (i + 2) 0) (message.getD (i + 3) 0)
  let (imageOffset, imageSize) := if 11 ≤ message.length then (number 3, number 7) else (0, 0)
  { cmdType := flashCmdUpdateStart, targetPartition := 0, reserved := 0, imageOffset, imageSize }

/-- The commands of the update requests that a step from the state `fw` has completed and that are
answered with `PLDM_CC_SUCCESS`. -/
def commandsAccepted (fw : Firmware) (evs : List FwEvent) : List FlashCmd :=
  evs.filterMap fun
    | .mctpComplete _ message =>
      if IsUpdateRequest message ∧
          answerTo fw.sCache (hasRoom fw.sFlashCmdQueue) message = ⟨pldmCcSuccess, []⟩ then
        some (updateCmdOf message)
      else none
    | _ => none

/-- A step of the task leaves the sensor cache alone. To the flash queue it appends the commands of the
update requests that it accepts, and nothing else. -/
def ChangesOnlyForUpdates (cfg : TickConfig) (fw : Firmware) (_ : List FwEvent) : FwAction → Prop
  | .bmcMgrTask locals =>
    ∀ fw' evs, bmcMgrTask cfg fw locals = some (fw', evs) →
      fw'.sCache = fw.sCache ∧
      fw'.sFlashCmdQueue.items = fw.sFlashCmdQueue.items ++ commandsAccepted fw evs
  | _ => True

end NicObFw
