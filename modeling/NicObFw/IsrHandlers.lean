import NicObFw.CommonTypes

/-!
# ISR handlers

The interrupt service routines of `isr_handlers.c`. `bmc_i2c_rx_isr` clamps a write to the SMBus block
size, copies it and posts it to the BMC receive queue; its automatic object `msg` is uninitialised, so
the contents of `msg.data` are a parameter. `nic_alert_isr` posts an event to the NIC event queue.
-/

namespace NicObFw

open Memory

/-- An I2C write of the BMC, as the driver hands it to the callback: a buffer and its `uint16_t`
length. -/
structure I2cWrite where
  data : List UInt8
  length_lt : data.length < 65536
deriving DecidableEq

def I2cWrite.length (w : I2cWrite) : UInt16 := UInt16.ofNat w.data.length

/-- `msg.data[i] = data[i]`, with the accesses made so far. -/
def isrCopyByte (w : I2cWrite) (s : Vector UInt8 smbMaxBlockSize × List RxAccess) (i : ℕ) :
    Vector UInt8 smbMaxBlockSize × List RxAccess :=
  (store s.1 i [w.data.getD i 0], s.2 ++ [⟨.isrData w.data.length, i, 1⟩, ⟨.msgData, i, 1⟩])

/-- The body of the unrolled copy loop. -/
def isrCopy4 (w : I2cWrite) (s : Vector UInt8 smbMaxBlockSize × List RxAccess) (i : ℕ) :
    Vector UInt8 smbMaxBlockSize × List RxAccess :=
  isrCopyByte w (isrCopyByte w (isrCopyByte w (isrCopyByte w s i) (i + 1)) (i + 2)) (i + 3)

/-- The message that `bmc_i2c_rx_isr` builds, and the accesses of its two copy loops. -/
def bmcI2cRxMsg (msgData : Vector UInt8 smbMaxBlockSize) (w : I2cWrite) :
    BmcRxMsg × List RxAccess :=
  let length : UInt16 := if w.length > 32 then 32 else w.length
  let copy4 := (length &&& ~~~3).toNat
  -- `for (i = 0; i < copy4; i += 4)`, then `for (; i < msg.length; i++)`
  let s := (List.range' 0 (copy4 / 4) 4).foldl (isrCopy4 w) (msgData, [])
  let s := (List.range' copy4 (length.toNat - copy4)).foldl (isrCopyByte w) s
  ({ data := s.1, length, reserved := 0 }, s.2)

/-- `bmc_i2c_rx_isr`: the result of the post is not looked at, so a write that meets a full queue is
dropped. -/
def bmcI2cRxIsr (sBmcRxQueue : Option (FreeRtos.Queue BmcRxMsg queueDepthBmc))
    (msgData : Vector UInt8 smbMaxBlockSize) (w : I2cWrite) :
    Option (FreeRtos.Queue BmcRxMsg queueDepthBmc) × List RxAccess :=
  match sBmcRxQueue with
  | none => (none, [])
  | some queue =>
    let (msg, accesses) := bmcI2cRxMsg msgData w
    (some (rtosQueueSendFromIsr queue msg).2, accesses)

/-- The event that `nic_alert_isr` posts. -/
def nicAlertEvent : NicEventMsg where
  eventType := nicEventHwError
  eventData := 0
  timestampMs := 0

/-- A post to the NIC event queue in interrupt context; the result is not looked at. -/
def nicEventPost (sNicEventQueue : Option (FreeRtos.Queue NicEventMsg queueDepthNicGen))
    (evt : NicEventMsg) : Option (FreeRtos.Queue NicEventMsg queueDepthNicGen) :=
  sNicEventQueue.map fun queue => (rtosQueueSendFromIsr queue evt).2

/-- `nic_alert_isr`. -/
def nicAlertIsr (sNicEventQueue : Option (FreeRtos.Queue NicEventMsg queueDepthNicGen)) :
    Option (FreeRtos.Queue NicEventMsg queueDepthNicGen) :=
  nicEventPost sNicEventQueue nicAlertEvent

end NicObFw
