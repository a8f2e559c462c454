import NicObFw.IsrHandlers
import NicObFw.ProtocolHdlr

/-!
# The receive path

An I2C write of the BMC on its way through `bmc_i2c_rx_isr` and `protocol_hdlr_process_rx`, and runs
of such writes from the state left by `protocol_hdlr_init`.
-/

namespace NicObFw

open Memory

/-- A write, with the indeterminate contents of the automatic objects `msg.data`, `mctp_pkt` and
`pldm` it meets on its way. -/
structure RxInput where
  write : I2cWrite
  msgData : Vector UInt8 smbMaxBlockSize
  mctpPkt : MctpPacket
  pldm : PldmMsg

/-- One write through the ISR and the protocol handler. -/
def receiveWrite (st : MctpState) (i : RxInput) : ProtocolRx :=
  let (raw, isrAccesses) := bmcI2cRxMsg i.msgData i.write
  let rx := protocolHdlrProcessRx st raw i.mctpPkt i.pldm
  { rx with accesses := isrAccesses ++ rx.accesses }

/-- The reassembly state after a sequence of writes. -/
def receiveState (st : MctpState) (inputs : List RxInput) : MctpState :=
  inputs.foldl (fun st i => (receiveWrite st i).st) st

/-- All array accesses made for a sequence of writes. -/
def receiveAccesses (st : MctpState) : List RxInput → List RxAccess
  | [] => []
  | i :: inputs =>
    (receiveWrite st i).accesses ++ receiveAccesses (receiveWrite st i).st inputs

/-- The bytes of the MCTP message that a parsed PLDM message holds. -/
def PldmMsg.messageBytes (msg : PldmMsg) : List UInt8 :=
  [msg.instanceId, msg.pldmType, msg.command] ++ load msg.payload 0 msg.payloadLen.toNat

end NicObFw
