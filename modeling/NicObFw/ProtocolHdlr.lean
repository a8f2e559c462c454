import NicObFw.Mctp

/-!
# PLDM and the protocol handler

`pldm.c` and `protocol_hdlr.c`, which chains MCTP and PLDM in both directions.
-/

namespace NicObFw

open Memory

/-! ## PLDM constants -/

def pldmTypeSensorMonitoring : UInt8 := 2
def pldmTypeFwUpdate : UInt8 := 5
def pldmCmdGetSensorReading : UInt8 := 0x11
def pldmCmdRequestUpdate : UInt8 := 0x10
def pldmCcSuccess : UInt8 := 0x00
def pldmCcError : UInt8 := 0x01
def pldmCcInvalidCmd : UInt8 := 0x04

def pldmGetType (msg : PldmMsg) : UInt8 := msg.pldmType

def pldmGetCommand (msg : PldmMsg) : UInt8 := msg.command

/-! ## Receive -/

/-- `pldm_parse`: the return code, the message and the array accesses. -/
def pldmParse (mctpPkt : MctpPacket) (pldmOut : PldmMsg) : RtosErr × PldmMsg × List RxAccess :=
  if mctpPkt.payloadLen.toNat < 3 then (.fail, pldmOut, [])
  else
    let dataLen : UInt16 := mctpPkt.payloadLen - 3
    let dataLen : UInt16 := if dataLen.toNat > pldmMaxPayload then 256 else dataLen
    let pldmOut :=
      { pldmOut with
        instanceId := mctpPkt.payload[0]
        pldmType := mctpPkt.payload[1]
        command := mctpPkt.payload[2]
        completionCode := 0
        payloadLen := dataLen
        reserved := 0 }
    let hdr : List RxAccess := [⟨.pktPayload, 0, 3⟩]
    if dataLen.toNat > 0 then
      (.ok, { pldmOut with payload := store pldmOut.payload 0 (load mctpPkt.payload 3 dataLen.toNat) },
        hdr ++ [⟨.pktPayload, 3, dataLen.toNat⟩, ⟨.pldmPayload, 0, dataLen.toNat⟩])
    else (.ok, pldmOut, hdr)

/-- `protocol_hdlr_init`: `mctp_init` and `pldm_init`, which cannot fail. -/
def protocolHdlrInit : MctpState := mctpInit

/-- What a call of `protocol_hdlr_process_rx` returns and leaves behind. -/
structure ProtocolRx where
  complete : Bool
  st : MctpState
  pldmOut : PldmMsg
  accesses : List RxAccess

/-- `protocol_hdlr_process_rx`. The local packet `mctpPkt` is uninitialised in the source: its
contents are a parameter. -/
def protocolHdlrProcessRx (st : MctpState) (raw : BmcRxMsg) (mctpPkt : MctpPacket)
    (pldmOut : PldmMsg) : ProtocolRx :=
  let rx := mctpProcessRx st raw mctpPkt
  if !rx.complete then
    { complete := false, st := rx.st, pldmOut, accesses := rx.accesses }
  else
    match pldmParse rx.pktOut pldmOut with
    | (.ok, pldmOut, log) =>
      { complete := true, st := rx.st, pldmOut, accesses := rx.accesses ++ log }
    | (_, pldmOut, log) =>
      { complete := false, st := rx.st, pldmOut, accesses := rx.accesses ++ log }

/-! ## Transmit -/

/-- `pldm_build_response`: the packet and the array accesses. `respData` is `none` for `NULL`. -/
def pldmBuildResponse (request : PldmMsg) (respData : Option (List UInt8)) (respLen : UInt16)
    (completionCode : UInt8) (mctpOut : MctpPacket) : MctpPacket × List TxAccess :=
  let hdr := [request.instanceId, request.pldmType, request.command, completionCode]
  let mctpOut := { mctpOut with payload := store mctpOut.payload 0 hdr }
  let log : List TxAccess := [⟨.mctpPayload, 0, 4⟩]
  match respData with
  | some data =>
    if respLen.toNat > 0 then
      let respLen : UInt16 := if respLen.toNat > mctpMaxPayload - 4 then 60 else respLen
      ({ mctpOut with
          payload := store mctpOut.payload 4 (data.take respLen.toNat)
          payloadLen := 4 + respLen },
        log ++ [⟨.respData data.length, 0, respLen.toNat⟩, ⟨.mctpPayload, 4, respLen.toNat⟩])
    else ({ mctpOut with payloadLen := 4 + respLen }, log)
  | none => ({ mctpOut with payloadLen := 4 + respLen }, log)

/-- The automatic objects of `protocol_hdlr_send_response`, which are uninitialised. -/
structure SendLocals where
  mctpResp : MctpPacket
  txBuf : Vector UInt8 smbMaxBlockSize

/-- `protocol_hdlr_send_response`, up to the call of `bmc_hal_transmit`: the bytes and the length
handed to it, and the array accesses. -/
def protocolHdlrSendResponse (request : PldmMsg) (respData : Option (List UInt8)) (respLen : UInt16)
    (completionCode : UInt8) (locals : SendLocals) :
    Vector UInt8 smbMaxBlockSize × UInt16 × List TxAccess :=
  let (mctpResp, log) :=
    pldmBuildResponse request respData respLen completionCode locals.mctpResp
  let (txBuf, txLen, log') := mctpFrameTx mctpResp locals.txBuf
  (txBuf, txLen, log ++ log')

end NicObFw
