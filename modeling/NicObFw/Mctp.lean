import NicObFw.CommonTypes

/-!
# MCTP transport: reassembly and framing

The static variables of `mctp.c` are the state `MctpState`; a call returns the new state, the output
packet and the array accesses it made. A copy that runs past the end of an array is cut off at its
end in the value, and shows in the accesses.
-/

namespace NicObFw

open Memory

/-! ## Header flags -/

def mctpFlagSom : UInt8 := 0x80
def mctpFlagEom : UInt8 := 0x40
def mctpSeqMask : UInt8 := 0x30
def mctpTagMask : UInt8 := 0x07

def extractSeq (flagsSeq : UInt8) : UInt8 := (flagsSeq &&& mctpSeqMask) >>> 4

def isSom (flagsSeq : UInt8) : Bool := (flagsSeq &&& mctpFlagSom) != 0

def isEom (flagsSeq : UInt8) : Bool := (flagsSeq &&& mctpFlagEom) != 0

/-! ## The header of a raw message -/

def BmcRxMsg.hdrVer (raw : BmcRxMsg) : UInt8 := raw.data[0]
def BmcRxMsg.destEid (raw : BmcRxMsg) : UInt8 := raw.data[1]
def BmcRxMsg.srcEid (raw : BmcRxMsg) : UInt8 := raw.data[2]
def BmcRxMsg.flagsSeq (raw : BmcRxMsg) : UInt8 := raw.data[3]

/-! ## Module-private reassembly state -/

structure MctpState where
  sReasmBuf : Vector UInt8 pldmMaxPayload
  sReasmOffset : UInt16
  sExpectedSeq : UInt8
  sReasmActive : Bool
deriving DecidableEq, Repr

/-- `mctp_init`. -/
def mctpInit : MctpState where
  sReasmBuf := Vector.replicate pldmMaxPayload 0
  sReasmOffset := 0
  sExpectedSeq := 0
  sReasmActive := false

/-- `mctp_reset`. -/
def mctpReset (st : MctpState) : MctpState :=
  { st with sReasmOffset := 0, sExpectedSeq := 0, sReasmActive := false }

/-! ## Receive -/

/-- What a call of `mctp_process_rx` returns and leaves behind. -/
structure MctpRx where
  complete : Bool
  st : MctpState
  pktOut : MctpPacket
  accesses : List RxAccess

/-- `mctp_process_rx`: take one raw message into the reassembly. -/
def mctpProcessRx (st : MctpState) (raw : BmcRxMsg) (pktOut : MctpPacket) : MctpRx :=
  if raw.length.toNat < 4 then
    { complete := false, st, pktOut, accesses := [] }
  else
    let hdrVer := raw.hdrVer
    let destEid := raw.destEid
    let srcEid := raw.srcEid
    let flagsSeq := raw.flagsSeq
    let hdr : List RxAccess := [⟨.rawData, 0, 4⟩]
    let payloadLen : UInt16 := raw.length - 4
    -- start of message: reset reassembly
    let st :=
      if isSom flagsSeq then
        { st with sReasmOffset := 0, sReasmActive := true, sExpectedSeq := extractSeq flagsSeq }
      else st
    if !st.sReasmActive then
      { complete := false, st, pktOut, accesses := hdr }
    -- sequence check
    else if extractSeq flagsSeq != st.sExpectedSeq then
      { complete := false, st := mctpReset st, pktOut, accesses := hdr }
    -- the sum is an `int`, so it does not wrap
    else if st.sReasmOffset.toNat + payloadLen.toNat > pldmMaxPayload then
      { complete := false, st := mctpReset st, pktOut, accesses := hdr }
    else
      let copy : List RxAccess :=
        [⟨.rawData, 4, payloadLen.toNat⟩, ⟨.reasmBuf, st.sReasmOffset.toNat, payloadLen.toNat⟩]
      let st :=
        { st with
          sReasmBuf := store st.sReasmBuf st.sReasmOffset.toNat (load raw.data 4 payloadLen.toNat)
          sReasmOffset := st.sReasmOffset + payloadLen
          sExpectedSeq := (st.sExpectedSeq + 1) &&& 0x03 }
      if isEom flagsSeq then
        -- complete message: populate output
        let len := st.sReasmOffset.toNat
        { complete := true
          st := { st with sReasmActive := false, sReasmOffset := 0 }
          pktOut :=
            { hdrVersion := hdrVer, destEid, srcEid, flagsSeq
              payloadLen := st.sReasmOffset
              reserved := 0
              payload := store pktOut.payload 0 (load st.sReasmBuf 0 len) }
          accesses := hdr ++ copy ++ [⟨.reasmBuf, 0, len⟩, ⟨.pktPayload, 0, len⟩] }
      else
        -- fragment received, waiting for more
        { complete := false, st, pktOut, accesses := hdr ++ copy }

/-! ## Transmit -/

/-- `mctp_frame_tx`: the transmit buffer, its length and the array accesses. -/
def mctpFrameTx (pkt : MctpPacket) (txBuf : Vector UInt8 smbMaxBlockSize) :
    Vector UInt8 smbMaxBlockSize × UInt16 × List TxAccess :=
  -- single-packet message
  let hdr := [pkt.hdrVersion, pkt.destEid, pkt.srcEid, mctpFlagSom ||| mctpFlagEom]
  let len := pkt.payloadLen.toNat
  (store (store txBuf 0 hdr) 4 (load pkt.payload 0 len), 4 + pkt.payloadLen,
    [⟨.txBuf, 0, 4⟩, ⟨.mctpPayload, 0, len⟩, ⟨.txBuf, 4, len⟩])

end NicObFw
