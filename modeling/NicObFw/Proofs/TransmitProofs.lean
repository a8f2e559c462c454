import NicObFw.TransmitPath
import NicObFw.Proofs.DispatchProofs
import NicObFw.Proofs.ReceivePathProofs

/-!
# Proofs: the transmit path

The transmit path stays inside its buffers exactly for responses that fit a block
(`protocolHdlrSendResponse_inBounds_iff`), and what it sends in that case is read back by the receive
path (`processRx_sendResponse`).
-/

namespace NicObFw

open Memory Reassembly

/-! ## Bounds -/

/-- The response length after the clamp, which the branch without data skips. -/
def clampedRespLen (respData : Option (List UInt8)) (respLen : UInt16) : UInt16 :=
  if respData.isSome ∧ respLen.toNat > mctpMaxPayload - 4 then 60 else respLen

/-- The payload length of the response packet, on every branch. -/
theorem pldmBuildResponse_payloadLen (request : PldmMsg) (respData : Option (List UInt8))
    (respLen : UInt16) (completionCode : UInt8) (mctpOut : MctpPacket) :
    (pldmBuildResponse request respData respLen completionCode mctpOut).1.payloadLen =
      4 + clampedRespLen respData respLen := by
  cases respData with
  | none => simp [pldmBuildResponse, clampedRespLen]
  | some data =>
    by_cases h0 : respLen.toNat > 0
    · simp [pldmBuildResponse, clampedRespLen, h0]
    · have hsmall : ¬ respLen.toNat > mctpMaxPayload - 4 := by
        rw [not_lt] at h0 ⊢
        exact Nat.le_trans h0 (Nat.zero_le _)
      simp only [pldmBuildResponse, clampedRespLen, h0, hsmall, and_false, if_false]

/-- Building the response stays inside the packet and the data, whatever the length. -/
theorem pldmBuildResponse_inBounds (request : PldmMsg) {respData : Option (List UInt8)}
    {respLen : UInt16} (completionCode : UInt8) (mctpOut : MctpPacket)
    (hdata : ∀ data, respData = some data → data.length = respLen.toNat) :
    AllInBounds TxArray.size
      (pldmBuildResponse request respData respLen completionCode mctpOut).2 := by
  cases respData with
  | none => simp [pldmBuildResponse, TxArray.size]
  | some data =>
    have hlen := hdata data rfl
    by_cases h0 : respLen.toNat > 0
    · by_cases hclamp : respLen.toNat > mctpMaxPayload - 4
      · simp only [pldmBuildResponse, h0, hclamp, if_true, List.cons_append, List.nil_append,
          allInBounds_cons, allInBounds_nil, and_true, TxArray.size, hlen]
        simp only [mctpMaxPayload] at hclamp ⊢
        have h60 : (60 : UInt16).toNat = 60 := rfl
        omega
      · simp only [pldmBuildResponse, h0, hclamp, if_true, if_false, List.cons_append,
          List.nil_append, allInBounds_cons, allInBounds_nil, and_true, TxArray.size, hlen]
        simp only [mctpMaxPayload] at hclamp ⊢
        omega
    · simp [pldmBuildResponse, h0, TxArray.size]

/-- Framing stays inside the packet and the transmit buffer exactly if the payload leaves room for
the four header bytes. -/
theorem mctpFrameTx_inBounds_iff (pkt : MctpPacket) (txBuf : Vector UInt8 smbMaxBlockSize) :
    AllInBounds TxArray.size (mctpFrameTx pkt txBuf).2.2 ↔
      4 + pkt.payloadLen.toNat ≤ smbMaxBlockSize := by
  simp only [mctpFrameTx, allInBounds_cons, allInBounds_nil, and_true, TxArray.size, smbMaxBlockSize,
    mctpMaxPayload]
  omega

/-- The payload length leaves room for the header exactly for at most 24 bytes of data, or when the
sum with the unclamped length wraps around. -/
theorem clampedRespLen_fits_iff (respData : Option (List UInt8)) (respLen : UInt16) :
    4 + (4 + clampedRespLen respData respLen).toNat ≤ smbMaxBlockSize ↔
      respLen.toNat ≤ smbMaxBlockSize - 8 ∨ (respData = none ∧ 65532 ≤ respLen.toNat) := by
  have hlt := respLen.toNat_lt
  cases respData with
  | none =>
    simp only [clampedRespLen, Option.isSome_none, Bool.false_eq_true, false_and, if_false,
      UInt16.toNat_add, true_and, smbMaxBlockSize]
    have h4 : (4 : UInt16).toNat = 4 := rfl
    omega
  | some data =>
    simp only [clampedRespLen, Option.isSome_some, true_and, reduceCtorEq, false_and, or_false,
      smbMaxBlockSize, mctpMaxPayload]
    have h4 : (4 : UInt16).toNat = 4 := rfl
    by_cases hclamp : respLen.toNat > 64 - 4
    · have h64 : (4 + 60 : UInt16).toNat = 64 := rfl
      simp only [hclamp, if_true, h64]
      omega
    · simp only [hclamp, if_false, UInt16.toNat_add, h4]
      omega

/-- `protocol_hdlr_send_response` stays inside its buffers exactly for at most 24 bytes of response
data, which fill a block with the two headers. Without data the length is not clamped, and the last
four lengths below 2^16 wrap around to a small one. -/
theorem protocolHdlrSendResponse_inBounds_iff (hal : BmcHal) (request : PldmMsg)
    (respData : Option (List UInt8)) (respLen : UInt16) (completionCode : UInt8)
    (locals : SendLocals) (hdata : ∀ data, respData = some data → data.length = respLen.toNat) :
    SendsInBounds hal request respData respLen completionCode locals ↔
      respLen.toNat ≤ smbMaxBlockSize - 8 ∨ (respData = none ∧ 65532 ≤ respLen.toNat) := by
  have hplen :=
    pldmBuildResponse_payloadLen request respData respLen completionCode locals.mctpResp
  have hbuild := pldmBuildResponse_inBounds request completionCode locals.mctpResp hdata
  have hframe := mctpFrameTx_inBounds_iff
    (pldmBuildResponse request respData respLen completionCode locals.mctpResp).1 locals.txBuf
  rw [hplen] at hframe
  have hiff : AllInBounds TxArray.size
      (protocolHdlrSendResponse request respData respLen completionCode locals).2.2 ↔
      4 + (4 + clampedRespLen respData respLen).toNat ≤ smbMaxBlockSize := by
    simp only [protocolHdlrSendResponse, allInBounds_append, hbuild, true_and]
    exact hframe
  rw [← clampedRespLen_fits_iff]
  refine ⟨fun h => hiff.1 h.accesses, fun h => ⟨hiff.2 h, Or.inl ?_⟩⟩
  simp only [protocolHdlrSendResponse, mctpFrameTx, hplen]
  rw [UInt16.toNat_add]
  exact Nat.le_trans (Nat.mod_le _ _) h

/-- Automatic objects that hold zeros. -/
def zeroSendLocals : SendLocals where
  mctpResp := ⟨0, 0, 0, 0, 0, 0, Vector.replicate _ 0⟩
  txBuf := Vector.replicate _ 0

/-- A request whose members are all 0. -/
def zeroPldmMsg : PldmMsg := ⟨0, 0, 0, 0, 0, 0, Vector.replicate _ 0⟩

/-- An initialised driver that takes everything it is handed. -/
def takingHal : BmcHal where
  sInitialized := true
  i2cSlaveWriteBuffer _ length := length.toNat

/-- 24 bytes of data fill the block. -/
theorem protocolHdlrSendResponse_inBounds_24 :
    SendsInBounds takingHal zeroPldmMsg (some (List.replicate 24 0xAA)) 24 0 zeroSendLocals :=
  (protocolHdlrSendResponse_inBounds_iff takingHal zeroPldmMsg (some (List.replicate 24 0xAA)) 24 0
    zeroSendLocals (by simp)).2 (Or.inl (by decide))

/-- One byte more, and `tx_buf` overflows. -/
theorem sendResponse_25_overflows :
    ¬ SendsInBounds takingHal zeroPldmMsg (some (List.replicate 25 0xAA)) 25 0 zeroSendLocals := by
  intro h
  have hacc := h.accesses
  revert hacc
  decide

/-! ## Round trip -/

/-- A `NULL` pointer with length 0 sends what an empty buffer sends. -/
theorem protocolHdlrSendResponse_null (request : PldmMsg) (completionCode : UInt8)
    (locals : SendLocals) :
    protocolHdlrSendResponse request none 0 completionCode locals =
      protocolHdlrSendResponse request (some []) 0 completionCode locals := by
  simp [protocolHdlrSendResponse, pldmBuildResponse]

/-- The frame of a response that fits a block. -/
theorem sendResponse_frame (request : PldmMsg) (respData : Option (List UInt8)) (respLen : UInt16)
    (completionCode : UInt8) (locals : SendLocals)
    (hdata : (respData.getD []).length = respLen.toNat)
    (hfit : 8 + respLen.toNat ≤ smbMaxBlockSize) :
    let sent := protocolHdlrSendResponse request respData respLen completionCode locals
    sent.2.1.toNat = 8 + respLen.toNat ∧
    load sent.1 0 sent.2.1.toNat =
      responseFrame locals request.messageBytes ⟨completionCode, respData.getD []⟩ := by
  have h24 : respLen.toNat ≤ 24 := by
    simp only [smbMaxBlockSize] at hfit
    omega
  cases respData with
  | none =>
    obtain rfl : respLen = 0 := by
      rw [← UInt16.toNat_inj]
      exact hdata.symm
    rw [protocolHdlrSendResponse_null]
    exact protocolHdlrSendResponse_spec request [] 0 completionCode locals (Nat.le_refl 0) h24
  | some data =>
    have hspec := protocolHdlrSendResponse_spec request data respLen completionCode locals
      (Nat.le_of_eq hdata.symm) h24
    have htake : data.take respLen.toNat = data := List.take_of_length_le (Nat.le_of_eq hdata)
    rwa [htake] at hspec

/-- A start of message wipes out whatever was being assembled: `mctp_process_rx` depends on the
earlier state only through what the `SOM` test leaves of it. -/
theorem mctpProcessRx_congr {st st' : MctpState} {raw : BmcRxMsg} (hp : raw.IsPacket)
    (hentry : mctpEntry st raw.flagsSeq = mctpEntry st' raw.flagsSeq) (pkt : MctpPacket) :
    mctpProcessRx st raw pkt = mctpProcessRx st' raw pkt := by
  have h4 : ¬ raw.length.toNat < 4 := not_lt.2 hp.1
  unfold mctpEntry at hentry
  unfold mctpProcessRx
  simp only [h4, if_false, hentry]

/-- A single-packet message comes out of the receive path from every state of the reassembly, and
leaves the reassembly inactive. -/
theorem protocolHdlrProcessRx_single (st : MctpState) {raw : BmcRxMsg} (hp : raw.IsPacket)
    (hsom : isSom raw.flagsSeq = true) (heom : isEom raw.flagsSeq = true)
    (h3 : 3 ≤ ((frameOf raw).drop 4).length) (pkt : MctpPacket) (out : PldmMsg) :
    let rx := protocolHdlrProcessRx st raw pkt out
    rx.complete = true ∧ rx.pldmOut.messageBytes = (frameOf raw).drop 4 ∧
    rx.st.sReasmActive = false ∧ rx.st.sReasmOffset = 0 := by
  -- the same call with the reassembly emptied first
  have hfresh : Holds { st with sReasmActive := false, sReasmOffset := 0 } [] := holds_nil rfl rfl
  have hsame : protocolHdlrProcessRx st raw pkt out =
      protocolHdlrProcessRx { st with sReasmActive := false, sReasmOffset := 0 } raw pkt out := by
    have hentry : mctpEntry st raw.flagsSeq =
        mctpEntry { st with sReasmActive := false, sReasmOffset := 0 } raw.flagsSeq := by
      simp [mctpEntry, hsom]
    unfold protocolHdlrProcessRx
    rw [mctpProcessRx_congr hp hentry pkt]
  have hlen : (joined mctpFraming [frameOf raw]).length ≤ smbMaxBlockSize := by
    have h32 := hp.2
    rw [joined_singleton, length_payload hp]
    omega
  have haccept : accept mctpFraming pldmMaxPayload [] (frameOf raw) = [frameOf raw] :=
    accept_som (by rw [som_frameOf hp, hsom]) (Nat.le_trans hlen (by decide))
  have hdel : delivered mctpFraming pldmMaxPayload [] (frameOf raw) = some [frameOf raw] := by
    simp [delivered, haccept, eom_frameOf hp, heom]
  have hstep : step mctpFraming pldmMaxPayload [] (frameOf raw) = [] := by
    simp [step, eom_frameOf hp, heom]
  obtain ⟨hst, -, hsome⟩ := protocolHdlrProcessRx_spec hfresh hp pkt out
  obtain ⟨hcomplete, hbytes, -⟩ := hsome _ hdel
  rw [hstep] at hst
  have hc := hcomplete.2 (by rw [joined_singleton]; exact h3)
  rw [hsame]
  refine ⟨hc, ?_, ?_, ?_⟩
  · rw [hbytes hc (Nat.le_trans hlen (by decide)), joined_singleton]
    rfl
  · simpa using hst.active
  · have hoff := hst.offset
    rw [← UInt16.toNat_inj]
    exact hoff

/-- The receive path decodes what the transmit path encodes: a response that fits a block, handed
back as one raw message in any state of the reassembly, is parsed into the header of the request, with
the completion code and the response data as its payload. -/
theorem processRx_sendResponse (request : PldmMsg) (respData : Option (List UInt8))
    (respLen : UInt16) (completionCode : UInt8) (locals : SendLocals)
    (hdata : (respData.getD []).length = respLen.toNat)
    (hfit : 8 + respLen.toNat ≤ smbMaxBlockSize) (st : MctpState) (raw : BmcRxMsg)
    (hlength : raw.length =
      (protocolHdlrSendResponse request respData respLen completionCode locals).2.1)
    (hbytes : load raw.data 0 raw.length.toNat =
      load (protocolHdlrSendResponse request respData respLen completionCode locals).1 0
        raw.length.toNat)
    (mctpPkt : MctpPacket) (pldmOut : PldmMsg) :
    let rx := protocolHdlrProcessRx st raw mctpPkt pldmOut
    rx.complete = true ∧ rx.pldmOut.instanceId = request.instanceId ∧
    rx.pldmOut.pldmType = request.pldmType ∧ rx.pldmOut.command = request.command ∧
    rx.pldmOut.payloadLen.toNat = respLen.toNat + 1 ∧
    load rx.pldmOut.payload 0 (respLen.toNat + 1) = completionCode :: respData.getD [] ∧
    rx.st.sReasmActive = false ∧ rx.st.sReasmOffset = 0 := by
  obtain ⟨hlen, hframe⟩ := sendResponse_frame request respData respLen completionCode locals
    hdata hfit
  rw [← hlength] at hlen hframe
  rw [hframe] at hbytes
  have hp : raw.IsPacket := by
    rw [BmcRxMsg.IsPacket, hlen]
    exact ⟨by omega, hfit⟩
  have hflags : raw.flagsSeq = mctpFlagSom ||| mctpFlagEom := by
    rw [← flags_frameOf hp, frameOf, hbytes]
    rfl
  have hpayload : (frameOf raw).drop 4 =
      [request.instanceId, request.pldmType, request.command, completionCode] ++
        respData.getD [] := by
    rw [frameOf, hbytes]
    rfl
  obtain ⟨hc, hmsg, hactive, hoffset⟩ := protocolHdlrProcessRx_single st hp
    (by rw [hflags]; decide) (by rw [hflags]; decide) (by rw [hpayload]; simp) mctpPkt pldmOut
  rw [hpayload] at hmsg
  generalize protocolHdlrProcessRx st raw mctpPkt pldmOut = rx at *
  simp only [PldmMsg.messageBytes, List.cons_append, List.nil_append, List.cons.injEq] at hmsg
  obtain ⟨hid, hty, hcmd, hpay⟩ := hmsg
  have hplen : rx.pldmOut.payloadLen.toNat = respLen.toNat + 1 := by
    have hcount := congrArg List.length hpay
    rw [length_load, List.length_cons, hdata] at hcount
    simp only [pldmMaxPayload, smbMaxBlockSize] at hcount hfit
    omega
  rw [hplen] at hpay
  exact ⟨hc, hid, hty, hcmd, hplen, hpay, hactive, hoffset⟩

/-- A reading of two bytes sent back in the middle of another message. -/
theorem processRx_sendResponse_two :
    let raw : BmcRxMsg := ⟨#v[0, 0, 0, 0xC0, 0, 0, 0, 0, 0xAB, 0xCD, 1, 1, 1, 1, 1, 1,
      1, 1, 1, 1, 1, 1, 1, 1, 1, 1, 1, 1, 1, 1, 1, 1], 10, 0⟩
    let st : MctpState := ⟨Vector.replicate _ 7, 20, 2, true⟩
    let rx := protocolHdlrProcessRx st raw zeroSendLocals.mctpResp zeroPldmMsg
    rx.complete = true ∧ rx.pldmOut.instanceId = zeroPldmMsg.instanceId ∧
    rx.pldmOut.pldmType = zeroPldmMsg.pldmType ∧ rx.pldmOut.command = zeroPldmMsg.command ∧
    rx.pldmOut.payloadLen.toNat = (2 : UInt16).toNat + 1 ∧
    load rx.pldmOut.payload 0 ((2 : UInt16).toNat + 1) = 0 :: (some [0xAB, 0xCD]).getD [] ∧
    rx.st.sReasmActive = false ∧ rx.st.sReasmOffset = 0 :=
  processRx_sendResponse zeroPldmMsg (some [0xAB, 0xCD]) 2 0 zeroSendLocals (by decide) (by decide)
    _ _ (by decide) (by decide) _ _

end NicObFw
