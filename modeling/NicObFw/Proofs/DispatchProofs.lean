import NicObFw.Answers
import NicObFw.Proofs.BmcMgrProofs

/-!
# Proofs: dispatch and response

`dispatch_pldm` hands out exactly one frame: the header that the response packet was allocated with,
and the answer that is due for the request (`dispatchPldm_spec`).
-/

namespace NicObFw

open Memory

/-- The frame of a response: the first three bytes are those of the uninitialised `mctp_resp`. -/
def responseFrame (locals : SendLocals) (message : List UInt8) (answer : Answer) : List UInt8 :=
  [locals.mctpResp.hdrVersion, locals.mctpResp.destEid, locals.mctpResp.srcEid,
    mctpFlagSom ||| mctpFlagEom] ++ answerBytes message answer

theorem take_messageBytes (msg : PldmMsg) :
    msg.messageBytes.take 3 = [msg.instanceId, msg.pldmType, msg.command] := rfl

/-! ## The response -/

/-- Building a response of at most 24 bytes fills the front of the packet. -/
theorem pldmBuildResponse_spec (request : PldmMsg) (respData : List UInt8) (respLen : UInt16)
    (completionCode : UInt8) (mctpOut : MctpPacket) (hlen : respLen.toNat ≤ respData.length)
    (h24 : respLen.toNat ≤ 24) :
    let pkt := (pldmBuildResponse request (some respData) respLen completionCode mctpOut).1
    pkt.hdrVersion = mctpOut.hdrVersion ∧ pkt.destEid = mctpOut.destEid ∧
    pkt.srcEid = mctpOut.srcEid ∧ pkt.payloadLen.toNat = 4 + respLen.toNat ∧
    load pkt.payload 0 (4 + respLen.toNat) =
      answerBytes request.messageBytes ⟨completionCode, respData.take respLen.toNat⟩ := by
  have hsum : (4 + respLen).toNat = 4 + respLen.toNat := by
    rw [UInt16.toNat_add]
    exact Nat.mod_eq_of_lt (by simp; omega)
  have hhdr : load (store mctpOut.payload 0
      [request.instanceId, request.pldmType, request.command, completionCode]) 0 4 =
      [request.instanceId, request.pldmType, request.command, completionCode] :=
    load_store_zero mctpOut.payload (by simp)
  by_cases h0 : respLen.toNat > 0
  · have hclamp : ¬ respLen.toNat > mctpMaxPayload - 4 := by simp; omega
    have htake : (respData.take respLen.toNat).length = respLen.toNat := by
      rw [List.length_take]; omega
    simp only [pldmBuildResponse, h0, hclamp, if_true, if_false, true_and, hsum]
    have hfits : 4 + (respData.take respLen.toNat).length ≤ mctpMaxPayload := by
      rw [htake]
      simp
      omega
    have happ := load_store_append (store mctpOut.payload 0
      [request.instanceId, request.pldmType, request.command, completionCode]) hfits
    rw [htake, hhdr] at happ
    rw [happ, answerBytes, take_messageBytes]
    rfl
  · have hz : respLen.toNat = 0 := by omega
    simp only [pldmBuildResponse, h0, if_false, true_and, hsum]
    rw [hz, Nat.add_zero, List.take_zero, hhdr, answerBytes, take_messageBytes]
    rfl

/-- The frame handed to `bmc_hal_transmit` for a response of at most 24 bytes. -/
theorem protocolHdlrSendResponse_spec (request : PldmMsg) (respData : List UInt8) (respLen : UInt16)
    (completionCode : UInt8) (locals : SendLocals) (hlen : respLen.toNat ≤ respData.length)
    (h24 : respLen.toNat ≤ 24) :
    let r := protocolHdlrSendResponse request (some respData) respLen completionCode locals
    r.2.1.toNat = 8 + respLen.toNat ∧
    load r.1 0 r.2.1.toNat =
      responseFrame locals request.messageBytes ⟨completionCode, respData.take respLen.toNat⟩ := by
  obtain ⟨hver, hdest, hsrc, hplen, hpay⟩ :=
    pldmBuildResponse_spec request respData respLen completionCode locals.mctpResp hlen h24
  simp only [protocolHdlrSendResponse, mctpFrameTx]
  generalize pldmBuildResponse request (some respData) respLen completionCode locals.mctpResp = r at *
  obtain ⟨pkt, log⟩ := r
  simp only at hver hdest hsrc hplen hpay ⊢
  have htx : (4 + pkt.payloadLen).toNat = 4 + (4 + respLen.toNat) := by
    rw [UInt16.toNat_add, hplen]
    exact Nat.mod_eq_of_lt (by simp; omega)
  have hload : (load pkt.payload 0 (4 + respLen.toNat)).length = 4 + respLen.toNat := by
    rw [length_load]; simp; omega
  refine ⟨by rw [htx]; omega, ?_⟩
  have hfits : 4 + (load pkt.payload 0 (4 + respLen.toNat)).length ≤ smbMaxBlockSize := by
    rw [hload]
    simp
    omega
  have happ := load_store_append (store locals.txBuf 0
    [pkt.hdrVersion, pkt.destEid, pkt.srcEid, mctpFlagSom ||| mctpFlagEom]) hfits
  have hhdr := load_store_zero locals.txBuf (show [pkt.hdrVersion, pkt.destEid, pkt.srcEid,
    mctpFlagSom ||| mctpFlagEom].length ≤ smbMaxBlockSize by simp)
  rw [hload] at happ
  rw [htx, hplen, happ, show (4 : ℕ) = [pkt.hdrVersion, pkt.destEid, pkt.srcEid,
    mctpFlagSom ||| mctpFlagEom].length from rfl, hhdr, hver, hdest, hsrc]
  simp only [List.length_cons, List.length_nil]
  rw [hpay]
  rfl

/-! ## Dispatch -/

theorem length_bytesOf16 (x : UInt16) : (bytesOf16 x).length = 2 := rfl

theorem length_bytesOf32 (x : UInt32) : (bytesOf32 x).length = 4 := rfl

/-- `sizeof(sensor_record_t)`. -/
theorem SensorRecord.length_bytes (rec : SensorRecord) : rec.bytes.length = 16 := by
  simp [SensorRecord.bytes, length_bytesOf16, length_bytesOf32]

theorem sensorMgrGetCached_of_lt {sCache : SensorCache} {sensorId : UInt8}
    (hcount : sCache.count.toNat ≤ maxSensors) (h : sensorId < sCache.count) :
    ∃ rec, sensorMgrGetCached sCache sensorId = some rec ∧
      sCache.records.toList[sensorId.toNat]? = some rec := by
  have hlt : sensorId.toNat < maxSensors := Nat.lt_of_lt_of_le (UInt8.lt_iff_toNat_lt.1 h) hcount
  have hge : ¬ sensorId ≥ sCache.count := UInt8.not_le.2 h
  refine ⟨sCache.records[sensorId.toNat], ?_, ?_⟩
  · simp only [sensorMgrGetCached, hge, if_false]
    exact Vector.getElem?_eq_getElem hlt
  · rw [List.getElem?_eq_getElem (by simpa using hlt)]
    simp

theorem sensorMgrGetCached_of_ge {sCache : SensorCache} {sensorId : UInt8}
    (h : ¬ sensorId < sCache.count) : sensorMgrGetCached sCache sensorId = none := by
  simp [sensorMgrGetCached, UInt8.not_lt.1 h]

/-- The first byte after the command, as `dispatch_pldm` reads it. -/
theorem getD_messageBytes (msg : PldmMsg) :
    msg.messageBytes.getD 3 0 = if msg.payloadLen.toNat > 0 then msg.payload[0] else 0 := by
  obtain ⟨l, hl⟩ : ∃ l, msg.payload.toList = msg.payload[0] :: l := by
    obtain ⟨⟨l⟩, hl⟩ := msg.payload
    match l, hl with
    | a :: l, hl => exact ⟨l, rfl⟩
  by_cases h : msg.payloadLen.toNat > 0
  · obtain ⟨n, hn⟩ : ∃ n, msg.payloadLen.toNat = n + 1 := ⟨_, (Nat.succ_pred_eq_of_pos h).symm⟩
    simp [PldmMsg.messageBytes, load, hl, hn]
  · have hz : msg.payloadLen.toNat = 0 := by omega
    simp [PldmMsg.messageBytes, hz]

theorem getD_messageBytes_payload (msg : PldmMsg) {i : ℕ} (h : i < msg.payloadLen.toNat)
    (hi : i < pldmMaxPayload) : msg.messageBytes.getD (3 + i) 0 = msg.payload[i] := by
  rw [PldmMsg.messageBytes, Nat.add_comm 3 i]
  simp [load, List.getD_eq_getElem?_getD, h, hi]

theorem le_length_messageBytes (msg : PldmMsg) :
    11 ≤ msg.messageBytes.length ↔ msg.payloadLen.toNat ≥ 8 := by
  simp only [PldmMsg.messageBytes, List.length_append, List.length_cons, List.length_nil, length_load,
    pldmMaxPayload]
  omega

/-- The command posted for an update depends on the bytes of the message only. -/
theorem requestUpdateCmd_eq (msg : PldmMsg) : requestUpdateCmd msg = updateCmdOf msg.messageBytes := by
  simp only [requestUpdateCmd, updateCmdOf, le_length_messageBytes]
  by_cases h : msg.payloadLen.toNat ≥ 8
  · have hbyte : ∀ i (hi : i < pldmMaxPayload), i < 8 →
        msg.messageBytes.getD (3 + i) 0 = msg.payload[i] :=
      fun i hi h8 => getD_messageBytes_payload msg (Nat.lt_of_lt_of_le h8 h) hi
    simp only [if_pos h, ← hbyte 0 (by decide) (by decide), ← hbyte 1 (by decide) (by decide),
      ← hbyte 2 (by decide) (by decide), ← hbyte 3 (by decide) (by decide),
      ← hbyte 4 (by decide) (by decide), ← hbyte 5 (by decide) (by decide),
      ← hbyte 6 (by decide) (by decide), ← hbyte 7 (by decide) (by decide)]
  · simp only [if_neg h]

theorem respond_spec (msg : PldmMsg) (respBuf : Vector UInt8 64) (respLen : UInt16)
    (completionCode : UInt8) (locals : SendLocals) (h24 : respLen.toNat ≤ 24) :
    ∃ length : UInt16, length.toNat = 8 + respLen.toNat ∧
      let r := protocolHdlrSendResponse msg (some respBuf.toList) respLen completionCode locals
      FwEvent.transmit (load r.1 0 r.2.1.toNat) r.2.1 =
        .transmit (responseFrame locals msg.messageBytes
          ⟨completionCode, respBuf.toList.take respLen.toNat⟩) length := by
  obtain ⟨hlen, hframe⟩ := protocolHdlrSendResponse_spec msg respBuf.toList respLen completionCode
    locals (by rw [Vector.length_toList]; omega) h24
  exact ⟨_, hlen, by rw [← hframe]⟩

theorem hasRoom_iff {q : FreeRtos.Queue FlashCmd queueDepthFlash} :
    hasRoom q = true ↔ q.items.length < queueDepthFlash := by
  simp [hasRoom]

theorem rtosQueueSend_flash (q : FreeRtos.Queue FlashCmd queueDepthFlash) (cmd : FlashCmd) :
    rtosQueueSend q cmd = (if hasRoom q then .ok else .full, (q.send cmd).2) := by
  by_cases h : q.items.length < queueDepthFlash
  · rw [rtosQueueSend, if_pos (hasRoom_iff.2 h)]
    simp [(FreeRtos.Queue.send_of_lt (x := cmd) h).1]
  · rw [rtosQueueSend, if_neg (by rw [hasRoom_iff]; exact h)]
    simp [FreeRtos.Queue.send_of_full h]

/-- The answer due for a parsed message, in terms of its fields. -/
theorem answerTo_messageBytes (sCache : SensorCache) (room : Bool) (msg : PldmMsg) :
    answerTo sCache room msg.messageBytes =
      if msg.pldmType = pldmTypeSensorMonitoring ∧ msg.command = pldmCmdGetSensorReading then
        sensorAnswer sCache (if msg.payloadLen.toNat > 0 then msg.payload[0] else 0)
      else if msg.RequestsUpdate then ⟨if room then pldmCcSuccess else pldmCcError, []⟩
      else ⟨pldmCcInvalidCmd, []⟩ := by
  rw [answerTo, getD_messageBytes]
  rfl

section Dispatch

variable (sCache : SensorCache) (q : FreeRtos.Queue FlashCmd queueDepthFlash) (msg : PldmMsg)

/-- A `REQUEST_UPDATE` is posted to the flash queue, and answered according to the result. -/
theorem dispatchPldm_update (locals : TaskLocals) (h : msg.RequestsUpdate) :
    ∃ length : UInt16, length.toNat = 8 ∧
      dispatchPldm sCache q msg locals =
        ((q.send (requestUpdateCmd msg)).2,
          [.flashSent (requestUpdateCmd msg) (if hasRoom q then .ok else .full),
            .transmit (responseFrame locals.send msg.messageBytes
              ⟨if hasRoom q then pldmCcSuccess else pldmCcError, []⟩) length]) := by
  obtain ⟨hty, hcmd⟩ := h
  obtain ⟨length, hlen, hresp⟩ := respond_spec msg locals.respBuf 0
    (if hasRoom q then pldmCcSuccess else pldmCcError) locals.send (by simp)
  refine ⟨length, hlen, ?_⟩
  have hcc : (if (if hasRoom q = true then RtosErr.ok else .full) ≠ .ok then pldmCcError
      else pldmCcSuccess) = if hasRoom q = true then pldmCcSuccess else pldmCcError := by
    cases hasRoom q <;> rfl
  have hne : ¬ pldmTypeFwUpdate = pldmTypeSensorMonitoring := by decide
  simp only [dispatchPldm, pldmGetType, pldmGetCommand, hty, hcmd, hne, if_false, if_true,
    rtosQueueSend_flash, hcc]
  exact congrArg (fun e => ((q.send (requestUpdateCmd msg)).2,
    [.flashSent (requestUpdateCmd msg) (if hasRoom q then .ok else .full), e])) hresp

/-- A `GET_SENSOR_READING` is answered from the cache. -/
theorem dispatchPldm_sensor (hcount : sCache.count.toNat ≤ maxSensors) (locals : TaskLocals)
    (hty : msg.pldmType = pldmTypeSensorMonitoring) (hcmd : msg.command = pldmCmdGetSensorReading) :
    let answer := sensorAnswer sCache (if msg.payloadLen.toNat > 0 then msg.payload[0] else 0)
    ∃ length : UInt16, length.toNat = 8 + answer.data.length ∧
      dispatchPldm sCache q msg locals =
        (q, [.transmit (responseFrame locals.send msg.messageBytes answer) length]) := by
  simp only [dispatchPldm, pldmGetType, pldmGetCommand, hty, hcmd, if_true]
  generalize (if msg.payloadLen.toNat > 0 then msg.payload[0] else 0) = sensorId
  by_cases hlt : sensorId < sCache.count
  · obtain ⟨rec, hget, hrec⟩ := sensorMgrGetCached_of_lt hcount hlt
    obtain ⟨length, hlen, hresp⟩ := respond_spec msg (store locals.respBuf 0 rec.bytes)
      16 pldmCcSuccess locals.send (by decide)
    have hload : (store locals.respBuf 0 rec.bytes).toList.take 16 = rec.bytes := by
      have := load_store_zero locals.respBuf (show rec.bytes.length ≤ 64 by simp [rec.length_bytes])
      rwa [rec.length_bytes, load, List.drop_zero] at this
    have hans : sensorAnswer sCache sensorId = ⟨pldmCcSuccess, rec.bytes⟩ := by
      simp [sensorAnswer, hlt, hrec]
    rw [show ((16 : UInt16).toNat) = 16 from rfl, hload] at hresp
    rw [hget, hans]
    exact ⟨length, by rw [hlen, rec.length_bytes]; rfl, congrArg (fun e => (q, [e])) hresp⟩
  · obtain ⟨length, hlen, hresp⟩ := respond_spec msg locals.respBuf 0 pldmCcError
      locals.send (by simp)
    have hans : sensorAnswer sCache sensorId = ⟨pldmCcError, []⟩ := by simp [sensorAnswer, hlt]
    rw [sensorMgrGetCached_of_ge hlt, hans]
    exact ⟨length, hlen, congrArg (fun e => (q, [e])) hresp⟩

/-- Every other message is answered with `PLDM_CC_INVALID_CMD`. -/
theorem dispatchPldm_other (locals : TaskLocals) (hupd : ¬ msg.RequestsUpdate)
    (hsensor : ¬ (msg.pldmType = pldmTypeSensorMonitoring ∧ msg.command = pldmCmdGetSensorReading)) :
    ∃ length : UInt16, length.toNat = 8 ∧
      dispatchPldm sCache q msg locals =
        (q, [.transmit (responseFrame locals.send msg.messageBytes ⟨pldmCcInvalidCmd, []⟩) length]) := by
  obtain ⟨length, hlen, hresp⟩ := respond_spec msg locals.respBuf 0 pldmCcInvalidCmd
    locals.send (by simp)
  refine ⟨length, hlen, ?_⟩
  -- three branches of the nested switches end here
  by_cases hty : msg.pldmType = pldmTypeSensorMonitoring
  · have hcmd : ¬ msg.command = pldmCmdGetSensorReading := fun h => hsensor ⟨hty, h⟩
    simp only [dispatchPldm, pldmGetType, pldmGetCommand, hty, hcmd, if_true, if_false]
    exact congrArg (fun e => (q, [e])) hresp
  · by_cases hty' : msg.pldmType = pldmTypeFwUpdate
    · have hcmd : ¬ msg.command = pldmCmdRequestUpdate := fun h => hupd ⟨hty', h⟩
      have hne : ¬ pldmTypeFwUpdate = pldmTypeSensorMonitoring := by decide
      simp only [dispatchPldm, pldmGetType, pldmGetCommand, hty', hne, hcmd, if_true, if_false]
      exact congrArg (fun e => (q, [e])) hresp
    · simp only [dispatchPldm, pldmGetType, hty, hty', if_false]
      exact congrArg (fun e => (q, [e])) hresp

/-- The events of `dispatch_pldm`: a `REQUEST_UPDATE` is posted, and every message gets the answer that
is due. -/
def dispatchEvents (q : FreeRtos.Queue FlashCmd queueDepthFlash) (msg : PldmMsg) (frame : List UInt8)
    (length : UInt16) : List FwEvent :=
  (if msg.RequestsUpdate then
    [.flashSent (requestUpdateCmd msg) (if hasRoom q then .ok else .full)] else []) ++
    [.transmit frame length]

theorem PldmMsg.RequestsUpdate.not_sensor (h : msg.RequestsUpdate) :
    ¬ (msg.pldmType = pldmTypeSensorMonitoring ∧ msg.command = pldmCmdGetSensorReading) := by
  intro hs
  exact absurd (hs.1.symm.trans h.1) (by decide)

theorem dispatchPldm_spec (hcount : sCache.count.toNat ≤ maxSensors) (locals : TaskLocals) :
    ∃ length : UInt16,
      length.toNat = 8 + (answerTo sCache (hasRoom q) msg.messageBytes).data.length ∧
      dispatchPldm sCache q msg locals =
        (if msg.RequestsUpdate then (q.send (requestUpdateCmd msg)).2 else q,
          dispatchEvents q msg (responseFrame locals.send msg.messageBytes
            (answerTo sCache (hasRoom q) msg.messageBytes)) length) := by
  have hanswer := answerTo_messageBytes sCache (hasRoom q) msg
  by_cases hupd : msg.RequestsUpdate
  · rw [if_neg hupd.not_sensor, if_pos hupd] at hanswer
    obtain ⟨length, hlen, hdisp⟩ := dispatchPldm_update sCache q msg locals hupd
    rw [hanswer]
    simp only [dispatchEvents, if_pos hupd]
    exact ⟨length, hlen, hdisp⟩
  · simp only [dispatchEvents, if_neg hupd]
    by_cases hsensor : msg.pldmType = pldmTypeSensorMonitoring ∧ msg.command = pldmCmdGetSensorReading
    · rw [if_pos hsensor] at hanswer
      obtain ⟨length, hlen, hdisp⟩ := dispatchPldm_sensor sCache q msg hcount locals hsensor.1 hsensor.2
      rw [hanswer]
      exact ⟨length, hlen, hdisp⟩
    · rw [if_neg hsensor, if_neg hupd] at hanswer
      obtain ⟨length, hlen, hdisp⟩ :=
        dispatchPldm_other sCache q msg locals hupd hsensor
      rw [hanswer]
      exact ⟨length, hlen, hdisp⟩

end Dispatch

/-! ## A raw message in the task -/

/-- The report of a completed message. -/
def completedEvents (rx : MctpRx) : List FwEvent :=
  if rx.complete then
    [.mctpComplete rx.pktOut (load rx.st.sReasmBuf 0 rx.pktOut.payloadLen.toNat)]
  else []

theorem protocolHdlrProcessRx_st (st : MctpState) (raw : BmcRxMsg) (pkt : MctpPacket) (out : PldmMsg) :
    (protocolHdlrProcessRx st raw pkt out).st = (mctpProcessRx st raw pkt).st := by
  simp only [protocolHdlrProcessRx]
  split
  · rfl
  · split <;> rfl

/-- The turn of the first drain loop that receives `raw`. -/
theorem bmcMgrTask_rx (cfg : TickConfig) {fw : Firmware} {raw : BmcRxMsg}
    {q : FreeRtos.Queue BmcRxMsg queueDepthBmc} (locals : TaskLocals) (hp : fw.phase = .drainRx)
    (hq : fw.sBmcRxQueue.items = raw :: q.items) :
    let mctp := mctpProcessRx fw.mctp raw locals.mctpPkt
    let rx := protocolHdlrProcessRx fw.mctp raw locals.mctpPkt locals.pldm
    let dispatched := dispatchPldm fw.sCache fw.sFlashCmdQueue rx.pldmOut locals
    bmcMgrTask cfg fw locals =
      some ({ livenessUpdate cfg fw with
          sBmcRxQueue := q
          mctp := mctp.st
          sFlashCmdQueue := if rx.complete then dispatched.1 else fw.sFlashCmdQueue },
        .rxReceived raw :: (completedEvents mctp ++ if rx.complete then dispatched.2 else [])) := by
  obtain ⟨q', hrecv, hitems⟩ := rtosQueueReceive_cons hq
  obtain rfl : q' = q := FreeRtos.Queue.ext hitems
  simp only [bmcMgrTask, hp, hrecv, handleBmcMsg, livenessUpdate, protocolHdlrProcessRx_st,
    completedEvents]
  cases (protocolHdlrProcessRx fw.mctp raw locals.mctpPkt locals.pldm).complete
  · simp only [Bool.false_eq_true, if_false, List.append_nil]
  · simp only [if_true]

end NicObFw
