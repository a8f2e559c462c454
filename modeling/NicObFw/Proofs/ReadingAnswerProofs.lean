import NicObFw.Proofs.FineFirmwareProofs

/-!
# Proofs: what the BMC is told of a sensor

Among the threads around the sensor cache, every response answers the message that was reassembled last,
and a response to `GET_SENSOR_READING` shows the last reading that was stored of this sensor, all of it
(`fineFirmware_answersLast`).
-/

namespace NicObFw

open Memory Reassembly

variable {cfg : TickConfig} {fw fw' : Firmware} {evs ftr : List FwEvent} {locals : TaskLocals}
  {msg : PldmMsg} {sensorId : UInt8}

/-! ## Requests and responses, as bytes -/

theorem three_le_length_messageBytes (msg : PldmMsg) : 3 ≤ msg.messageBytes.length := by
  simp [PldmMsg.messageBytes]

theorem recordAsked_eq (msg : PldmMsg) :
    recordAsked sensorMgrInit.count msg =
      if AsksForReading msg.messageBytes then some (msg.messageBytes.getD 3 0) else none := by
  have hid : sensorIdAsked msg = msg.messageBytes.getD 3 0 := by
    rw [sensorIdAsked_eq, getD_messageBytes]
  rw [recordAsked, hid]
  refine if_congr ?_ rfl rfl
  rw [ge_iff_le, UInt8.not_le]
  rfl

theorem respondReading_eq (msg : PldmMsg) (locals : TaskLocals) (rec : SensorRecord) :
    ∃ length, respondReading msg locals rec =
      .transmit (responseFrame locals.send msg.messageBytes ⟨pldmCcSuccess, rec.bytes⟩) length := by
  obtain ⟨length, -, hresp⟩ := respond_spec msg (store locals.respBuf 0 rec.bytes) 16 pldmCcSuccess
    locals.send (by decide)
  have hload := load_store_zero locals.respBuf (show rec.bytes.length ≤ 64 by simp [rec.length_bytes])
  rw [rec.length_bytes, load, List.drop_zero] at hload
  rw [show (16 : UInt16).toNat = 16 from rfl, hload] at hresp
  exact ⟨length, hresp⟩

theorem drop_responseFrame (locals : SendLocals) (message : List UInt8) (answer : Answer) :
    (responseFrame locals message answer).drop 4 = answerBytes message answer := rfl

/-- Unless a reading is asked for, the answer does not depend on the records. -/
theorem answerTo_of_not_asks {message : List UInt8} (h : ¬ AsksForReading message)
    {sCache : SensorCache} (hcount : sCache.count = sensorMgrInit.count) (room : Bool) :
    answerTo sCache room message = answerTo sensorMgrInit room message := by
  unfold answerTo
  by_cases hasks : message.getD 1 0 = pldmTypeSensorMonitoring ∧
      message.getD 2 0 = pldmCmdGetSensorReading
  · have hge : ¬ message.getD 3 0 < sensorMgrInit.count := fun hlt => h ⟨hasks.1, hasks.2, hlt⟩
    simp only [if_pos hasks, sensorAnswer, hcount, if_neg hge]
  · simp only [if_neg hasks]

/-! ## Histories -/

theorem lastCompleted_quiet (h : ∀ pkt m, .mctpComplete pkt m ∉ evs) :
    lastCompleted (ftr ++ evs) = lastCompleted ftr := by
  rw [lastCompleted, List.filterMap_append, (List.filterMap_eq_nil_iff (l := evs)).2 ?_,
    List.append_nil, lastCompleted]
  intro e he
  cases e with
  | mctpComplete pkt m => exact absurd he (h pkt m)
  | _ => rfl

theorem lastCompleted_complete (ftr : List FwEvent) (pkt : MctpPacket) (m : List UInt8) :
    lastCompleted (ftr ++ [.mctpComplete pkt m]) = some m := by
  simp [lastCompleted]

variable {tr fevs : List FineEvent}

/-- What is not sent needs no request. -/
theorem answersLast_quiet (h : Trace.EachGiven AnswersLast tr)
    (hquiet : ∀ bytes length, .fw (.transmit bytes length) ∉ fevs) :
    Trace.EachGiven AnswersLast (tr ++ fevs) := by
  refine Trace.eachGiven_append.2 ⟨h, ?_⟩
  rintro pre e post rfl
  cases e with
  | cache e => trivial
  | fw e =>
    cases e with
    | transmit bytes length => exact absurd (by simp) (hquiet bytes length)
    | _ => trivial

/-! ## The invariant -/

/-- The request that waits for its record, and the responses so far. -/
structure Served (fs : FineFirmware) (tr : List FineEvent) : Prop where
  rx : RxInv fs.fw (fwEvents tr)
  request : ∀ msg locals, fs.request = some (msg, locals) →
    lastCompleted (fwEvents tr) = some msg.messageBytes ∧ AsksForReading msg.messageBytes ∧
      ∃ step recordOut, fs.reader = .getCached step (msg.messageBytes.getD 3 0) recordOut
  answered : Trace.EachGiven AnswersLast tr

variable {fs fs' : FineFirmware}

/-- A step of `sensor_mgr_get_cached`. When it returns, its record is current, and the response that
follows shows it. -/
theorem Served.read (h : Served fs tr) {step : ReadStep} {recordOut : SensorRecord}
    (hrequest : fs.request = some (msg, locals))
    (hreader : fs.reader = .getCached step sensorId recordOut)
    (hread : FineRead fs msg locals sensorId recordOut step fs' fevs)
    (hreturned : Trace.EachGiven ReturnsCurrent (cacheEvents (tr ++ fevs))) :
    Served fs' (tr ++ fevs) := by
  obtain ⟨hlast, hasks, step', recordOut', hreader'⟩ := h.request msg locals hrequest
  obtain ⟨rfl, rfl, rfl⟩ : step = step' ∧ sensorId = msg.messageBytes.getD 3 0 ∧
      recordOut = recordOut' := by simpa using hreader.symm.trans hreader'
  have hsame : ∀ msg' locals', fs.request = some (msg', locals') → msg = msg' := by
    intro msg' locals' hrequest'
    rw [hrequest] at hrequest'
    exact (Prod.mk.inj (Option.some.inj hrequest')).1
  cases hread with
  | lock =>
    rw [List.append_nil]
    refine ⟨h.rx, fun msg' locals' hrequest' => ?_, h.answered⟩
    obtain rfl := hsame msg' locals' hrequest'
    exact ⟨hlast, hasks, _, _, rfl⟩
  | copy rec hrec =>
    rw [List.append_nil]
    refine ⟨h.rx, fun msg' locals' hrequest' => ?_, h.answered⟩
    obtain rfl := hsame msg' locals' hrequest'
    exact ⟨hlast, hasks, _, _, rfl⟩
  | respond =>
    obtain ⟨length, hresponse⟩ := respondReading_eq msg locals recordOut
    rw [hresponse] at hreturned ⊢
    rw [List.append_cons] at hreturned ⊢
    rw [cacheEvents_append, cacheEvents_append] at hreturned
    have hcurrent : ReturnsCurrent (cacheEvents tr) (.gotCached () _ recordOut) :=
      (Trace.eachGiven_snoc.1 hreturned.of_append).2
    refine ⟨?_, fun _ _ hnone => ?_, Trace.eachGiven_snoc.2
      ⟨answersLast_quiet h.answered (by simp), msg.messageBytes, _, ?_,
        three_le_length_messageBytes msg, drop_responseFrame _ _ _, ?_⟩⟩
    · rw [fwEvents_append, fwEvents_append]
      exact (h.rx.quiet rfl rfl (by simp [fwEvents])).quiet rfl rfl (by simp [fwEvents, FwEvent.isRx])
    · cases hnone
    · rw [fwEvents_append]
      exact (lastCompleted_quiet (by simp [fwEvents])).trans hlast
    · rw [AnswerGiven, if_pos hasks, cacheEvents_append]
      refine ⟨recordOut, rfl, ?_⟩
      rw [lastStored_quiet _ (by simp [cacheEvents, SensorEvent.isStored])]
      exact hcurrent.2

/-- The message in hand when `dispatch_pldm` is called. -/
theorem dispatched_messageBytes {raw : BmcRxMsg} {rest : List BmcRxMsg} (hrx : RxInv fw ftr)
    (hq : fw.sBmcRxQueue.items = raw :: rest)
    (hc : (protocolHdlrProcessRx fw.mctp raw locals.mctpPkt locals.pldm).complete = true)
    (hfit : MessagesFit (completedEvents (mctpProcessRx fw.mctp raw locals.mctpPkt))) :
    ∃ pkt, completedEvents (mctpProcessRx fw.mctp raw locals.mctpPkt) =
      [.mctpComplete pkt
        (protocolHdlrProcessRx fw.mctp raw locals.mctpPkt locals.pldm).pldmOut.messageBytes] := by
  have h32 : raw.length.toNat ≤ smbMaxBlockSize := hrx.size raw (by rw [hq]; simp)
  cases hm : completedMessage
      (openRun mctpFraming pldmMaxPayload ((packetsOf (rawsReceived ftr)).map frameOf)) raw with
  | none =>
    rw [(rx_incomplete hrx.holds h32 locals.mctpPkt locals.pldm hm).2] at hc
    cases hc
  | some m =>
    obtain ⟨⟨pkt, hev⟩, -, hbytes⟩ := rx_complete hrx.holds h32 locals.mctpPkt locals.pldm hm
    have hfits : m.length ≤ mctpMaxPayload := hfit pkt m (by rw [hev]; simp)
    exact ⟨pkt, by rw [hev, hbytes hc hfits]⟩

/-- The request for a record is the message that the step has reassembled. -/
theorem Served.call (h : Served fs tr) (hcount : fs.fw.sCache.count = sensorMgrInit.count)
    (hcalls : bmcMgrTaskCalls cfg fs.fw locals = some (fw', msg, sensorId, evs))
    (recordOut : SensorRecord) (hfit : MessagesFit evs) :
    Served
      { fs with
        fw := fw', reader := .getCached .take sensorId recordOut, request := some (msg, locals) }
      (tr ++ evs.map .fw) := by
  obtain ⟨raw, q, hphase, hq, hcomplete, hasked, rfl, rfl, rfl⟩ := bmcMgrTaskCalls_eq_some hcalls
  obtain ⟨pkt, hev⟩ := dispatched_messageBytes h.rx hq hcomplete
    fun pkt m hm => hfit pkt m (List.mem_cons_of_mem _ hm)
  have hrx : RxInv
      { livenessUpdate cfg fs.fw with
        sBmcRxQueue := q, mctp := (mctpProcessRx fs.fw.mctp raw locals.mctpPkt).st }
      (fwEvents tr ++ .rxReceived raw ::
        (completedEvents (mctpProcessRx fs.fw.mctp raw locals.mctpPkt) ++ [])) :=
    h.rx.rx hq locals.mctpPkt (by simp) rfl rfl
  rw [hcount, recordAsked_eq] at hasked
  rw [List.append_nil] at hrx
  refine ⟨?_, fun msg locals' hrequest => ?_, answersLast_quiet h.answered (by simp [hev])⟩
  · rw [fwEvents_append, fwEvents_map_fw]
    exact hrx
  · obtain ⟨rfl, rfl⟩ := Prod.mk.inj (Option.some.inj hrequest)
    split at hasked
    · rename_i hasks
      obtain rfl := Option.some.inj hasked
      refine ⟨?_, hasks, _, _, rfl⟩
      rw [fwEvents_append, fwEvents_map_fw, hev, List.append_cons]
      exact lastCompleted_complete _ _ _
    · cases hasked

/-- The message that is dispatched without a call does not ask for a reading. -/
theorem not_asks_of_notCalls {raw : BmcRxMsg} {q : FreeRtos.Queue BmcRxMsg queueDepthBmc}
    (hphase : fw.phase = .drainRx) (hq : fw.sBmcRxQueue.items = raw :: q.items)
    (hcount : fw.sCache.count = sensorMgrInit.count) (hno : bmcMgrTaskCalls cfg fw locals = none)
    (hc : (protocolHdlrProcessRx fw.mctp raw locals.mctpPkt locals.pldm).complete = true) :
    ¬ AsksForReading
      (protocolHdlrProcessRx fw.mctp raw locals.mctpPkt locals.pldm).pldmOut.messageBytes := by
  rw [bmcMgrTaskCalls_rx cfg locals hphase hq, if_pos hc, Option.map_eq_none_iff, hcount,
    recordAsked_eq] at hno
  intro hasks
  rw [if_pos hasks] at hno
  cases hno

/-- The events of `dispatch_pldm` for a message that does not ask for a reading. -/
theorem answersLast_dispatch (h : Trace.EachGiven AnswersLast tr)
    (hlast : lastCompleted (fwEvents tr) = some msg.messageBytes)
    (hasks : ¬ AsksForReading msg.messageBytes) {sCache : SensorCache}
    (hcount : sCache.count = sensorMgrInit.count) (q : FreeRtos.Queue FlashCmd queueDepthFlash)
    (send : SendLocals) (length : UInt16) :
    Trace.EachGiven AnswersLast (tr ++ (dispatchEvents q msg (responseFrame send msg.messageBytes
      (answerTo sCache (hasRoom q) msg.messageBytes)) length).map .fw) := by
  rw [dispatchEvents, List.map_append, List.map_singleton, ← List.append_assoc]
  refine Trace.eachGiven_snoc.2 ⟨answersLast_quiet h (by simp), msg.messageBytes, _, ?_,
    three_le_length_messageBytes msg, drop_responseFrame _ _ _, ?_⟩
  · rw [fwEvents_append, fwEvents_map_fw, lastCompleted_quiet, hlast]
    intro pkt m
    split <;> simp
  · rw [AnswerGiven, if_neg hasks, fwEvents_append, fwEvents_map_fw]
    refine ⟨hasRoom q, answerTo_of_not_asks hasks hcount _, fun hupdate => ?_⟩
    rw [if_pos ((requestsUpdate_iff msg).2 hupdate), requestUpdateCmd_eq]
    exact List.getLast?_concat

/-- A step of the BMC Manager without a call. -/
theorem Served.task (h : Served fs tr) (hcount : fs.fw.sCache.count = sensorMgrInit.count)
    (hrequest : fs.request = none) (hno : bmcMgrTaskCalls cfg fs.fw locals = none)
    (htask : bmcMgrTask cfg fs.fw locals = some (fw', evs)) (hfit : MessagesFit evs) :
    Served { fs with fw := fw' } (tr ++ evs.map .fw) := by
  have hs : (firmware cfg).step fs.fw (.bmcMgrTask locals) = some (fw', evs) := htask
  refine ⟨?_, fun msg locals' hsome => ?_, ?_⟩
  · rw [fwEvents_append, fwEvents_map_fw]
    exact h.rx.step (firmware_step_cases hs)
  · rw [hrequest] at hsome
    cases hsome
  · rcases firmware_rx_or_quiet hs with ⟨_, raw, q, heq, hphase, hq⟩ | ⟨hquiet, -⟩
    · cases heq
      rw [bmcMgrTask_rx cfg locals hphase hq] at htask
      obtain ⟨-, rfl⟩ := Prod.mk.inj (Option.some.inj htask)
      cases hc : (protocolHdlrProcessRx fs.fw.mctp raw locals.mctpPkt locals.pldm).complete with
      | false =>
        refine answersLast_quiet h.answered fun bytes length hmem => ?_
        have hcompleted : FwEvent.transmit bytes length ∈
            completedEvents (mctpProcessRx fs.fw.mctp raw locals.mctpPkt) := by
          simpa [hc] using hmem
        unfold completedEvents at hcompleted
        split at hcompleted <;> simp at hcompleted
      | true =>
        rw [hc, if_pos rfl] at hfit
        obtain ⟨pkt, hev⟩ := dispatched_messageBytes h.rx hq hc
          fun pkt m hm => hfit pkt m (by simp [hm])
        obtain ⟨length, -, hdispatch⟩ := dispatchPldm_spec fs.fw.sCache fs.fw.sFlashCmdQueue
          (protocolHdlrProcessRx fs.fw.mctp raw locals.mctpPkt locals.pldm).pldmOut
          (by rw [hcount]; decide) locals
        rw [if_pos rfl, hev, hdispatch, ← List.cons_append, List.map_append, ← List.append_assoc]
        refine answersLast_dispatch (answersLast_quiet h.answered (by simp)) ?_
          (not_asks_of_notCalls hphase hq hcount hno hc) hcount _ _ _
        rw [fwEvents_append, fwEvents_map_fw, List.append_cons]
        exact lastCompleted_complete _ _ _
    · exact answersLast_quiet h.answered fun bytes length hmem =>
        absurd (hquiet (.transmit bytes length) (by simpa using hmem)) (by simp [FwEvent.isRequest])

/-- A step of the sensor thread. -/
theorem Served.sensor (h : Served fs tr) {s' : SensorThreads Unit} {sevs : List (SensorEvent Unit)}
    (hreader : s'.reader = fs.threads.reader) :
    Served (fs.setThreads s') (tr ++ sevs.map .cache) := by
  have hfw : fwEvents (tr ++ sevs.map .cache) = fwEvents tr := by simp
  refine ⟨?_, ?_, answersLast_quiet h.answered (by simp)⟩
  · rw [hfw, ← List.append_nil (fwEvents tr)]
    exact h.rx.quiet rfl rfl (by simp)
  · intro msg locals hrequest
    rw [hfw]
    obtain ⟨hlast, hasks, step, recordOut, hcall⟩ := h.request msg locals hrequest
    exact ⟨hlast, hasks, step, recordOut, (congrFun hreader ()).trans hcall⟩

/-- A step of an interrupt, of the flash thread or of the clock. -/
theorem Served.other (h : Served fs tr) {a : FwAction} (ha : a.isOther = true)
    (hother : (firmware cfg).step fs.fw a = some (fw', evs)) :
    Served { fs with fw := fw' } (tr ++ evs.map .fw) := by
  have hquiet := ofBmcMgr_other ha hother
  refine ⟨?_, fun msg locals hrequest => ?_, answersLast_quiet h.answered fun bytes length hmem => ?_⟩
  · rw [fwEvents_append, fwEvents_map_fw]
    exact h.rx.step (firmware_step_cases hother)
  · rw [fwEvents_append, fwEvents_map_fw, lastCompleted_quiet]
    · exact h.request msg locals hrequest
    · exact fun pkt m hmem => absurd (hquiet _ hmem) (by simp [FwEvent.ofBmcMgr])
  · exact absurd (hquiet (.transmit bytes length) (by simpa using hmem)) (by simp [FwEvent.ofBmcMgr])

/-! ## Runs -/

/-- Every step keeps the invariant, as long as the messages fit. -/
theorem Served.step {ticks : ℕ} (h : Served fs tr) (hinv : FineInv cfg ticks fs tr)
    (hs : FineStep cfg fs fs' fevs) (hfit : MessagesFit (fwEvents fevs)) : Served fs' (tr ++ fevs) := by
  cases hs with
  | read msg locals s' sevs hrequest hread =>
    obtain ⟨step, sensorId, recordOut, hreader⟩ := hinv.related.reader_calls hrequest
    have hstep : SensorStep cfg fs.threads (.readerStep ()) s' sevs :=
      sensorThreads_step_cases hinv.cache.task hinv.cache.reader hread
    exact h.read hrequest hreader (fineRead_cases hrequest hreader hstep)
      (hinv.readerStep hrequest hread).cache.returned
  | call locals recordOut fw' msg sensorId evs hrequest hcalls =>
    rw [fwEvents_map_fw] at hfit
    exact h.call hinv.cache.count hcalls recordOut hfit
  | task locals fw' evs hrequest hno htask =>
    rw [fwEvents_map_fw] at hfit
    exact h.task hinv.cache.count hrequest hno htask hfit
  | sensor hal s' sevs htask =>
    have hstep : SensorStep cfg fs.threads (.sensorMgrTask hal) s' sevs :=
      sensorThreads_step_cases hinv.cache.task hinv.cache.reader htask
    exact h.sensor (sensorStep_frame hstep).1
  | other a fw' evs ha hother => exact h.other ha hother

end NicObFw
