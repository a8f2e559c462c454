import NicObFw.Proofs.DispatchProofs
import NicObFw.Proofs.LostFragmentProofs
import NicObFw.Proofs.ReceivePathProofs

/-!
# Proofs: answers to the BMC

Every message of at least three bytes that the task reassembles is answered once, with the answer that
is due for it, and nothing else is transmitted (`bmcMgr_answers`).
-/

namespace NicObFw

open Memory Reassembly

/-! ## The message that a raw message completes -/

/-- The message that `raw` completes when the receiver holds the open run `run`. -/
def completedMessage (run : List (List UInt8)) (raw : BmcRxMsg) : Option (List UInt8) :=
  if 4 ≤ raw.length.toNat then
    (delivered mctpFraming pldmMaxPayload run (frameOf raw)).map (joined mctpFraming)
  else none

/-- The open run after `raw`. -/
def nextRun (run : List (List UInt8)) (raw : BmcRxMsg) : List (List UInt8) :=
  if 4 ≤ raw.length.toNat then step mctpFraming pldmMaxPayload run (frameOf raw) else run

section Completed

variable {st : MctpState} {run : List (List UInt8)} {raw : BmcRxMsg}

theorem mctpProcessRx_nextRun (h : Holds st run) (h32 : raw.length.toNat ≤ smbMaxBlockSize)
    (pkt : MctpPacket) : Holds (mctpProcessRx st raw pkt).st (nextRun run raw) := by
  by_cases h4 : 4 ≤ raw.length.toNat
  · rw [nextRun, if_pos h4]
    exact (mctpProcessRx_spec h ⟨h4, h32⟩ pkt).1
  · rw [nextRun, if_neg h4, mctpProcessRx_short (Nat.lt_of_not_le h4)]
    exact h

theorem rx_incomplete (h : Holds st run) (h32 : raw.length.toNat ≤ smbMaxBlockSize)
    (pkt : MctpPacket) (out : PldmMsg) (hnone : completedMessage run raw = none) :
    completedEvents (mctpProcessRx st raw pkt) = [] ∧
      (protocolHdlrProcessRx st raw pkt out).complete = false := by
  by_cases h4 : 4 ≤ raw.length.toNat
  · rw [completedMessage, if_pos h4, Option.map_eq_none_iff] at hnone
    have hc := ((mctpProcessRx_spec h ⟨h4, h32⟩ pkt).2.1 hnone).1
    exact ⟨by simp [completedEvents, hc],
      ((protocolHdlrProcessRx_spec h ⟨h4, h32⟩ pkt out).2.1 hnone).1⟩
  · have hshort : mctpProcessRx st raw pkt = ⟨false, st, pkt, []⟩ :=
      mctpProcessRx_short (Nat.lt_of_not_le h4)
    exact ⟨by simp [completedEvents, hshort], by simp [protocolHdlrProcessRx, hshort]⟩

/-- The message `m` is completed. It is handed on if it has the three bytes of a PLDM header. -/
theorem rx_complete (h : Holds st run) (h32 : raw.length.toNat ≤ smbMaxBlockSize)
    (pkt : MctpPacket) (out : PldmMsg) {m : List UInt8} (hsome : completedMessage run raw = some m) :
    (∃ pktOut, completedEvents (mctpProcessRx st raw pkt) = [.mctpComplete pktOut m]) ∧
      ((protocolHdlrProcessRx st raw pkt out).complete = true ↔ 3 ≤ m.length) ∧
      ((protocolHdlrProcessRx st raw pkt out).complete = true → m.length ≤ mctpMaxPayload →
        (protocolHdlrProcessRx st raw pkt out).pldmOut.messageBytes = m) := by
  by_cases h4 : 4 ≤ raw.length.toNat
  · rw [completedMessage, if_pos h4, Option.map_eq_some_iff] at hsome
    obtain ⟨frames, hd, rfl⟩ := hsome
    obtain ⟨hc, hpkt, hbuf, -⟩ := (mctpProcessRx_spec h ⟨h4, h32⟩ pkt).2.2 frames hd
    obtain ⟨hiff, hbytes, -⟩ := (protocolHdlrProcessRx_spec h ⟨h4, h32⟩ pkt out).2.2 frames hd
    have hlen : (mctpProcessRx st raw pkt).pktOut.payloadLen.toNat =
        (joined mctpFraming frames).length := by
      rw [hpkt]
      exact Nat.mod_eq_of_lt (lt_of_le_of_lt (delivered_fits hd) (by decide))
    refine ⟨⟨(mctpProcessRx st raw pkt).pktOut, ?_⟩, hiff, hbytes⟩
    rw [completedEvents, hc, if_pos rfl, hlen, hbuf]
  · rw [completedMessage, if_neg h4] at hsome
    cases hsome

end Completed

/-! ## One step -/

variable {cfg : TickConfig} {fw fw' : Firmware} {tr evs : List FwEvent} {a : FwAction}

theorem count_step (hs : FwStep cfg fw a fw' evs) : fw'.sCache.count = fw.sCache.count := by
  cases hs <;> rfl

@[simp] theorem framesSent_append (tr evs : List FwEvent) :
    framesSent (tr ++ evs) = framesSent tr ++ framesSent evs := by
  simp [framesSent]

theorem commandsAccepted_append (fw : Firmware) (evs evs' : List FwEvent) :
    commandsAccepted fw (evs ++ evs') = commandsAccepted fw evs ++ commandsAccepted fw evs' := by
  simp [commandsAccepted]

theorem answersDue_append (fw : Firmware) (a : FwAction) (evs evs' : List FwEvent) :
    answersDue fw a (evs ++ evs') = answersDue fw a evs ++ answersDue fw a evs' := by
  simp [answersDue]

/-- Events that report a request or what is done with it. -/
def FwEvent.isRequest : FwEvent → Bool
  | rxReceived .. => true
  | mctpComplete .. => true
  | flashSent .. => true
  | transmit .. => true
  | _ => false

/-- A step receives a raw message, or it reports nothing of requests and, if it is one of the task,
finds no raw message and keeps the cache and the flash queue. -/
theorem firmware_rx_or_quiet (hs : (firmware cfg).step fw a = some (fw', evs)) :
    (∃ locals raw, ∃ q : FreeRtos.Queue BmcRxMsg queueDepthBmc, a = .bmcMgrTask locals ∧
      fw.phase = .drainRx ∧ fw.sBmcRxQueue.items = raw :: q.items) ∨
    ((∀ e ∈ evs, e.isRequest = false) ∧ ∀ locals, a = .bmcMgrTask locals →
      (fw.phase = .drainRx → fw.sBmcRxQueue.items = []) ∧
      fw'.sCache = fw.sCache ∧ fw'.sFlashCmdQueue = fw.sFlashCmdQueue) := by
  cases firmware_step_cases hs with
  | rx locals raw q fq dispatched hp hq hd => exact Or.inl ⟨locals, raw, q, rfl, hp, hq⟩
  | rxDone locals hp hq => exact Or.inr ⟨by simp, fun _ _ => ⟨fun _ => hq, rfl, rfl⟩⟩
  | wake _ hp _ | nic _ _ _ hp _ | nicDone _ hp _ | alive _ hp _ | silent _ hp _ =>
    refine Or.inr ⟨by simp [FwEvent.isRequest], fun _ _ => ⟨fun h => ?_, rfl, rfl⟩⟩
    exact absurd (hp.symm.trans h) (by simp)
  | _ => exact Or.inr ⟨by simp [FwEvent.isRequest], by simp⟩

theorem framesSent_quiet (h : ∀ e ∈ evs, e.isRequest = false) : framesSent evs = [] :=
  Trace.filterMap_quiet (fun e he => by cases e <;> simp_all [FwEvent.isRequest]) h

theorem answersDue_quiet (fw : Firmware) (a : FwAction) (h : ∀ e ∈ evs, e.isRequest = false) :
    answersDue fw a evs = [] :=
  Trace.filterMap_quiet (fun e he => by cases e <;> simp_all [FwEvent.isRequest]) h

theorem commandsAccepted_quiet (fw : Firmware) (h : ∀ e ∈ evs, e.isRequest = false) :
    commandsAccepted fw evs = [] :=
  Trace.filterMap_quiet (fun e he => by cases e <;> simp_all [FwEvent.isRequest]) h

/-- The state after `raw` was received and taken into the reassembly. -/
def receivedRaw (cfg : TickConfig) (fw : Firmware) (raw : BmcRxMsg)
    (q : FreeRtos.Queue BmcRxMsg queueDepthBmc) (locals : TaskLocals) : Firmware :=
  { livenessUpdate cfg fw with
    sBmcRxQueue := q
    mctp := (mctpProcessRx fw.mctp raw locals.mctpPkt).st }

/-- What the task does with `raw` when the reassembly holds the open run `run`: it completes no message,
or one that is too short for a PLDM header, or one that is dispatched and answered. -/
inductive RxStep (cfg : TickConfig) (fw : Firmware) (raw : BmcRxMsg)
    (q : FreeRtos.Queue BmcRxMsg queueDepthBmc) (locals : TaskLocals) (run : List (List UInt8)) :
    Firmware → List FwEvent → Prop
  | incomplete (hm : completedMessage run raw = none)
      (hc : (protocolHdlrProcessRx fw.mctp raw locals.mctpPkt locals.pldm).complete = false) :
    RxStep cfg fw raw q locals run (receivedRaw cfg fw raw q locals) [.rxReceived raw]
  | short (pkt : MctpPacket) (m : List UInt8) (hm : completedMessage run raw = some m)
      (h3 : m.length < 3)
      (hc : (protocolHdlrProcessRx fw.mctp raw locals.mctpPkt locals.pldm).complete = false) :
    RxStep cfg fw raw q locals run (receivedRaw cfg fw raw q locals)
      [.rxReceived raw, .mctpComplete pkt m]
  | answered (pkt : MctpPacket) (m : List UInt8) (msg : PldmMsg) (length : UInt16)
      (hm : completedMessage run raw = some m) (h3 : 3 ≤ m.length)
      (hc : (protocolHdlrProcessRx fw.mctp raw locals.mctpPkt locals.pldm).complete = true)
      (hmsg : m.length ≤ mctpMaxPayload → msg.messageBytes = m)
      (hlen : length.toNat =
        8 + (answerTo fw.sCache (hasRoom fw.sFlashCmdQueue) msg.messageBytes).data.length) :
    RxStep cfg fw raw q locals run
      { receivedRaw cfg fw raw q locals with
        sFlashCmdQueue :=
          if msg.RequestsUpdate then (fw.sFlashCmdQueue.send (requestUpdateCmd msg)).2
          else fw.sFlashCmdQueue }
      ([.rxReceived raw, .mctpComplete pkt m] ++ dispatchEvents fw.sFlashCmdQueue msg
        (responseFrame locals.send msg.messageBytes
          (answerTo fw.sCache (hasRoom fw.sFlashCmdQueue) msg.messageBytes)) length)

/-- A raw message at the head of the RX queue is handled in one of these ways. -/
theorem rxStep_cases {raw : BmcRxMsg} {q : FreeRtos.Queue BmcRxMsg queueDepthBmc}
    {run : List (List UInt8)} {locals : TaskLocals} (hp : fw.phase = .drainRx)
    (hq : fw.sBmcRxQueue.items = raw :: q.items) (hcount : fw.sCache.count = 2)
    (hrun : Holds fw.mctp run) (h32 : raw.length.toNat ≤ smbMaxBlockSize)
    (hs : bmcMgrTask cfg fw locals = some (fw', evs)) :
    RxStep cfg fw raw q locals run fw' evs := by
  rw [bmcMgrTask_rx cfg locals hp hq, Option.some.injEq, Prod.mk.injEq] at hs
  obtain ⟨rfl, rfl⟩ := hs
  cases hm : completedMessage run raw with
  | none =>
    obtain ⟨hev, hc⟩ := rx_incomplete hrun h32 locals.mctpPkt locals.pldm hm
    simp only [hev, hc, Bool.false_eq_true, if_false, List.append_nil]
    exact .incomplete hm hc
  | some m =>
    obtain ⟨⟨pkt, hev⟩, hc, hbytes⟩ := rx_complete hrun h32 locals.mctpPkt locals.pldm hm
    by_cases h3 : 3 ≤ m.length
    · obtain ⟨length, hlen, hdisp⟩ := dispatchPldm_spec fw.sCache fw.sFlashCmdQueue
        (protocolHdlrProcessRx fw.mctp raw locals.mctpPkt locals.pldm).pldmOut
        (by rw [hcount]; decide) locals
      simp only [hev, hc.2 h3, if_true, hdisp, List.singleton_append]
      exact .answered pkt m _ length hm h3 (hc.2 h3) (hbytes (hc.2 h3)) hlen
    · have hc' : ¬ (protocolHdlrProcessRx fw.mctp raw locals.mctpPkt locals.pldm).complete = true :=
        fun h => h3 (hc.1 h)
      simp only [hev, if_neg hc']
      exact .short pkt m hm (Nat.lt_of_not_le h3) (Bool.eq_false_iff.2 hc')

/-- The frame of a response. -/
def frameOfResponse (r : List UInt8 × List UInt8) : List UInt8 :=
  r.1 ++ (mctpFlagSom ||| mctpFlagEom) :: r.2

theorem map_drop_frameOfResponse {due : List (List UInt8 × List UInt8)}
    (h : ∀ r ∈ due, r.1.length = 3) : (due.map frameOfResponse).map (List.drop 4) = due.map Prod.snd := by
  rw [List.map_map]
  refine List.map_congr_left fun r hr => ?_
  have hlen := h r hr
  show (r.1 ++ (mctpFlagSom ||| mctpFlagEom) :: r.2).drop 4 = r.2
  rw [List.drop_append, hlen, List.drop_of_length_le (by omega)]
  rfl

section RxStep

variable {raw : BmcRxMsg} {q : FreeRtos.Queue BmcRxMsg queueDepthBmc} {locals : TaskLocals}
  {run : List (List UInt8)}

theorem framesSent_dispatchEvents (fq : FreeRtos.Queue FlashCmd queueDepthFlash) (msg : PldmMsg)
    (frame : List UInt8) (length : UInt16) :
    framesSent (dispatchEvents fq msg frame length) = [frame] := by
  rw [dispatchEvents]
  split <;> rfl

theorem answersDue_dispatchEvents (fw : Firmware) (a : FwAction)
    (fq : FreeRtos.Queue FlashCmd queueDepthFlash) (msg : PldmMsg) (frame : List UInt8)
    (length : UInt16) : answersDue fw a (dispatchEvents fq msg frame length) = [] := by
  rw [dispatchEvents]
  split <;> rfl

theorem RxStep.framesSent_eq (h : RxStep cfg fw raw q locals run fw' evs)
    (h64 : ∀ pkt m, .mctpComplete pkt m ∈ evs → m.length ≤ mctpMaxPayload) :
    framesSent evs = (responsesDue fw (.bmcMgrTask locals) evs).map frameOfResponse := by
  cases h with
  | incomplete hm hc => rfl
  | short pkt m hm h3 hc =>
    have hdue : answersDue fw (.bmcMgrTask locals) [.rxReceived raw, .mctpComplete pkt m] = [] := by
      simp [answersDue, Nat.not_le.2 h3]
    rw [responsesDue, hdue]
    rfl
  | answered pkt m msg length hm h3 hc hmsg hlen =>
    have hbytes := hmsg (h64 pkt m (by simp))
    have hdue : answersDue fw (.bmcMgrTask locals) [.rxReceived raw, .mctpComplete pkt m] =
        [answerBytes m (answerTo fw.sCache (hasRoom fw.sFlashCmdQueue) m)] := by
      simp [answersDue, h3]
    rw [framesSent_append, framesSent_dispatchEvents, responsesDue, answersDue_append,
      answersDue_dispatchEvents, List.append_nil, hdue, hbytes]
    rfl

theorem transmit_mem_dispatchEvents {fq : FreeRtos.Queue FlashCmd queueDepthFlash} {msg : PldmMsg}
    {frame bytes : List UInt8} {length len : UInt16} :
    .transmit bytes len ∈ dispatchEvents fq msg frame length ↔ bytes = frame ∧ len = length := by
  rw [dispatchEvents]
  split <;> simp

theorem length_responseFrame (locals : SendLocals) (msg : PldmMsg) (answer : Answer) :
    (responseFrame locals msg.messageBytes answer).length = 8 + answer.data.length := by
  simp [responseFrame, answerBytes, take_messageBytes]
  omega

theorem RxStep.length_transmit (h : RxStep cfg fw raw q locals run fw' evs) :
    ∀ bytes length, .transmit bytes length ∈ evs → bytes.length = length.toNat := by
  intro bytes length hmem
  cases h with
  | incomplete hm hc => simp at hmem
  | short pkt m hm h3 hc => simp at hmem
  | answered pkt m msg length' hm h3 hc hmsg hlen =>
    have hin : .transmit bytes length ∈ dispatchEvents fw.sFlashCmdQueue msg
        (responseFrame locals.send msg.messageBytes
          (answerTo fw.sCache (hasRoom fw.sFlashCmdQueue) msg.messageBytes)) length' := by
      simpa using hmem
    obtain ⟨rfl, rfl⟩ := transmit_mem_dispatchEvents.1 hin
    rw [length_responseFrame, hlen]

theorem requestsUpdate_iff (msg : PldmMsg) :
    msg.RequestsUpdate ↔ IsUpdateRequest msg.messageBytes := Iff.rfl

theorem commandsAccepted_dispatchEvents (fw : Firmware) (fq : FreeRtos.Queue FlashCmd queueDepthFlash)
    (msg : PldmMsg) (frame : List UInt8) (length : UInt16) :
    commandsAccepted fw (dispatchEvents fq msg frame length) = [] := by
  rw [dispatchEvents]
  split <;> rfl

/-- A message of a `REQUEST_UPDATE` has at least the three bytes of a PLDM header. -/
theorem IsUpdateRequest.length {message : List UInt8} (h : IsUpdateRequest message) :
    3 ≤ message.length := by
  by_contra hlt
  have hcmd := h.2
  rw [List.getD_eq_getElem?_getD, List.getElem?_eq_none (by omega)] at hcmd
  exact absurd hcmd (by decide)

/-- An update request is accepted if the flash queue has room for its command. -/
theorem commandsAccepted_complete (fw : Firmware) (raw : BmcRxMsg) (pkt : MctpPacket)
    (message : List UInt8) :
    commandsAccepted fw [.rxReceived raw, .mctpComplete pkt message] =
      if IsUpdateRequest message ∧ fw.sFlashCmdQueue.items.length < queueDepthFlash then
        [updateCmdOf message]
      else [] := by
  have hiff : (IsUpdateRequest message ∧
        answerTo fw.sCache (hasRoom fw.sFlashCmdQueue) message = ⟨pldmCcSuccess, []⟩) ↔
      IsUpdateRequest message ∧ fw.sFlashCmdQueue.items.length < queueDepthFlash := by
    refine and_congr_right fun hupd => ?_
    have hsensor : ¬ (message.getD 1 0 = pldmTypeSensorMonitoring ∧
        message.getD 2 0 = pldmCmdGetSensorReading) := by
      rw [hupd.1]
      exact fun h => absurd h.1 (by decide)
    have hanswer : answerTo fw.sCache (hasRoom fw.sFlashCmdQueue) message =
        ⟨if hasRoom fw.sFlashCmdQueue then pldmCcSuccess else pldmCcError, []⟩ :=
      (if_neg hsensor).trans (if_pos hupd)
    rw [hanswer, ← hasRoom_iff]
    cases hasRoom fw.sFlashCmdQueue <;> decide
  simp only [commandsAccepted, hiff, List.filterMap_cons, List.filterMap_nil]
  split <;> simp_all

/-- A raw message changes the flash queue exactly if it completes an update request that is accepted. -/
theorem RxStep.changesOnlyForUpdates (h : RxStep cfg fw raw q locals run fw' evs)
    (h64 : ∀ pkt m, .mctpComplete pkt m ∈ evs → m.length ≤ mctpMaxPayload) :
    fw'.sCache = fw.sCache ∧
      fw'.sFlashCmdQueue.items = fw.sFlashCmdQueue.items ++ commandsAccepted fw evs := by
  cases h with
  | incomplete hm hc => exact ⟨rfl, (List.append_nil _).symm⟩
  | short pkt m hm h3 hc =>
    have hno : ¬ (IsUpdateRequest m ∧ fw.sFlashCmdQueue.items.length < queueDepthFlash) :=
      fun hupd => absurd hupd.1.length (Nat.not_le.2 h3)
    rw [commandsAccepted_complete, if_neg hno, List.append_nil]
    exact ⟨rfl, rfl⟩
  | answered pkt m msg length hm h3 hc hmsg hlen =>
    refine ⟨rfl, ?_⟩
    have hbytes := hmsg (h64 pkt m (by simp))
    rw [commandsAccepted_append, commandsAccepted_dispatchEvents, List.append_nil,
      commandsAccepted_complete, ← hbytes]
    show FreeRtos.Queue.items (if msg.RequestsUpdate then _ else _) = _
    by_cases hupd : msg.RequestsUpdate
    · rw [if_pos hupd]
      by_cases hroom : fw.sFlashCmdQueue.items.length < queueDepthFlash
      · rw [if_pos ⟨(requestsUpdate_iff msg).1 hupd, hroom⟩, ← requestUpdateCmd_eq]
        exact (FreeRtos.Queue.send_of_lt hroom).2
      · rw [if_neg fun h => hroom h.2, FreeRtos.Queue.send_of_full hroom, List.append_nil]
    · rw [if_neg hupd, if_neg fun h => hupd ((requestsUpdate_iff msg).2 h.1), List.append_nil]

end RxStep

/-! ## Whole runs -/

/-- All messages reassembled so far fit the payload of a packet. -/
def MessagesFit (tr : List FwEvent) : Prop :=
  ∀ pkt m, .mctpComplete pkt m ∈ tr → m.length ≤ mctpMaxPayload

/-- The event reports no message that is longer than the payload of a packet. -/
def FwEvent.fits : FwEvent → Bool
  | mctpComplete _ m => m.length ≤ mctpMaxPayload
  | _ => true

theorem messagesFit_iff : MessagesFit tr ↔ ∀ e ∈ tr, e.fits = true := by
  constructor
  · intro h e he
    cases e with
    | mctpComplete pkt m => exact decide_eq_true (h pkt m he)
    | _ => rfl
  · exact fun h pkt m hm => of_decide_eq_true (h _ hm)

instance (tr : List FwEvent) : Decidable (MessagesFit tr) := decidable_of_iff' _ messagesFit_iff

theorem MessagesFit.of_append (h : MessagesFit (tr ++ evs)) : MessagesFit tr ∧ MessagesFit evs :=
  ⟨fun pkt m hm => h pkt m (List.mem_append_left _ hm),
    fun pkt m hm => h pkt m (List.mem_append_right _ hm)⟩

theorem rxStep_of_inv (hrx : RxInv fw tr) (hcount : fw.sCache.count = 2) {locals : TaskLocals}
    {raw : BmcRxMsg} {q : FreeRtos.Queue BmcRxMsg queueDepthBmc} (hp : fw.phase = .drainRx)
    (hq : fw.sBmcRxQueue.items = raw :: q.items) (hs : bmcMgrTask cfg fw locals = some (fw', evs)) :
    RxStep cfg fw raw q locals
      (openRun mctpFraming pldmMaxPayload ((packetsOf (rawsReceived tr)).map frameOf)) fw' evs :=
  rxStep_cases hp hq hcount hrx.holds (hrx.size raw (by rw [hq]; simp)) hs

/-- The responses of a run, as long as all messages fit. -/
structure Responses (fw : Firmware) (tr : List FwEvent) (due : List (List UInt8 × List UInt8)) :
    Prop where
  rx : RxInv fw tr
  count : fw.sCache.count = 2
  header : ∀ r ∈ due, r.1.length = 3
  sent : MessagesFit tr → framesSent tr = due.map frameOfResponse
  length : ∀ bytes length, .transmit bytes length ∈ tr → bytes.length = length.toNat

theorem Responses.step {due : List (List UInt8 × List UInt8)} (h : Responses fw tr due)
    (hs : (firmware cfg).step fw a = some (fw', evs)) :
    Responses fw' (tr ++ evs) (due ++ responsesDue fw a evs) := by
  refine ⟨h.rx.step (firmware_step_cases hs), (count_step (firmware_step_cases hs)).trans h.count,
    fun r hr => ?_, fun hfit => ?_, fun bytes length hmem => ?_⟩
  · rcases List.mem_append.1 hr with hold | hnew
    · exact h.header r hold
    · obtain ⟨bytes, hbytes, rfl⟩ := List.mem_map.1 hnew
      rcases firmware_rx_or_quiet hs with ⟨locals, raw, q, rfl, -, -⟩ | ⟨hquiet, -⟩
      · rfl
      · rw [answersDue_quiet fw a hquiet] at hbytes
        cases hbytes
  · rw [framesSent_append, h.sent hfit.of_append.1, List.map_append]
    rcases firmware_rx_or_quiet hs with ⟨locals, raw, q, rfl, hp, hq⟩ | ⟨hquiet, -⟩
    · rw [(rxStep_of_inv h.rx h.count hp hq hs).framesSent_eq hfit.of_append.2]
    · rw [framesSent_quiet hquiet, responsesDue, answersDue_quiet fw a hquiet]
      rfl
  · rcases List.mem_append.1 hmem with hold | hnew
    · exact h.length bytes length hold
    · rcases firmware_rx_or_quiet hs with ⟨locals, raw, q, rfl, hp, hq⟩ | ⟨hquiet, -⟩
      · exact (rxStep_of_inv h.rx h.count hp hq hs).length_transmit bytes length hnew
      · exact absurd (hquiet _ hnew) (by simp [FwEvent.isRequest])

theorem responses_of_exec {ticks : ℕ} {acts : List FwAction}
    (h : (firmware cfg).exec (firmwareInit cfg ticks) acts = some (fw, tr)) :
    Responses fw tr ((firmware cfg).observe responsesDue (firmwareInit cfg ticks) acts) :=
  Machine.invariant_observe ⟨rxInv_init cfg ticks, rfl, by simp, fun _ => rfl, by simp⟩
    (fun _ _ _ _ _ _ hI hs => hI.step hs) h

/-- As long as the reassembled messages fit a packet, what goes out after the MCTP header is, in order,
one answer to every message of at least three bytes, the one that is due in the state in which the
message was received, and nothing else. Dispatching never changes the sensor cache, and changes the
flash queue only in that it appends the command of each update that it accepts. -/
theorem bmcMgr_answers (cfg : TickConfig) (ticks : ℕ) (acts : List FwAction) (fw : Firmware)
    (tr : List FwEvent)
    (hrun : (firmware cfg).exec (firmwareInit cfg ticks) acts = some (fw, tr))
    (hfit : MessagesFit tr) :
    (framesSent tr).map (List.drop 4) =
      (firmware cfg).observe answersDue (firmwareInit cfg ticks) acts ∧
    (∀ bytes length, .transmit bytes length ∈ tr → bytes.length = length.toNat) ∧
    (firmware cfg).AllSteps (ChangesOnlyForUpdates cfg) (firmwareInit cfg ticks) acts := by
  have hresp := responses_of_exec hrun
  refine ⟨?_, hresp.length, ?_⟩
  · have hsnd : (fun fw a evs => (responsesDue fw a evs).map Prod.snd) = answersDue := by
      funext fw a evs
      simp [responsesDue, Function.comp_def]
    rw [← hsnd, Machine.observe_map, hresp.sent hfit]
    exact map_drop_frameOfResponse hresp.header
  · rintro pre a post s' tr' rfl he
    obtain ⟨s₁, tr₁, s₂, evs, tr₂, hpre, hs, -, rfl⟩ := Machine.exec_through.1 hrun
    obtain ⟨rfl, rfl⟩ : s₁ = s' ∧ tr₁ = tr' := by simpa using hpre.symm.trans he
    cases a with
    | bmcMgrTask locals =>
      intro fw' evs' hs'
      obtain ⟨rfl, rfl⟩ : s₂ = fw' ∧ evs = evs' := by simpa using hs.symm.trans hs'
      have hinv := responses_of_exec hpre
      rcases firmware_rx_or_quiet hs with ⟨locals', raw, q, heq, hp, hq⟩ | ⟨hquiet, hkeep⟩
      · cases heq
        exact (rxStep_of_inv hinv.rx hinv.count hp hq hs).changesOnlyForUpdates
          hfit.of_append.2.of_append.1
      · obtain ⟨-, hcache, hqueue⟩ := hkeep locals rfl
        rw [commandsAccepted_quiet s₁ hquiet, List.append_nil]
        exact ⟨hcache, congrArg _ hqueue⟩
    | _ => trivial

/-- A `GET_SENSOR_READING` for sensor 0, in one packet. -/
def sensorRequest : I2cWrite := ⟨[1, 8, 9, 0xC0, 0, 2, 0x11, 0], by decide⟩

/-- It arrives while the task waits. -/
def sensorRequestRun : List FwAction :=
  [.bmcI2cRxIsr sensorRequest (Vector.replicate _ 0), .waitTimeout, .bmcMgrTask zeroLocals]

theorem bmcMgr_answers_sensorRequest :
    ∃ fw tr, (firmware ⟨10, 100⟩).exec (firmwareInit ⟨10, 100⟩ 0) sensorRequestRun = some (fw, tr) ∧
      (framesSent tr).length = 1 ∧
      (framesSent tr).map (List.drop 4) =
        (firmware ⟨10, 100⟩).observe answersDue (firmwareInit ⟨10, 100⟩ 0) sensorRequestRun :=
  ⟨_, _, rfl, by decide +kernel,
    (bmcMgr_answers ⟨10, 100⟩ 0 sensorRequestRun _ _ rfl (by decide +kernel)).1⟩

end NicObFw
