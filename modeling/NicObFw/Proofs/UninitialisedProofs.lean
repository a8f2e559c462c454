import NicObFw.Proofs.AnswerProofs
import NicObFw.Proofs.AddressProofs

/-!
# Proofs: uninitialised memory

Two runs that differ only in what the automatic objects hold when they are allocated post the same
commands and send the same frames, up to the three header bytes that `pldm_build_response` does not set
(`bmcMgr_sameFrames_iff`).
-/

namespace NicObFw

open Memory Reassembly

/-! ## The same input -/

/-- The actions differ only in the initial contents of automatic objects. -/
inductive SameInput : FwAction → FwAction → Prop
  | bmcI2cRxIsr (w : I2cWrite) (msgData msgData' : Vector UInt8 smbMaxBlockSize) :
    SameInput (.bmcI2cRxIsr w msgData) (.bmcI2cRxIsr w msgData')
  | bmcMgrTask (locals locals' : TaskLocals) :
    SameInput (.bmcMgrTask locals) (.bmcMgrTask locals')
  | refl (a : FwAction) : SameInput a a

/-- The headers that the responses of a step go out with. -/
def headersUsed (fw : Firmware) (a : FwAction) (evs : List FwEvent) : List (List UInt8) :=
  (responsesDue fw a evs).map Prod.fst

/-! ## The same state and the same events -/

/-- The raw messages agree in everything that the ISR wrote. -/
def SameFrame (raw raw' : BmcRxMsg) : Prop := raw'.length = raw.length ∧ frameOf raw' = frameOf raw

/-- The states agree, but for memory that was not written: in the raw messages behind their frames, and
in the reassembly state behind the open run. -/
structure SameButMemory (fw fw' : Firmware) : Prop where
  queued : List.Forall₂ SameFrame fw.sBmcRxQueue.items fw'.sBmcRxQueue.items
  size : ∀ raw ∈ fw.sBmcRxQueue.items, raw.length.toNat ≤ smbMaxBlockSize
  holds : ∃ run, Holds fw.mctp run ∧ Holds fw'.mctp run
  count : fw.sCache.count = 2
  rest : fw' = { fw with sBmcRxQueue := fw'.sBmcRxQueue, mctp := fw'.mctp }

/-- The events agree in everything but unwritten memory and the header of a response. -/
inductive SameEvent : FwEvent → FwEvent → Prop
  | rxReceived (raw raw' : BmcRxMsg) : SameEvent (.rxReceived raw) (.rxReceived raw')
  | mctpComplete (pkt pkt' : MctpPacket) (message : List UInt8) :
    SameEvent (.mctpComplete pkt message) (.mctpComplete pkt' message)
  | transmit (bytes bytes' : List UInt8) (length length' : UInt16)
      (h : bytes'.drop 4 = bytes.drop 4) : SameEvent (.transmit bytes length) (.transmit bytes' length')
  | refl (e : FwEvent) : SameEvent e e

variable {cfg : TickConfig} {fw₁ fw₂ fw' : Firmware} {tr₁ tr₂ evs : List FwEvent} {a : FwAction}

theorem sameEvents_refl (evs : List FwEvent) : List.Forall₂ SameEvent evs evs :=
  List.forall₂_same.2 fun e _ => .refl e

/-- What is read off the events one by one, and does not look at unwritten memory, is the same. -/
theorem filterMap_same {β : Type*} {f : FwEvent → Option β}
    (hf : ∀ {e e'}, SameEvent e e' → f e' = f e) (h : List.Forall₂ SameEvent tr₁ tr₂) :
    tr₂.filterMap f = tr₁.filterMap f := by
  induction h with
  | nil => rfl
  | cons he _ ih => rw [List.filterMap_cons, List.filterMap_cons, hf he, ih]

theorem commandsPosted_same (h : List.Forall₂ SameEvent tr₁ tr₂) :
    commandsPosted tr₂ = commandsPosted tr₁ :=
  filterMap_same (fun he => by cases he <;> rfl) h

theorem framesSent_same (h : List.Forall₂ SameEvent tr₁ tr₂) :
    (framesSent tr₂).map (List.drop 4) = (framesSent tr₁).map (List.drop 4) := by
  rw [framesSent, framesSent, List.map_filterMap, List.map_filterMap]
  refine filterMap_same (fun he => ?_) h
  cases he with
  | transmit bytes bytes' length length' h => exact congrArg some h
  | _ => rfl

theorem messagesFit_same (h : List.Forall₂ SameEvent tr₁ tr₂) (hfit : MessagesFit tr₁) :
    MessagesFit tr₂ := by
  rw [messagesFit_iff] at hfit ⊢
  induction h with
  | nil => simp
  | cons he _ ih =>
    rw [List.forall_mem_cons] at hfit ⊢
    refine ⟨?_, ih hfit.2⟩
    cases he with
    | mctpComplete pkt pkt' message => exact hfit.1
    | refl e => exact hfit.1
    | _ => rfl

/-! ## One step -/

/-- A turn of the task that receives no raw message looks neither at automatic objects nor at the
reassembly state. -/
theorem bmcMgrTask_frame (q : FreeRtos.Queue BmcRxMsg queueDepthBmc) (mctp : MctpState)
    (locals locals' : TaskLocals) (hq : fw₁.phase = .drainRx → fw₁.sBmcRxQueue.items = [])
    (hq' : fw₁.phase = .drainRx → q.items = []) :
    bmcMgrTask cfg { fw₁ with sBmcRxQueue := q, mctp } locals' =
      (bmcMgrTask cfg fw₁ locals).map fun r => ({ r.1 with sBmcRxQueue := q, mctp }, r.2) := by
  unfold bmcMgrTask
  cases hph : fw₁.phase with
  | drainRx =>
    simp only [rtosQueueReceive_nil (hq hph), rtosQueueReceive_nil (hq' hph)]
    rfl
  | wait =>
    simp only
    split <;> rfl
  | drainNic =>
    simp only
    split <;> rfl
  | liveness =>
    show (if livenessCheck cfg fw₁ then _ else _) = Option.map _ _
    split <;> rfl

/-- The steps of the other parties look at neither. -/
theorem firmware_step_frame (cfg : TickConfig) (fw₁ : Firmware)
    (q : FreeRtos.Queue BmcRxMsg queueDepthBmc) (mctp : MctpState) (a : FwAction)
    (hisr : ∀ w msgData, a ≠ .bmcI2cRxIsr w msgData) (htask : ∀ locals, a ≠ .bmcMgrTask locals) :
    (firmware cfg).step { fw₁ with sBmcRxQueue := q, mctp } a =
      ((firmware cfg).step fw₁ a).map fun r => ({ r.1 with sBmcRxQueue := q, mctp }, r.2) := by
  cases a with
  | bmcI2cRxIsr w msgData => exact absurd rfl (hisr w msgData)
  | bmcMgrTask locals => exact absurd rfl (htask locals)
  | nicPost evt => rfl
  | waitTimeout =>
    simp only [firmware]
    split <;> rfl
  | clock ticks => rfl
  | sensorStore sensorId rec => rfl
  | flashReceive =>
    simp only [firmware]
    split <;> rfl
  | flashFinish =>
    simp only [firmware]
    split <;> rfl

theorem firmware_step_rxIsr (fw : Firmware) (w : I2cWrite) (msgData : Vector UInt8 smbMaxBlockSize) :
    (firmware cfg).step fw (.bmcI2cRxIsr w msgData) =
      some ({ fw with sBmcRxQueue := (fw.sBmcRxQueue.send (bmcI2cRxMsg msgData w).1).2 },
        [.i2cRx w (fw.sBmcRxQueue.send (bmcI2cRxMsg msgData w).1).1]) := by
  simp only [firmware, bmcI2cRxIsr, rtosQueueSendFromIsr, rtosQueueSend, sent_beq_ok]

/-- Steps off the receive path leave the RX queue and the reassembly state alone. -/
theorem firmware_step_keeps (hs : (firmware cfg).step fw₁ a = some (fw', evs))
    (hisr : ∀ w msgData, a ≠ .bmcI2cRxIsr w msgData)
    (hrx : ∀ locals, a = .bmcMgrTask locals → fw₁.phase = .drainRx → fw₁.sBmcRxQueue.items = []) :
    fw'.sBmcRxQueue = fw₁.sBmcRxQueue ∧ fw'.mctp = fw₁.mctp := by
  cases firmware_step_cases hs with
  | rxIsr w msgData => exact absurd rfl (hisr w msgData)
  | rx locals raw q fq dispatched hp hq => exact absurd (hq.symm.trans (hrx locals rfl hp)) (by simp)
  | _ => exact ⟨rfl, rfl⟩

namespace SameButMemory

theorem exists_eq (h : SameButMemory fw₁ fw₂) :
    ∃ q mctp, fw₂ = { fw₁ with sBmcRxQueue := q, mctp } := ⟨_, _, h.rest⟩

theorem quiet (h : SameButMemory fw₁ fw₂) (hs : (firmware cfg).step fw₁ a = some (fw', evs))
    {b : FwAction} (hisr : ∀ w msgData, a ≠ .bmcI2cRxIsr w msgData)
    (hrx : ∀ locals, a = .bmcMgrTask locals → fw₁.phase = .drainRx → fw₁.sBmcRxQueue.items = [])
    (hb : (firmware cfg).step fw₂ b = ((firmware cfg).step fw₁ a).map fun r =>
      ({ r.1 with sBmcRxQueue := fw₂.sBmcRxQueue, mctp := fw₂.mctp }, r.2)) :
    ∃ fw₂' evs', (firmware cfg).step fw₂ b = some (fw₂', evs') ∧ SameButMemory fw' fw₂' ∧
      List.Forall₂ SameEvent evs evs' := by
  obtain ⟨hq, hm⟩ := firmware_step_keeps hs hisr hrx
  refine ⟨_, evs, by rw [hb, hs]; rfl, ⟨?_, ?_, ?_, ?_, rfl⟩, sameEvents_refl evs⟩
  · rw [hq]
    exact h.queued
  · rw [hq]
    exact h.size
  · rw [hm]
    exact h.holds
  · rw [count_step (firmware_step_cases hs)]
    exact h.count

/-- The ISR posts the same frame, whatever was in `msg.data`. -/
theorem rxIsr (h : SameButMemory fw₁ fw₂) (w : I2cWrite)
    (msgData msgData' : Vector UInt8 smbMaxBlockSize)
    (hs : (firmware cfg).step fw₁ (.bmcI2cRxIsr w msgData) = some (fw', evs)) :
    ∃ fw₂' evs', (firmware cfg).step fw₂ (.bmcI2cRxIsr w msgData') = some (fw₂', evs') ∧
      SameButMemory fw' fw₂' ∧ List.Forall₂ SameEvent evs evs' := by
  obtain ⟨hlen, hframe, -⟩ := bmcI2cRxMsg_spec msgData w
  obtain ⟨hlen', hframe', -⟩ := bmcI2cRxMsg_spec msgData' w
  have hsame : SameFrame (bmcI2cRxMsg msgData w).1 (bmcI2cRxMsg msgData' w).1 :=
    ⟨UInt16.toNat_inj.1 (hlen'.trans hlen.symm), hframe'.trans hframe.symm⟩
  obtain ⟨htaken, hqueued⟩ := FreeRtos.Queue.forall₂_send h.queued hsame
  obtain ⟨q, mctp, rfl⟩ := h.exists_eq
  cases firmware_step_cases hs with
  | rxIsr =>
    refine ⟨_, _, firmware_step_rxIsr _ w msgData', ⟨hqueued, ?_, h.holds, h.count, rfl⟩, ?_⟩
    · intro raw hraw
      rcases FreeRtos.Queue.mem_items_send hraw with hold | rfl
      · exact h.size raw hold
      · rw [hlen, length_clamped]
        exact Nat.min_le_left _ _
    · rw [htaken]
      exact sameEvents_refl _

section Received

variable {raw raw' : BmcRxMsg} {q q' : FreeRtos.Queue BmcRxMsg queueDepthBmc}

theorem received (h : SameButMemory fw₁ fw₂) (cfg : TickConfig)
    (hq : fw₁.sBmcRxQueue.items = raw :: q.items)
    (hq' : fw₂.sBmcRxQueue.items = raw' :: q'.items) (locals locals' : TaskLocals)
    (fq : FreeRtos.Queue FlashCmd queueDepthFlash) :
    SameButMemory { receivedRaw cfg fw₁ raw q locals with sFlashCmdQueue := fq }
      { receivedRaw cfg fw₂ raw' q' locals' with sFlashCmdQueue := fq } := by
  have hqueued := h.queued
  rw [hq, hq', List.forall₂_cons] at hqueued
  obtain ⟨⟨hlen, hframe⟩, htail⟩ := hqueued
  obtain ⟨run, hrun, hrun'⟩ := h.holds
  have hsize := h.size
  rw [hq] at hsize
  have h32 := hsize raw (by simp)
  have hnext : nextRun run raw' = nextRun run raw := by simp only [nextRun, hlen, hframe]
  have h32' : raw'.length.toNat ≤ smbMaxBlockSize := by rwa [hlen]
  have hnext' := mctpProcessRx_nextRun hrun' h32' locals'.mctpPkt
  rw [hnext] at hnext'
  obtain ⟨q₂, mctp₂, rfl⟩ := h.exists_eq
  exact ⟨htail, fun r hr => hsize r (List.mem_cons_of_mem _ hr),
    ⟨nextRun run raw, mctpProcessRx_nextRun hrun h32 locals.mctpPkt, hnext'⟩, h.count, rfl⟩

/-- What the raw message completes is the same, and so are the posted command and the response behind
the header. -/
theorem rxStep_same (h : SameButMemory fw₁ fw₂) (hq : fw₁.sBmcRxQueue.items = raw :: q.items)
    (hq' : fw₂.sBmcRxQueue.items = raw' :: q'.items) {locals locals' : TaskLocals}
    {run : List (List UInt8)} {fw₁' fw₂' : Firmware} {evs' : List FwEvent}
    (hmessage : completedMessage run raw' = completedMessage run raw)
    (hs : RxStep cfg fw₁ raw q locals run fw₁' evs) (hs' : RxStep cfg fw₂ raw' q' locals' run fw₂' evs')
    (hfit : MessagesFit evs) : SameButMemory fw₁' fw₂' ∧ List.Forall₂ SameEvent evs evs' := by
  have hcache : fw₂.sCache = fw₁.sCache := by rw [h.rest]
  have hflash : fw₂.sFlashCmdQueue = fw₁.sFlashCmdQueue := by rw [h.rest]
  have hreceived := h.received cfg hq hq' locals locals'
  have hkeep : SameButMemory (receivedRaw cfg fw₁ raw q locals)
      (receivedRaw cfg fw₂ raw' q' locals') := by
    obtain ⟨q₂, mctp₂, rfl⟩ := h.exists_eq
    exact hreceived fw₁.sFlashCmdQueue
  cases hs with
  | incomplete hm hc =>
    rw [hm] at hmessage
    cases hs' with
    | incomplete hm' hc' =>
      exact ⟨hkeep, .cons (.rxReceived raw raw') .nil⟩
    | short pkt' m' hm' => exact absurd (hmessage.symm.trans hm') (by simp)
    | answered pkt' m' msg' length' hm' => exact absurd (hmessage.symm.trans hm') (by simp)
  | short pkt m hm h3 hc =>
    rw [hm] at hmessage
    cases hs' with
    | incomplete hm' hc' => exact absurd (hmessage.symm.trans hm') (by simp)
    | short pkt' m' hm' h3' hc' =>
      obtain rfl : m = m' := Option.some.inj (hmessage.symm.trans hm')
      exact ⟨hkeep, .cons (.rxReceived raw raw') (.cons (.mctpComplete pkt pkt' m) .nil)⟩
    | answered pkt' m' msg' length' hm' h3' =>
      obtain rfl : m = m' := Option.some.inj (hmessage.symm.trans hm')
      omega
  | answered pkt m msg length hm h3 hc hmsg hlen =>
    rw [hm] at hmessage
    cases hs' with
    | incomplete hm' hc' => exact absurd (hmessage.symm.trans hm') (by simp)
    | short pkt' m' hm' h3' hc' =>
      obtain rfl : m = m' := Option.some.inj (hmessage.symm.trans hm')
      omega
    | answered pkt' m' msg' length' hm' h3' hc' hmsg' hlen' =>
      obtain rfl : m = m' := Option.some.inj (hmessage.symm.trans hm')
      have h64 : m.length ≤ mctpMaxPayload := hfit pkt m (by simp)
      have hbytes : msg'.messageBytes = msg.messageBytes := (hmsg' h64).trans (hmsg h64).symm
      have hcmd : requestUpdateCmd msg' = requestUpdateCmd msg := by
        rw [requestUpdateCmd_eq, requestUpdateCmd_eq, hbytes]
      have hupd : msg'.RequestsUpdate ↔ msg.RequestsUpdate := by
        rw [requestsUpdate_iff, requestsUpdate_iff, hbytes]
      simp only [hcache, hflash, hbytes, hcmd, hupd]
      refine ⟨hreceived _, ?_⟩
      refine List.rel_append (.cons (.rxReceived raw raw') (.cons (.mctpComplete pkt pkt' m) .nil)) ?_
      simp only [dispatchEvents, hcmd, hupd]
      exact List.rel_append (sameEvents_refl _) (.cons (.transmit _ _ _ _ rfl) .nil)

theorem rx (h : SameButMemory fw₁ fw₂) (locals locals' : TaskLocals) (hp : fw₁.phase = .drainRx)
    (hq : fw₁.sBmcRxQueue.items = raw :: q.items)
    (hs : bmcMgrTask cfg fw₁ locals = some (fw', evs)) (hfit : MessagesFit evs) :
    ∃ fw₂' evs', bmcMgrTask cfg fw₂ locals' = some (fw₂', evs') ∧ SameButMemory fw' fw₂' ∧
      List.Forall₂ SameEvent evs evs' := by
  have hqueued := h.queued
  rw [hq, List.forall₂_cons_left_iff] at hqueued
  obtain ⟨raw', rest, ⟨hlen, hframe⟩, -, hq'⟩ := hqueued
  obtain ⟨q', -, rfl⟩ := rtosQueueReceive_cons hq'
  have h32 := h.size raw (by rw [hq]; simp)
  obtain ⟨run, hrun, hrun'⟩ := h.holds
  have hmessage : completedMessage run raw' = completedMessage run raw := by
    simp only [completedMessage, hlen, hframe]
  have hp' : fw₂.phase = .drainRx := by
    rw [h.rest]
    exact hp
  have hcount : fw₂.sCache.count = 2 := by
    rw [h.rest]
    exact h.count
  obtain ⟨fw₂', evs', hs'⟩ : ∃ fw₂' evs', bmcMgrTask cfg fw₂ locals' = some (fw₂', evs') :=
    ⟨_, _, bmcMgrTask_rx cfg locals' hp' hq'⟩
  exact ⟨fw₂', evs', hs', h.rxStep_same hq hq' hmessage (rxStep_cases hp hq h.count hrun h32 hs)
    (rxStep_cases hp' hq' hcount hrun' (by rw [hlen]; exact h32) hs') hfit⟩

end Received

theorem step (h : SameButMemory fw₁ fw₂) {b : FwAction} (hab : SameInput a b)
    (hs : (firmware cfg).step fw₁ a = some (fw', evs)) (hfit : MessagesFit evs) :
    ∃ fw₂' evs', (firmware cfg).step fw₂ b = some (fw₂', evs') ∧ SameButMemory fw' fw₂' ∧
      List.Forall₂ SameEvent evs evs' := by
  have htask : ∀ locals locals', a = .bmcMgrTask locals → b = .bmcMgrTask locals' →
      ∃ fw₂' evs', (firmware cfg).step fw₂ b = some (fw₂', evs') ∧ SameButMemory fw' fw₂' ∧
        List.Forall₂ SameEvent evs evs' := by
    rintro locals locals' rfl rfl
    rcases firmware_rx_or_quiet hs with ⟨locals₁, raw, q, -, hp, hq⟩ | ⟨hquiet, hnone⟩
    · exact h.rx locals locals' hp hq hs hfit
    · have hnil := (hnone locals rfl).1
      refine h.quiet hs (by simp) (fun _ _ => hnil) ?_
      have hnil' : fw₁.phase = .drainRx → fw₂.sBmcRxQueue.items = [] :=
        fun hp => by simpa [hnil hp] using h.queued
      obtain ⟨q, mctp, rfl⟩ := h.exists_eq
      exact bmcMgrTask_frame q mctp locals locals' hnil hnil'
  cases hab with
  | bmcI2cRxIsr w msgData msgData' => exact h.rxIsr w msgData msgData' hs
  | bmcMgrTask locals locals' => exact htask locals locals' rfl rfl
  | refl =>
    cases a with
    | bmcI2cRxIsr w msgData => exact h.rxIsr w msgData msgData hs
    | bmcMgrTask locals => exact htask locals locals rfl rfl
    | _ =>
      refine h.quiet hs (by simp) (by simp) ?_
      obtain ⟨q, mctp, rfl⟩ := h.exists_eq
      exact firmware_step_frame cfg fw₁ q mctp _ (by simp) (by simp)

end SameButMemory

/-! ## Whole runs -/

theorem sameButMemory_init (cfg : TickConfig) (ticks : ℕ) :
    SameButMemory (firmwareInit cfg ticks) (firmwareInit cfg ticks) where
  queued := .nil
  size := by simp [firmwareInit]
  holds := ⟨[], holds_init, holds_init⟩
  count := rfl
  rest := rfl

/-- Every run can be repeated with other contents of the automatic objects, and the events are the
same but for the headers of the responses. -/
theorem firmware_sameEvents {ticks : ℕ} {acts₁ acts₂ : List FwAction} {fw : Firmware}
    (hrun : (firmware cfg).exec (firmwareInit cfg ticks) acts₁ = some (fw, tr₁))
    (hsame : List.Forall₂ SameInput acts₁ acts₂) (hfit : MessagesFit tr₁) :
    ∃ fw' tr₂, (firmware cfg).exec (firmwareInit cfg ticks) acts₂ = some (fw', tr₂) ∧
      List.Forall₂ SameEvent tr₁ tr₂ := by
  have hstep : ∀ fw₁ tr₁ fw₂ tr₂ a b fw₁' evs,
      SameButMemory fw₁ fw₂ ∧ List.Forall₂ SameEvent tr₁ tr₂ → SameInput a b →
      (firmware cfg).step fw₁ a = some (fw₁', evs) → MessagesFit (tr₁ ++ evs) →
      ∃ fw₂' evs', (firmware cfg).step fw₂ b = some (fw₂', evs') ∧
        SameButMemory fw₁' fw₂' ∧ List.Forall₂ SameEvent (tr₁ ++ evs) (tr₂ ++ evs') := by
    rintro fw₁ tr₁ fw₂ tr₂ a b fw₁' evs ⟨hR, hev⟩ hab hs hfit
    obtain ⟨fw₂', evs', hs', hR', hev'⟩ := hR.step hab hs hfit.of_append.2
    exact ⟨fw₂', evs', hs', hR', List.rel_append hev hev'⟩
  obtain ⟨fw', tr₂, hrun', -, hev⟩ := Machine.lockstep MessagesFit
    (fun fw₁ tr₁ fw₂ tr₂ => SameButMemory fw₁ fw₂ ∧ List.Forall₂ SameEvent tr₁ tr₂)
    (fun _ _ h => h.of_append.1) hstep hsame
    (⟨sameButMemory_init cfg ticks, .nil⟩ : _ ∧ List.Forall₂ SameEvent [] []) hrun hfit
  exact ⟨fw', tr₂, hrun', hev⟩

/-- Responses with headers of three bytes are sent as the same frames if they have the same headers and
the same bytes. -/
theorem map_frameOfResponse_inj {due due' : List (List UInt8 × List UInt8)}
    (h : ∀ r ∈ due, r.1.length = 3) (h' : ∀ r ∈ due', r.1.length = 3)
    (hbytes : due.map Prod.snd = due'.map Prod.snd) :
    due.map frameOfResponse = due'.map frameOfResponse ↔ due.map Prod.fst = due'.map Prod.fst := by
  induction due generalizing due' with
  | nil => cases due' <;> simp_all
  | cons r due ih =>
    cases due' with
    | nil => simp at hbytes
    | cons r' due' =>
      rw [List.map_cons, List.map_cons, List.cons.injEq] at hbytes
      have hr : frameOfResponse r = frameOfResponse r' ↔ r.1 = r'.1 := by
        rw [frameOfResponse, frameOfResponse, hbytes.1]
        exact List.append_left_inj _
      rw [List.forall_mem_cons] at h h'
      simp only [List.map_cons, List.cons.injEq, hr, ih h.2 h'.2 hbytes.2]

/-- Take any run, and a second one that differs only in the initial contents of the automatic objects.
If the reassembled messages fit a packet, both put the same commands in the flash queue. They send the
same frames exactly if the headers that the responses find in the memory of `mctp_resp` are the same. -/
theorem bmcMgr_sameFrames_iff (cfg : TickConfig) (ticks : ℕ) (acts₁ acts₂ : List FwAction)
    (fw₁ : Firmware) (tr₁ : List FwEvent)
    (hrun : (firmware cfg).exec (firmwareInit cfg ticks) acts₁ = some (fw₁, tr₁))
    (hsame : List.Forall₂ SameInput acts₁ acts₂) (hfit : MessagesFit tr₁) :
    ∃ fw₂ tr₂, (firmware cfg).exec (firmwareInit cfg ticks) acts₂ = some (fw₂, tr₂) ∧
      commandsPosted tr₁ = commandsPosted tr₂ ∧
      (framesSent tr₁ = framesSent tr₂ ↔
        (firmware cfg).observe headersUsed (firmwareInit cfg ticks) acts₁ =
          (firmware cfg).observe headersUsed (firmwareInit cfg ticks) acts₂) := by
  obtain ⟨fw₂, tr₂, hrun', hev⟩ := firmware_sameEvents hrun hsame hfit
  refine ⟨fw₂, tr₂, hrun', (commandsPosted_same hev).symm, ?_⟩
  have h₁ := responses_of_exec hrun
  have h₂ := responses_of_exec hrun'
  have hbytes := framesSent_same hev
  rw [h₁.sent hfit, h₂.sent (messagesFit_same hev hfit)] at hbytes ⊢
  rw [map_drop_frameOfResponse h₁.header, map_drop_frameOfResponse h₂.header] at hbytes
  have hheaders : ∀ acts, (firmware cfg).observe headersUsed (firmwareInit cfg ticks) acts =
      ((firmware cfg).observe responsesDue (firmwareInit cfg ticks) acts).map Prod.fst :=
    Machine.observe_map responsesDue Prod.fst (firmwareInit cfg ticks)
  rw [hheaders, hheaders]
  exact map_frameOfResponse_inj h₁.header h₂.header hbytes.symm

/-- Automatic objects full of ones, apart from the header of `mctp_resp`. -/
def filledLocals : TaskLocals where
  mctpPkt := ⟨1, 1, 1, 1, 1, 1, Vector.replicate _ 1⟩
  pldm := ⟨1, 1, 1, 1, 1, 1, Vector.replicate _ 1⟩
  respBuf := Vector.replicate _ 1
  send := ⟨⟨0, 0, 0, 1, 1, 1, Vector.replicate _ 1⟩, Vector.replicate _ 1⟩

/-- `sensorRequestRun` with other contents of the automatic objects. -/
def sensorRequestRunWith (locals : TaskLocals) : List FwAction :=
  [.bmcI2cRxIsr sensorRequest (Vector.replicate _ 1), .waitTimeout, .bmcMgrTask locals]

theorem sensorRequestRun_sameInput (locals : TaskLocals) :
    List.Forall₂ SameInput sensorRequestRun (sensorRequestRunWith locals) :=
  .cons (.bmcI2cRxIsr _ _ _) (.cons (.refl _) (.cons (.bmcMgrTask _ locals) .nil))

theorem bmcMgr_sameFrames_filled :
    ∃ fw₁ tr₁ fw₂ tr₂,
      (firmware ⟨10, 100⟩).exec (firmwareInit ⟨10, 100⟩ 0) sensorRequestRun = some (fw₁, tr₁) ∧
      (firmware ⟨10, 100⟩).exec (firmwareInit ⟨10, 100⟩ 0) (sensorRequestRunWith filledLocals) =
        some (fw₂, tr₂) ∧ framesSent tr₁ ≠ [] ∧ framesSent tr₁ = framesSent tr₂ := by
  obtain ⟨fw₂, tr₂, hrun, -, hiff⟩ := bmcMgr_sameFrames_iff ⟨10, 100⟩ 0 sensorRequestRun
    (sensorRequestRunWith filledLocals) _ _ rfl (sensorRequestRun_sameInput filledLocals)
    (by decide +kernel)
  exact ⟨_, _, fw₂, tr₂, rfl, hrun, by decide +kernel, hiff.2 (by decide +kernel)⟩

/-- The same request, answered with two different frames: the first three bytes are whatever the memory
of `mctp_resp` held. -/
theorem uninitialised_header_sent :
    ∃ fw₁ tr₁ fw₂ tr₂,
      List.Forall₂ SameInput sensorRequestRun (sensorRequestRunWith matchingLocals) ∧
      (firmware ⟨10, 100⟩).exec (firmwareInit ⟨10, 100⟩ 0) sensorRequestRun = some (fw₁, tr₁) ∧
      (firmware ⟨10, 100⟩).exec (firmwareInit ⟨10, 100⟩ 0) (sensorRequestRunWith matchingLocals) =
        some (fw₂, tr₂) ∧
      MessagesFit tr₁ ∧ MessagesFit tr₂ ∧ framesSent tr₁ ≠ framesSent tr₂ :=
  ⟨_, _, _, _, sensorRequestRun_sameInput matchingLocals, rfl, rfl, by decide +kernel,
    by decide +kernel, by decide +kernel⟩

end NicObFw
