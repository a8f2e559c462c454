import NicObFw.Proofs.AnswerProofs

/-!
# Proofs: the header of a response

Nothing carries the addresses of a request from `mctp_process_rx` to `mctp_frame_tx`: a `pldm_msg_t` has
no room for them, and `pldm_build_response` does not set those of `mctp_resp`. A response goes back to
the requester only if the uninitialised packet happens to hold the right bytes.
-/

namespace NicObFw

open Memory Reassembly

/-- A frame has the header version of the request that it answers, the end points the other way round,
and the tag of the request. The request is the one completed by the raw message received last. -/
def ReturnsToRequester (pre : List FwEvent) : FwEvent → Prop
  | .transmit frame _ =>
    ∀ raw ∈ (rawsReceived pre).getLast?,
      frame.getD 0 0 = raw.hdrVer ∧ frame.getD 1 0 = raw.srcEid ∧ frame.getD 2 0 = raw.destEid ∧
        frame.getD 3 0 &&& mctpTagMask = raw.flagsSeq &&& mctpTagMask
  | _ => True

/-- The raw message that completes a request in this step. -/
def completesRequest (fw : Firmware) (locals : TaskLocals) (raw : BmcRxMsg) : Prop :=
  fw.phase = .drainRx ∧ fw.sBmcRxQueue.items.head? = some raw ∧
    (protocolHdlrProcessRx fw.mctp raw locals.mctpPkt locals.pldm).complete = true

/-- If the step completes a request, the memory that `mctp_resp` is allocated in happens to hold the
header of its answer, and the tag of the request is zero. -/
def HeaderLeftInMemory (fw : Firmware) (_ : List FwEvent) : FwAction → Prop
  | .bmcMgrTask locals =>
    ∀ raw, completesRequest fw locals raw →
      locals.send.mctpResp.hdrVersion = raw.hdrVer ∧ locals.send.mctpResp.destEid = raw.srcEid ∧
        locals.send.mctpResp.srcEid = raw.destEid ∧ raw.flagsSeq &&& mctpTagMask = 0
  | _ => True

variable {cfg : TickConfig} {fw fw' : Firmware} {tr evs : List FwEvent} {a : FwAction}

/-- Events other than a transmission say nothing about addresses. -/
theorem returnsToRequester_quiet (h : ∀ bytes length, .transmit bytes length ∉ evs) :
    Trace.EachGiven (fun pre e => ReturnsToRequester (tr ++ pre) e) evs := by
  rintro pre e post rfl
  cases e with
  | transmit bytes length => exact absurd (by simp) (h bytes length)
  | _ => trivial

/-- The header that a response leaves with, and the addresses of the request `raw`. -/
theorem responseFrame_returns_iff (locals : SendLocals) (message : List UInt8) (answer : Answer)
    (raw : BmcRxMsg) :
    let frame := responseFrame locals message answer
    (frame.getD 0 0 = raw.hdrVer ∧ frame.getD 1 0 = raw.srcEid ∧ frame.getD 2 0 = raw.destEid ∧
      frame.getD 3 0 &&& mctpTagMask = raw.flagsSeq &&& mctpTagMask) ↔
    (locals.mctpResp.hdrVersion = raw.hdrVer ∧ locals.mctpResp.destEid = raw.srcEid ∧
      locals.mctpResp.srcEid = raw.destEid ∧ raw.flagsSeq &&& mctpTagMask = 0) := by
  have hflags : (mctpFlagSom ||| mctpFlagEom) &&& mctpTagMask = 0 := by decide
  simp only [responseFrame, List.cons_append, List.nil_append, List.getD_cons_zero,
    List.getD_cons_succ, hflags, eq_comm (a := (0 : UInt8))]

/-- A raw message: its response returns to the requester exactly if the memory holds the right header. -/
theorem RxStep.returns_iff {raw : BmcRxMsg} {q : FreeRtos.Queue BmcRxMsg queueDepthBmc}
    {locals : TaskLocals} {run : List (List UInt8)} (h : RxStep cfg fw raw q locals run fw' evs)
    (hp : fw.phase = .drainRx) (hq : fw.sBmcRxQueue.items = raw :: q.items) :
    Trace.EachGiven (fun pre e => ReturnsToRequester (tr ++ pre) e) evs ↔
      HeaderLeftInMemory fw tr (.bmcMgrTask locals) := by
  have hhead : ∀ r, fw.sBmcRxQueue.items.head? = some r ↔ r = raw := by
    intro r
    rw [hq, List.head?_cons, Option.some.injEq, eq_comm]
  cases h with
  | incomplete hm hc =>
    refine iff_of_true (returnsToRequester_quiet (by simp)) fun r hr => ?_
    rw [((hhead r).1 hr.2.1), completesRequest, hc] at hr
    exact absurd hr.2.2 (by simp)
  | short pkt m hm h3 hc =>
    refine iff_of_true (returnsToRequester_quiet (by simp)) fun r hr => ?_
    rw [((hhead r).1 hr.2.1), completesRequest, hc] at hr
    exact absurd hr.2.2 (by simp)
  | answered pkt m msg length hm h3 hc hmsg hlen =>
    rw [dispatchEvents, ← List.append_assoc, Trace.eachGiven_snoc, and_iff_right]
    · have hlast : (rawsReceived (tr ++ ([.rxReceived raw, .mctpComplete pkt m] ++
          if msg.RequestsUpdate then
            [FwEvent.flashSent (requestUpdateCmd msg)
              (if hasRoom fw.sFlashCmdQueue then .ok else .full)]
          else []))).getLast? = some raw := by
        rw [rawsReceived_append]
        split <;> simp [rawsReceived]
      simp only [ReturnsToRequester, hlast, Option.mem_def, Option.some.injEq, forall_eq',
        responseFrame_returns_iff, HeaderLeftInMemory]
      constructor
      · intro hchance r hr
        obtain rfl := (hhead r).1 hr.2.1
        exact hchance
      · exact fun hchance => hchance raw ⟨hp, (hhead raw).2 rfl, hc⟩
    · refine returnsToRequester_quiet fun bytes len hmem => ?_
      split at hmem <;> simp at hmem

/-- Every response of a run goes back to its requester exactly if, in every step that completes a
request, the memory of the response packet happens to hold the right header. -/
theorem bmcMgr_returnsToRequester_iff (cfg : TickConfig) (ticks : ℕ) (acts : List FwAction)
    (fw : Firmware) (tr : List FwEvent)
    (hrun : (firmware cfg).exec (firmwareInit cfg ticks) acts = some (fw, tr)) :
    Trace.EachGiven ReturnsToRequester tr ↔
      (firmware cfg).AllSteps HeaderLeftInMemory (firmwareInit cfg ticks) acts := by
  refine Machine.eachGiven_iff_allSteps
    (I := fun fw tr => RxInv fw tr ∧ fw.sCache.count = 2) ⟨rxInv_init cfg ticks, rfl⟩ ?_ ?_ hrun
  · exact fun fw tr a fw' evs hI hs =>
      ⟨hI.1.step (firmware_step_cases hs), (count_step (firmware_step_cases hs)).trans hI.2⟩
  · intro fw tr a fw' evs hI hs
    rcases firmware_rx_or_quiet hs with ⟨locals, raw, q, rfl, hp, hq⟩ | ⟨hquiet, hnone⟩
    · exact (rxStep_of_inv hI.1 hI.2 hp hq hs).returns_iff hp hq
    · refine iff_of_true (returnsToRequester_quiet fun bytes length hmem => ?_) ?_
      · exact absurd (hquiet _ hmem) (by simp [FwEvent.isRequest])
      · cases a with
        | bmcMgrTask locals =>
          rintro raw ⟨hp, hhead, -⟩
          rw [(hnone locals rfl).1 hp] at hhead
          cases hhead
        | _ => trivial

/-- Automatic objects in which `mctp_resp` happens to hold the header of the answer to
`sensorRequestRun`. -/
def matchingLocals : TaskLocals :=
  { zeroLocals with send := ⟨⟨1, 9, 8, 0, 0, 0, Vector.replicate _ 0⟩, Vector.replicate _ 0⟩ }

/-- The sensor request, answered out of such memory. -/
def matchingRun : List FwAction :=
  [.bmcI2cRxIsr sensorRequest (Vector.replicate _ 0), .waitTimeout, .bmcMgrTask matchingLocals]

theorem bmcMgr_returnsToRequester_matchingRun :
    ∃ fw tr, (firmware ⟨10, 100⟩).exec (firmwareInit ⟨10, 100⟩ 0) matchingRun = some (fw, tr) ∧
      (framesSent tr).length = 1 ∧ Trace.EachGiven ReturnsToRequester tr := by
  refine ⟨_, _, rfl, by decide +kernel,
    (bmcMgr_returnsToRequester_iff ⟨10, 100⟩ 0 matchingRun _ _ rfl).2 ?_⟩
  show Machine.AllSteps _ _ _ ((([] ++ [FwAction.bmcI2cRxIsr _ _]) ++ [.waitTimeout]) ++
    [.bmcMgrTask matchingLocals])
  refine Machine.allSteps_snoc.2 ⟨Machine.allSteps_snoc.2 ⟨Machine.allSteps_snoc.2
    ⟨Machine.allSteps_nil, ?_⟩, ?_⟩, ?_⟩
  · exact fun _ _ _ => trivial
  · exact fun _ _ _ => trivial
  · intro fw tr he raw hreq
    have e := he.symm.trans (show (firmware ⟨10, 100⟩).exec _ _ = some (_, _) from rfl)
    obtain ⟨rfl, -⟩ := Prod.mk.inj (Option.some.inj e)
    obtain rfl := Option.some.inj hreq.2.1
    decide +kernel

/-- With zeros in the packet the answer has header version 0 and goes from end point 0 to end point 0,
where the request had version 1 and came from 9 to 8. -/
theorem response_lost :
    ∃ fw tr, (firmware ⟨10, 100⟩).exec (firmwareInit ⟨10, 100⟩ 0) sensorRequestRun = some (fw, tr) ∧
      ¬ Trace.EachGiven ReturnsToRequester tr := by
  refine ⟨_, _, rfl, fun h => ?_⟩
  have hframe := h [_, _, _] (.transmit _ _) [] rfl _ rfl
  exact absurd hframe.1 (by decide +kernel)

end NicObFw
