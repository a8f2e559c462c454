import NicObFw.Proofs.LostFragmentProofs
import NicObFw.Proofs.SelProofs

/-!
# Proofs: the order of the two drain loops

`bmc_mgr_task` drains the RX queue before it turns to the NIC events, and does not look at the RX queue
again before it has drained these. When it takes a NIC event, the raw messages that wait are those that
came in since it left the first loop (`bmcMgr_drainsRxFirst`).
-/

namespace NicObFw

open Memory Reassembly

/-- The task left the first loop when it found the RX queue empty, in the state `left` after the trace
`trLeft`, and has been in the second loop ever since. -/
structure LeftDrainRx (cfg : TickConfig) (ticks : ℕ) (acts : List FwAction) (fw : Firmware)
    (tr : List FwEvent) (left : Firmware) (trLeft trSince : List FwEvent) : Prop where
  phase : left.phase = .drainRx
  empty : left.sBmcRxQueue.items = []
  since : ∃ before locals after left', acts = before ++ .bmcMgrTask locals :: after ∧
    (firmware cfg).exec (firmwareInit cfg ticks) before = some (left, trLeft) ∧
    (firmware cfg).step left (.bmcMgrTask locals) = some (left', []) ∧
    (firmware cfg).exec left' after = some (fw, trSince) ∧
    (firmware cfg).AllSteps (fun fw _ _ => fw.phase = .drainNic) left' after
  trace : tr = trLeft ++ trSince

variable {cfg : TickConfig} {ticks : ℕ} {acts : List FwAction} {fw fw' : Firmware}
  {tr evs : List FwEvent} {a : FwAction}

/-- The second loop is entered from the first one only, and no raw message is received in it. -/
theorem enters_drainNic (hs : FwStep cfg fw a fw' evs) (hp : fw'.phase = .drainNic) :
    (fw.phase = .drainNic ∧ rawsReceived evs = []) ∨
      (∃ locals, a = .bmcMgrTask locals) ∧ evs = [] ∧ fw.phase = .drainRx ∧
        fw.sBmcRxQueue.items = [] := by
  cases hs with
  | rxDone locals hp' hq => exact Or.inr ⟨⟨locals, rfl⟩, rfl, hp', hq⟩
  | wake locals hp' hr => exact absurd hp (by simp)
  | rx locals raw q fq dispatched hp' hq hd => exact absurd (hp'.symm.trans hp) (by simp)
  | nicDone locals hp' hq => exact absurd hp (by simp)
  | alive locals hp' hl => exact absurd hp (by simp)
  | silent locals hp' hl => exact absurd hp (by simp)
  | timeout hp' => exact absurd hp (by simp)
  | nic locals evt q hp' hq => exact Or.inl ⟨hp', rfl⟩
  | _ => exact Or.inl ⟨hp, rfl⟩

/-- In the second loop the task has left the first one. -/
theorem leftDrainRx_of_drainNic
    (hrun : (firmware cfg).exec (firmwareInit cfg ticks) acts = some (fw, tr))
    (hp : fw.phase = .drainNic) :
    ∃ left trLeft trSince, LeftDrainRx cfg ticks acts fw tr left trLeft trSince ∧
      rawsReceived trSince = [] := by
  induction acts using List.reverseRecOn generalizing fw tr with
  | nil =>
    obtain ⟨rfl, rfl⟩ : firmwareInit cfg ticks = fw ∧ [] = tr := by simpa using hrun
    exact absurd hp (by simp [firmwareInit])
  | append_singleton acts a ih =>
    obtain ⟨fw₀, tr₀, evs, he, hs, rfl⟩ := Machine.exec_snoc.1 hrun
    rcases enters_drainNic (firmware_step_cases hs) hp with ⟨hp₀, hraws⟩ | ⟨⟨locals, rfl⟩, rfl, hp₀, hq₀⟩
    · obtain ⟨left, trLeft, trSince, h, hsince⟩ := ih he hp₀
      obtain ⟨before, locals, after, left', rfl, hbefore, hleft, hafter, hall⟩ := h.since
      refine ⟨left, trLeft, trSince ++ evs, ⟨h.phase, h.empty, ⟨before, locals, after ++ [a], left',
        by simp, hbefore, hleft, Machine.exec_snoc.2 ⟨fw₀, trSince, evs, hafter, hs, rfl⟩,
        Machine.allSteps_snoc.2 ⟨hall, fun s tr he => ?_⟩⟩, by rw [h.trace, List.append_assoc]⟩, ?_⟩
      · obtain ⟨rfl, -⟩ : fw₀ = s ∧ trSince = tr := by simpa using hafter.symm.trans he
        exact hp₀
      · rw [rawsReceived_append, hsince, hraws]
        rfl
    · exact ⟨fw₀, tr₀, [], ⟨hp₀, hq₀, ⟨acts, locals, [], fw, rfl, he, hs, rfl, Machine.allSteps_nil⟩,
        rfl⟩, rfl⟩

/-- BMC requests are drained first, at every turn of the loop. Whenever the task takes a NIC event, it
has left the loop over the RX queue with the queue empty, and has been in the loop over the NIC events
since. Every write that the RX queue took before has been received, and the queue holds those that it
took since. -/
theorem bmcMgr_drainsRxFirst (cfg : TickConfig) (ticks : ℕ) (acts : List FwAction) (fw fw' : Firmware)
    (tr evs : List FwEvent) (locals : TaskLocals) (evt : NicEventMsg)
    (hrun : (firmware cfg).exec (firmwareInit cfg ticks) acts = some (fw, tr))
    (hs : bmcMgrTask cfg fw locals = some (fw', evs)) (hevt : .nicReceived evt ∈ evs) :
    ∃ left trLeft trSince, LeftDrainRx cfg ticks acts fw tr left trLeft trSince ∧
      (rawsReceived tr).map frameOf = (kept (i2cPosts trLeft)).map I2cWrite.clamped ∧
      fw.sBmcRxQueue.items.map frameOf = (kept (i2cPosts trSince)).map I2cWrite.clamped := by
  have hp : fw.phase = .drainNic := by
    cases bmcMgrTask_cases hs with
    | nic _ _ _ hp _ => exact hp
    | rx _ raw q fq dispatched hp hq hd => exact absurd (isLog_rx raw _ hd _ hevt) (by simp [FwEvent.isLog])
    | _ => simp at hevt
  obtain ⟨left, trLeft, trSince, hleft, hsince⟩ := leftDrainRx_of_drainNic hrun hp
  obtain ⟨before, locals₁, after, left', -, hbefore, -, -, -⟩ := hleft.since
  have hqueued := (rxInv_of_exec hrun).queued
  have hbegin := (rxInv_of_exec hbefore).queued
  rw [hleft.empty, List.append_nil] at hbegin
  rw [hleft.trace, rawsReceived_append, hsince, List.append_nil, i2cPosts_append, kept_append,
    List.map_append, List.map_append, hbegin] at hqueued
  refine ⟨left, trLeft, trSince, hleft, ?_, List.append_cancel_left hqueued⟩
  rw [hleft.trace, rawsReceived_append, hsince, List.append_nil, hbegin]

/-- A write and a NIC event arrive while the task waits, and a second write when it has entered the loop
over the NIC events. -/
def writesAroundRun : List FwAction :=
  [.bmcI2cRxIsr (fragment 0xC0 0) (Vector.replicate _ 0), .nicPost nicAlertEvent, .waitTimeout,
    .bmcMgrTask zeroLocals, .bmcMgrTask zeroLocals,
    .bmcI2cRxIsr (fragment 0xC0 0) (Vector.replicate _ 0)]

/-- The first write has been received when the NIC event is taken, and the second one waits. -/
theorem bmcMgr_drainsRxFirst_around :
    ∃ fw tr fw' evs,
      (firmware ⟨10, 100⟩).exec (firmwareInit ⟨10, 100⟩ 0) writesAroundRun = some (fw, tr) ∧
      bmcMgrTask ⟨10, 100⟩ fw zeroLocals = some (fw', evs) ∧ .nicReceived nicAlertEvent ∈ evs ∧
      ∃ left trLeft trSince, LeftDrainRx ⟨10, 100⟩ 0 writesAroundRun fw tr left trLeft trSince ∧
        (kept (i2cPosts trLeft)).length = 1 ∧ (kept (i2cPosts trSince)).length = 1 := by
  have heval : ((firmware ⟨10, 100⟩).exec (firmwareInit ⟨10, 100⟩ 0) writesAroundRun).any
      (fun r : Firmware × List FwEvent => decide ((rawsReceived r.2).length = 1 ∧
        r.1.sBmcRxQueue.items.length = 1 ∧ (bmcMgrTask ⟨10, 100⟩ r.1 zeroLocals).any
          (fun q => decide (.nicReceived nicAlertEvent ∈ q.2)) = true)) = true := by
    decide +kernel
  obtain ⟨fw, tr, hrun, hreceived, hqueued, hstep⟩ := Machine.exists_of_any heval
  obtain ⟨⟨fw', evs⟩, hs, hevt⟩ := (Option.any_eq_true _ _).1 hstep
  have hmem : .nicReceived nicAlertEvent ∈ evs := of_decide_eq_true hevt
  obtain ⟨left, trLeft, trSince, hleft, hbefore, hsince⟩ :=
    bmcMgr_drainsRxFirst ⟨10, 100⟩ 0 writesAroundRun fw fw' tr evs zeroLocals nicAlertEvent hrun hs hmem
  have hbefore' := congrArg List.length hbefore
  have hsince' := congrArg List.length hsince
  rw [List.length_map, List.length_map] at hbefore' hsince'
  exact ⟨fw, tr, fw', evs, hrun, hs, hmem, left, trLeft, trSince, hleft, hbefore'.symm.trans hreceived,
    hsince'.symm.trans hqueued⟩

/-- A NIC event and nothing else arrives while the task waits. -/
def nicOnlyRun : List FwAction := [.nicPost nicAlertEvent, .waitTimeout, .bmcMgrTask zeroLocals]

/-- A request that arrives while the task is in the second loop waits until the NIC event is handled. -/
theorem request_waits_for_nicEvent :
    ∃ fw tr fw' evs, (firmware ⟨10, 100⟩).exec (firmwareInit ⟨10, 100⟩ 0)
        (nicOnlyRun ++ [.bmcI2cRxIsr (fragment 0xC0 0) (Vector.replicate _ 0)]) = some (fw, tr) ∧
      bmcMgrTask ⟨10, 100⟩ fw zeroLocals = some (fw', evs) ∧ .nicReceived nicAlertEvent ∈ evs ∧
      fw.sBmcRxQueue.items ≠ [] :=
  ⟨_, _, _, _, rfl, rfl, by simp, by decide +kernel⟩

end NicObFw
