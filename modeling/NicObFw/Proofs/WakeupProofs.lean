import NicObFw.Proofs.BmcMgrProofs

/-!
# Proofs: wakeups of the BMC Manager

The interrupt service routines post to the queues of the BMC Manager and set no flag of `s_events`, so
the task is not woken for what arrives after it has passed the loop that drains the queue.
-/

namespace NicObFw

/-- Whenever the task waits, every queue that holds something has its flag set. -/
def NoLostWakeup (fw : Firmware) : Prop :=
  fw.phase = .wait →
    (fw.sBmcRxQueue.items ≠ [] → fw.sEvents.bits &&& bitBmcRx ≠ 0) ∧
    (fw.sNicEventQueue.items ≠ [] → fw.sEvents.bits &&& bitNicEvent ≠ 0)

/-- A post comes in time if the task has yet to leave the loop that drains its queue. -/
def Timely (fw : Firmware) : FwAction → Prop
  | .bmcI2cRxIsr _ _ => fw.phase = .drainRx
  | .nicPost _ => fw.phase = .drainRx ∨ fw.phase = .drainNic
  | _ => True

/-- The action is a step of the task. -/
def FwAction.IsTask : FwAction → Prop
  | .bmcMgrTask _ => True
  | _ => False

/-- A queue that holds something is about to be drained. -/
structure Drained (fw : Firmware) : Prop where
  rx : fw.sBmcRxQueue.items ≠ [] → fw.phase = .drainRx
  nic : fw.sNicEventQueue.items ≠ [] → fw.phase = .drainRx ∨ fw.phase = .drainNic

variable {cfg : TickConfig} {fw fw' : Firmware} {a : FwAction} {evs : List FwEvent}

theorem drained_init (cfg : TickConfig) (ticks : ℕ) : Drained (firmwareInit cfg ticks) := by
  constructor <;> simp [firmwareInit]

/-- A step in time keeps the queues drained. -/
theorem Drained.step (hd : Drained fw) (ht : Timely fw a) (h : FwStep cfg fw a fw' evs) :
    Drained fw' := by
  cases h with
  | rxIsr w msgData => exact ⟨fun _ => ht, hd.nic⟩
  | nicPost evt => exact ⟨hd.rx, fun _ => ht⟩
  | wake locals hp hr => exact ⟨fun _ => rfl, fun _ => Or.inl rfl⟩
  | rx locals raw q fq dispatched hp hq hev => exact ⟨fun _ => hp, fun _ => Or.inl hp⟩
  | rxDone locals hp hq => exact ⟨fun hne => absurd hq hne, fun _ => Or.inr rfl⟩
  | nic locals evt q hp hq =>
    refine ⟨fun hne => ?_, fun _ => Or.inr hp⟩
    have := hd.rx hne
    rw [hp] at this
    exact absurd this (by simp)
  | nicDone locals hp hq =>
    refine ⟨fun hne => ?_, fun hne => absurd hq hne⟩
    have := hd.rx hne
    rw [hp] at this
    exact absurd this (by simp)
  | alive locals hp hl | silent locals hp hl =>
    constructor
    · intro hne
      have := hd.rx hne
      rw [hp] at this
      exact absurd this (by simp)
    · intro hne
      have := hd.nic hne
      rw [hp] at this
      exact absurd this (by simp)
  | timeout hp => exact ⟨fun _ => rfl, fun _ => Or.inl rfl⟩
  | clock ticks => exact ⟨hd.rx, hd.nic⟩
  | sensorStore sensorId rec => exact ⟨hd.rx, hd.nic⟩
  | flashReceive cmd q hidle hq => exact ⟨hd.rx, hd.nic⟩
  | flashFinish cmd hbusy => exact ⟨hd.rx, hd.nic⟩

theorem Drained.noLostWakeup (hd : Drained fw) : NoLostWakeup fw := by
  intro hw
  constructor
  · intro hne
    have := hd.rx hne
    rw [hw] at this
    exact absurd this (by simp)
  · intro hne
    have := hd.nic hne
    rw [hw] at this
    exact absurd this (by simp)

/-- After a run whose posts are all in time the queues are drained. -/
theorem drained_of_timely {ticks : ℕ} {acts : List FwAction} {tr : List FwEvent}
    (ht : (firmware cfg).AllSteps (fun fw _ => Timely fw) (firmwareInit cfg ticks) acts)
    (h : (firmware cfg).exec (firmwareInit cfg ticks) acts = some (fw, tr)) : Drained fw :=
  Machine.invariant_of_allSteps (I := fun fw _ => Drained fw) (drained_init cfg ticks)
    (fun _ _ _ _ _ hd ht hs => hd.step ht (firmware_step_cases hs)) ht h

/-! ## What a late post leads to -/

/-- No flag is ever set. -/
theorem bits_eq_zero {ticks : ℕ} {acts : List FwAction} {tr : List FwEvent}
    (h : (firmware cfg).exec (firmwareInit cfg ticks) acts = some (fw, tr)) : fw.sEvents.bits = 0 := by
  refine Machine.invariant (I := fun fw _ => fw.sEvents.bits = 0) rfl ?_ h
  intro fw tr a fw' evs hb hs
  cases firmware_step_cases hs with
  | wake locals hp hr => simp [hb]
  | _ => exact hb

/-- The task is only ever blocked in its wait. -/
theorem bmcMgrTask_enabled (cfg : TickConfig) (locals : TaskLocals) (hp : fw.phase ≠ .wait) :
    ∃ fw' evs, bmcMgrTask cfg fw locals = some (fw', evs) := by
  unfold bmcMgrTask
  split
  · rename_i hw
    exact absurd hw hp
  · split <;> exact ⟨_, _, rfl⟩
  · split <;> exact ⟨_, _, rfl⟩
  · split <;> exact ⟨_, _, rfl⟩

/-- From the state `fw`, steps of the task alone lead to its wait, with the same BMC queue and the
same flags. -/
def LeadsToWait (cfg : TickConfig) (fw : Firmware) (nicSame : Prop) : Prop :=
  ∃ later fw' tr, (∀ a ∈ later, a.IsTask) ∧ (firmware cfg).exec fw later = some (fw', tr) ∧
    fw'.phase = .wait ∧ fw'.sBmcRxQueue = fw.sBmcRxQueue ∧ fw'.sEvents = fw.sEvents ∧
    (nicSame → fw'.sNicEventQueue = fw.sNicEventQueue)

theorem leadsToWait_of_wait {nicSame : Prop} (hp : fw.phase = .wait) : LeadsToWait cfg fw nicSame :=
  ⟨[], fw, [], by simp, rfl, hp, rfl, rfl, fun _ => rfl⟩

/-- One step of the task on the way to the wait. -/
theorem LeadsToWait.of_step {locals : TaskLocals} {nicSame nicSame' : Prop}
    (hs : bmcMgrTask cfg fw locals = some (fw', evs)) (h : LeadsToWait cfg fw' nicSame')
    (hrx : fw'.sBmcRxQueue = fw.sBmcRxQueue) (hev : fw'.sEvents = fw.sEvents)
    (hnic : nicSame → nicSame' ∧ fw'.sNicEventQueue = fw.sNicEventQueue) :
    LeadsToWait cfg fw nicSame := by
  obtain ⟨later, fw'', tr, htask, he, hp, hrx', hev', hnic'⟩ := h
  refine ⟨.bmcMgrTask locals :: later, fw'', evs ++ tr, ?_, ?_, hp, hrx'.trans hrx, hev'.trans hev,
    fun hn => (hnic' (hnic hn).1).trans (hnic hn).2⟩
  · rw [List.forall_mem_cons]
    exact ⟨trivial, htask⟩
  · exact Machine.exec_cons.2 ⟨fw', evs, tr, hs, he, rfl⟩

theorem leadsToWait_of_liveness (locals : TaskLocals) (hp : fw.phase = .liveness) :
    LeadsToWait cfg fw True := by
  obtain ⟨fw', evs, hs⟩ := bmcMgrTask_enabled cfg locals (by rw [hp]; simp)
  cases bmcMgrTask_cases hs with
  | alive _ _ hl | silent _ _ hl =>
    exact .of_step hs (leadsToWait_of_wait rfl) rfl rfl fun _ => ⟨trivial, rfl⟩
  | wake _ hp' | rx _ _ _ _ _ hp' | rxDone _ hp' | nic _ _ _ hp' | nicDone _ hp' =>
    rw [hp] at hp'
    exact absurd hp' (by simp)

/-- The loop that drains the NIC events ends; the induction is on what is left in their queue. -/
theorem leadsToWait_of_drainNic (locals : TaskLocals) (hp : fw.phase = .drainNic) :
    LeadsToWait cfg fw False := by
  induction hn : fw.sNicEventQueue.items.length generalizing fw with
  | zero =>
    obtain ⟨fw', evs, hs⟩ := bmcMgrTask_enabled cfg locals (by rw [hp]; simp)
    cases bmcMgrTask_cases hs with
    | nicDone _ _ hq =>
      exact .of_step hs (leadsToWait_of_liveness locals rfl) rfl rfl fun h => h.elim
    | nic _ evt q _ hq =>
      rw [hq] at hn
      exact absurd hn (by simp)
    | wake _ hp' | rx _ _ _ _ _ hp' | rxDone _ hp' | alive _ hp' | silent _ hp' =>
      rw [hp] at hp'
      exact absurd hp' (by simp)
  | succ n ih =>
    obtain ⟨fw', evs, hs⟩ := bmcMgrTask_enabled cfg locals (by rw [hp]; simp)
    cases bmcMgrTask_cases hs with
    | nic _ evt q _ hq =>
      rw [hq, List.length_cons] at hn
      exact .of_step hs (ih hp (by simpa using hn)) rfl rfl fun h => h.elim
    | nicDone _ _ hq =>
      rw [hq] at hn
      exact absurd hn (by simp)
    | wake _ hp' | rx _ _ _ _ _ hp' | rxDone _ hp' | alive _ hp' | silent _ hp' =>
      rw [hp] at hp'
      exact absurd hp' (by simp)

/-- Past the loop for NIC events the task gets to its wait without touching a queue, -/
theorem leadsToWait_of_passed (locals : TaskLocals) (hr : fw.phase ≠ .drainRx)
    (hn : fw.phase ≠ .drainNic) : LeadsToWait cfg fw True := by
  cases hp : fw.phase with
  | wait => exact leadsToWait_of_wait hp
  | drainRx => exact absurd hp hr
  | drainNic => exact absurd hp hn
  | liveness => exact leadsToWait_of_liveness locals hp

/-- and past the loop for BMC messages without touching their queue. -/
theorem leadsToWait_of_rx_passed (locals : TaskLocals) (hr : fw.phase ≠ .drainRx) :
    LeadsToWait cfg fw False := by
  by_cases hn : fw.phase = .drainNic
  · exact leadsToWait_of_drainNic locals hn
  · obtain ⟨later, fw', tr, htask, he, hp, hrx, hev, -⟩ := leadsToWait_of_passed locals hr hn
    exact ⟨later, fw', tr, htask, he, hp, hrx, hev, fun h => h.elim⟩

/-- A queue that is filled behind the task's back is still full when the task waits. -/
theorem late_post_lost (hd : Drained fw) (hb : fw.sEvents.bits = 0) (ha : ¬ Timely fw a)
    (hs : (firmware cfg).step fw a = some (fw', evs)) :
    ∃ later fw'' tr, (∀ b ∈ later, b.IsTask) ∧ (firmware cfg).exec fw' later = some (fw'', tr) ∧
      ¬ NoLostWakeup fw'' := by
  cases firmware_step_cases hs with
  | rxIsr w msgData =>
    have hp : fw.phase ≠ .drainRx := ha
    have hempty : fw.sBmcRxQueue.items = [] := by
      by_contra hne
      exact hp (hd.rx hne)
    have hsend := (FreeRtos.Queue.send_of_lt (q := fw.sBmcRxQueue) (x := (bmcI2cRxMsg msgData w).1)
      (by rw [hempty]; simp)).2
    have hlead : LeadsToWait cfg
        { fw with sBmcRxQueue := (fw.sBmcRxQueue.send (bmcI2cRxMsg msgData w).1).2 } False :=
      leadsToWait_of_rx_passed zeroLocals hp
    obtain ⟨later, fw'', tr, htask, he, hw, hrx, hev, -⟩ := hlead
    refine ⟨later, fw'', tr, htask, he, fun hno => ?_⟩
    refine (hno hw).1 (by rw [hrx, hsend]; simp) ?_
    rw [hev, hb]
    simp
  | nicPost evt =>
    have hp : ¬ (fw.phase = .drainRx ∨ fw.phase = .drainNic) := ha
    have hempty : fw.sNicEventQueue.items = [] := by
      by_contra hne
      exact hp (hd.nic hne)
    have hsend := (FreeRtos.Queue.send_of_lt (q := fw.sNicEventQueue) (x := evt)
      (by rw [hempty]; simp)).2
    have hlead : LeadsToWait cfg
        { fw with sNicEventQueue := (fw.sNicEventQueue.send evt).2 } True :=
      leadsToWait_of_passed zeroLocals (fun h => hp (Or.inl h)) (fun h => hp (Or.inr h))
    obtain ⟨later, fw'', tr, htask, he, hw, -, hev, hnic⟩ := hlead
    refine ⟨later, fw'', tr, htask, he, fun hno => ?_⟩
    refine (hno hw).2 (by rw [hnic trivial, hsend]; simp) ?_
    rw [hev, hb]
    simp
  | _ => exact absurd trivial ha

/-- Wakeups are not lost exactly in the runs whose posts all come in time: then no run of them, or of
them up to some point and of the task alone from there on, reaches a state in which the task waits
with a queue that holds something and a flag that is clear. -/
theorem bmcMgr_noLostWakeup_iff (cfg : TickConfig) (ticks : ℕ) (acts : List FwAction)
    (hrun : ∃ fw tr, (firmware cfg).exec (firmwareInit cfg ticks) acts = some (fw, tr)) :
    (firmware cfg).AllSteps (fun fw _ => Timely fw) (firmwareInit cfg ticks) acts ↔
      ∀ pre post later fw tr, acts = pre ++ post → (∀ a ∈ later, a.IsTask) →
        (firmware cfg).exec (firmwareInit cfg ticks) (pre ++ later) = some (fw, tr) →
        NoLostWakeup fw := by
  constructor
  · rintro hall pre post later fw tr rfl htask he
    obtain ⟨fw₁, tr₁, tr₂, hpre, hlater, rfl⟩ := Machine.exec_append.1 he
    have hd := drained_of_timely hall.of_append hpre
    refine (Machine.invariant_of_allSteps (C := fun fw _ => Timely fw) (I := fun fw _ => Drained fw) hd
      (fun _ _ _ _ _ hd ht hs => hd.step ht (firmware_step_cases hs)) ?_ hlater).noLostWakeup
    rintro p a q s t rfl -
    have ha := htask a (by simp)
    cases a <;> first | exact trivial | exact ha.elim
  · intro hno
    obtain ⟨fw, tr, h⟩ := hrun
    induction acts using List.reverseRecOn generalizing fw tr with
    | nil => exact Machine.allSteps_nil
    | append_singleton acts a ih =>
      obtain ⟨fw₁, tr₁, evs, he, hs, rfl⟩ := Machine.exec_snoc.1 h
      have hall := ih (fun pre post later fw tr hsplit =>
        hno pre (post ++ [a]) later fw tr (by rw [hsplit, List.append_assoc])) fw₁ tr₁ he
      refine Machine.allSteps_snoc.2 ⟨hall, fun fw₂ tr₂ he₂ => ?_⟩
      obtain ⟨rfl, -⟩ : fw₁ = fw₂ ∧ tr₁ = tr₂ := by simpa using he.symm.trans he₂
      by_contra hlate
      obtain ⟨later, fw₃, tr₃, htask, hlater, hbad⟩ :=
        late_post_lost (drained_of_timely hall he) (bits_eq_zero he) hlate hs
      exact hbad (hno (acts ++ [a]) [] later fw₃ (tr₁ ++ evs ++ tr₃) (by simp) htask
        (Machine.exec_append.2 ⟨fw, tr₁ ++ evs, tr₃, h, hlater, rfl⟩))

/-- A wait that times out, and a write that arrives while the task drains its queue. -/
def timelyRun : List FwAction :=
  [.waitTimeout, .bmcI2cRxIsr ⟨[1, 8, 9, 0xC0], by decide⟩ (Vector.replicate _ 0)]

theorem bmcMgr_noLostWakeup_timelyRun :
    ∃ fw tr, (firmware ⟨10, 100⟩).exec (firmwareInit ⟨10, 100⟩ 0) timelyRun = some (fw, tr) ∧
      fw.sBmcRxQueue.items ≠ [] ∧ NoLostWakeup fw := by
  refine ⟨_, _, rfl, by decide, ?_⟩
  refine (bmcMgr_noLostWakeup_iff ⟨10, 100⟩ 0 timelyRun ⟨_, _, rfl⟩).1 ?_ timelyRun [] [] _ _
    (by simp) (by simp) rfl
  show Machine.AllSteps _ _ _ (([] ++ [FwAction.waitTimeout]) ++ [_])
  refine Machine.allSteps_snoc.2 ⟨Machine.allSteps_snoc.2 ⟨Machine.allSteps_nil, ?_⟩, ?_⟩
  · intro fw tr _
    exact trivial
  · intro fw tr he
    cases firmware_step_cases (Machine.exec_singleton.1 he) with
    | timeout hp => exact rfl

/-- A write that arrives while the task waits does not wake it. -/
theorem bmcMgr_wakeup_lost :
    ∃ fw tr, (firmware ⟨10, 100⟩).exec (firmwareInit ⟨10, 100⟩ 0)
        [.bmcI2cRxIsr ⟨[1, 8, 9, 0xC0], by decide⟩ (Vector.replicate _ 0)] = some (fw, tr) ∧
      ¬ NoLostWakeup fw := by
  refine ⟨_, _, rfl, fun h => (h rfl).1 ?_ rfl⟩
  decide

end NicObFw
