import NicObFw.EventLog
import NicObFw.Proofs.BmcMgrProofs

/-!
# Proofs: the event log

`nic_gen_mgr_log_sel_event` is the push of a ring log of 32 slots. Over a whole run the log holds the
last entries written to it, and the NIC events it was told of are those that their queue took
(`bmcMgr_logsEvents`).
-/

namespace NicObFw

/-! ## One entry -/

theorem ring_nicGenMgrInit : nicGenMgrInit.ring.Holds [] := RingLog.holds_nil rfl rfl

/-- Logging an entry is a push. -/
theorem ring_nicGenMgrLogSelEvent (sel : SelState) (eventType : UInt8)
    (eventData tickMs : UInt32) :
    (nicGenMgrLogSelEvent sel eventType eventData tickMs).ring =
      sel.ring.push ⟨eventType, eventData, tickMs⟩ := by
  have hmod : ((sel.sSelHead + 1) % 32).toNat = (sel.sSelHead.toNat + 1) % 32 := by
    rw [UInt8.toNat_mod, UInt8.toNat_add]
    simp
  have hcount : (if sel.sSelCount < 32 then sel.sSelCount + 1 else sel.sSelCount).toNat =
      if sel.sSelCount.toNat < 32 then sel.sSelCount.toNat + 1 else sel.sSelCount.toNat := by
    by_cases h : sel.sSelCount < 32
    · have hlt : sel.sSelCount.toNat < 32 := UInt8.lt_iff_toNat_lt.1 h
      rw [if_pos h, if_pos hlt, UInt8.toNat_add]
      simp
      omega
    · have hge : ¬ sel.sSelCount.toNat < 32 := fun hlt => h (UInt8.lt_iff_toNat_lt.2 hlt)
      rw [if_neg h, if_neg hge]
  simp only [SelState.ring, RingLog.push, nicGenMgrLogSelEvent, hmod, hcount]
  rfl

theorem holds_nicGenMgrLogSelEvent {sel : SelState} {entries : List SelEntry}
    (h : sel.ring.Holds entries) (eventType : UInt8) (eventData tickMs : UInt32) :
    (nicGenMgrLogSelEvent sel eventType eventData tickMs).ring.Holds
      (entries ++ [⟨eventType, eventData, tickMs⟩]) := by
  rw [ring_nicGenMgrLogSelEvent]
  exact h.push (by decide) _

/-! ## Histories -/

/-- Events that concern the log. -/
def FwEvent.isLog : FwEvent → Bool
  | nicPost .. => true
  | nicReceived .. => true
  | selLogged .. => true
  | _ => false

theorem FwEvent.isLog_of_isDispatch {e : FwEvent} (h : e.isDispatch = true) : e.isLog = false := by
  cases e <;> simp_all [FwEvent.isLog, FwEvent.isDispatch]

variable {cfg : TickConfig} {fw fw' : Firmware} {tr evs : List FwEvent} {a : FwAction}

@[simp] theorem entriesLogged_append (tr evs : List FwEvent) :
    entriesLogged (tr ++ evs) = entriesLogged tr ++ entriesLogged evs := by
  simp [entriesLogged]

@[simp] theorem nicAccepted_append (tr evs : List FwEvent) :
    nicAccepted (tr ++ evs) = nicAccepted tr ++ nicAccepted evs := by
  simp [nicAccepted]

theorem entriesLogged_quiet (h : ∀ e ∈ evs, e.isLog = false) : entriesLogged evs = [] :=
  Trace.filterMap_quiet (fun e he => by cases e <;> simp_all [FwEvent.isLog]) h

theorem nicAccepted_quiet (h : ∀ e ∈ evs, e.isLog = false) : nicAccepted evs = [] :=
  Trace.filterMap_quiet (fun e he => by cases e <;> simp_all [FwEvent.isLog]) h

theorem foldl_noteNicLogged_quiet (s : List NicEventMsg × Option NicEventMsg)
    (h : ∀ e ∈ evs, e.isLog = false) : evs.foldl noteNicLogged s = s := by
  induction evs generalizing s with
  | nil => rfl
  | cons e evs ih =>
    rw [List.forall_mem_cons] at h
    have he : noteNicLogged s e = s := by
      have := h.1
      cases e <;> simp_all [FwEvent.isLog, noteNicLogged]
    rw [List.foldl_cons, he, ih s h.2]

theorem isLog_rx (raw : BmcRxMsg) (rx : MctpRx) {dispatched : List FwEvent}
    (hd : ∀ e ∈ dispatched, e.isDispatch = true) :
    ∀ e ∈ FwEvent.rxReceived raw :: ((if rx.complete then
      [FwEvent.mctpComplete rx.pktOut (Memory.load rx.st.sReasmBuf 0 rx.pktOut.payloadLen.toNat)]
      else []) ++ dispatched), e.isLog = false := by
  intro e he
  rcases List.mem_cons.1 he with rfl | he
  · rfl
  · rcases List.mem_append.1 he with he | he
    · split at he
      · obtain rfl := List.mem_singleton.1 he
        rfl
      · cases he
    · exact FwEvent.isLog_of_isDispatch (hd e he)

/-! ## The log of the machine -/

/-- The log and the NIC event queue after the trace `tr`. -/
structure LogInv (fw : Firmware) (tr : List FwEvent) : Prop where
  logged : tr.foldl noteNicLogged ([], none) = (nicLogged tr, none)
  accepted : nicLogged tr ++ fw.sNicEventQueue.items = nicAccepted tr
  ring : ∃ entries, fw.sel.ring.Holds entries ∧ entries.map SelEntry.content = entriesLogged tr

theorem logInv_init (cfg : TickConfig) (ticks : ℕ) : LogInv (firmwareInit cfg ticks) [] where
  logged := rfl
  accepted := rfl
  ring := ⟨[], ring_nicGenMgrInit, rfl⟩

/-- A step that logs the NIC events `nics`, and writes the entries `entries` to the log. -/
theorem LogInv.extend (h : LogInv fw tr) (nics : List NicEventMsg) (entries : List SelEntry)
    (hfold : ∀ logged, List.foldl noteNicLogged (logged, none) evs = (logged ++ nics, none))
    (hq : nics ++ fw'.sNicEventQueue.items = fw.sNicEventQueue.items ++ nicAccepted evs)
    (hring : ∀ old, fw.sel.ring.Holds old → fw'.sel.ring.Holds (old ++ entries))
    (hcontent : entries.map SelEntry.content = entriesLogged evs) : LogInv fw' (tr ++ evs) := by
  have hnew : List.foldl noteNicLogged ([], none) (tr ++ evs) = (nicLogged tr ++ nics, none) := by
    rw [List.foldl_append, h.logged, hfold]
  have hnic : nicLogged (tr ++ evs) = nicLogged tr ++ nics := by rw [nicLogged, hnew]
  obtain ⟨old, hholds, hold⟩ := h.ring
  refine ⟨by rw [hnic, hnew], ?_, ⟨old ++ entries, hring old hholds, ?_⟩⟩
  · rw [hnic, List.append_assoc, hq, ← List.append_assoc, h.accepted, nicAccepted_append]
  · rw [List.map_append, hold, hcontent, entriesLogged_append]

theorem LogInv.quiet (h : LogInv fw tr) (hq : fw'.sNicEventQueue = fw.sNicEventQueue)
    (hsel : fw'.sel = fw.sel) (hev : ∀ e ∈ evs, e.isLog = false) : LogInv fw' (tr ++ evs) := by
  refine h.extend [] [] (fun logged => ?_) ?_ (fun old hold => ?_) ?_
  · rw [foldl_noteNicLogged_quiet _ hev, List.append_nil]
  · rw [hq, nicAccepted_quiet hev, List.append_nil, List.nil_append]
  · rw [hsel, List.append_nil]
    exact hold
  · rw [entriesLogged_quiet hev, List.map_nil]

theorem LogInv.nicPost (h : LogInv fw tr) (evt : NicEventMsg) :
    LogInv { fw with sNicEventQueue := (fw.sNicEventQueue.send evt).2 }
      (tr ++ [.nicPost evt (fw.sNicEventQueue.send evt).1]) := by
  refine h.extend [] [] (fun logged => ?_) ?_ (fun old hold => ?_) rfl
  · simp [noteNicLogged]
  · by_cases hroom : fw.sNicEventQueue.items.length < queueDepthNicGen
    · obtain ⟨htaken, hitems⟩ := FreeRtos.Queue.send_of_lt (x := evt) hroom
      rw [htaken, hitems]
      rfl
    · rw [FreeRtos.Queue.send_of_full hroom]
      exact (List.append_nil _).symm
  · rw [List.append_nil]
    exact hold

theorem LogInv.nic (h : LogInv fw tr) {evt : NicEventMsg}
    {q : FreeRtos.Queue NicEventMsg queueDepthNicGen} (hq : fw.sNicEventQueue.items = evt :: q.items)
    (tickMs : UInt32) :
    LogInv { fw with sNicEventQueue := q, sel := nicGenMgrHandleNicEvent fw.sel evt tickMs }
      (tr ++ [.nicReceived evt, .selLogged evt.eventType evt.eventData]) := by
  refine h.extend [evt] [⟨evt.eventType, evt.eventData, tickMs⟩]
    (fun logged => ?_) ?_ (fun old hold => ?_) rfl
  · simp [noteNicLogged]
  · rw [hq]
    exact (List.append_nil _).symm
  · exact holds_nicGenMgrLogSelEvent hold _ _ _

theorem LogInv.silent (h : LogInv fw tr) (tickMs : UInt32) (phase : BmcMgrPhase) :
    LogInv { fw with phase, sel := nicGenMgrLogSelEvent fw.sel msgTypeLiveness 0 tickMs }
      (tr ++ [.selLogged msgTypeLiveness 0]) := by
  refine h.extend [] [⟨msgTypeLiveness, 0, tickMs⟩]
    (fun logged => ?_) ?_ (fun old hold => ?_) rfl
  · simp [noteNicLogged]
  · exact (List.append_nil _).symm
  · exact holds_nicGenMgrLogSelEvent hold _ _ _

theorem LogInv.step (h : LogInv fw tr) (hs : FwStep cfg fw a fw' evs) : LogInv fw' (tr ++ evs) := by
  cases hs with
  | nicPost evt => exact h.nicPost evt
  | nic locals evt q hp hq => exact h.nic hq _
  | silent locals hp hl => exact h.silent _ _
  | rx locals raw q fq dispatched hp hq hd => exact h.quiet rfl rfl (isLog_rx raw _ hd)
  | _ => exact h.quiet rfl rfl (by simp [FwEvent.isLog])

theorem logInv_of_exec {ticks : ℕ} {acts : List FwAction}
    (hrun : (firmware cfg).exec (firmwareInit cfg ticks) acts = some (fw, tr)) : LogInv fw tr :=
  Machine.invariant (logInv_init cfg ticks)
    (fun _ _ _ _ _ h hs => h.step (firmware_step_cases hs)) hrun

/-- The count and the head are those of a ring that took all entries. -/
theorem LogInv.indices (h : LogInv fw tr) :
    fw.sel.sSelCount.toNat = min (entriesLogged tr).length 32 ∧
      fw.sel.sSelHead.toNat = (entriesLogged tr).length % 32 := by
  obtain ⟨entries, hholds, hcontent⟩ := h.ring
  have hlen : entries.length = (entriesLogged tr).length := by rw [← hcontent, List.length_map]
  exact ⟨hlen ▸ hholds.count, hlen ▸ hholds.head⟩

/-- What the log holds at the place of the entry that `k` entries came after. -/
theorem LogInv.recent (h : LogInv fw tr) {k : ℕ} (hk : k < min (entriesLogged tr).length 32) :
    (fw.sel.recent k).map SelEntry.content =
      (entriesLogged tr)[(entriesLogged tr).length - 1 - k]? := by
  obtain ⟨entries, hholds, hcontent⟩ := h.ring
  have hlen : entries.length = (entriesLogged tr).length := by rw [← hcontent, List.length_map]
  have hrecent := hholds.recent (k := k) (by omega) (Nat.lt_of_lt_of_le hk (Nat.min_le_right _ _))
  rw [← hlen, ← hcontent, List.getElem?_map, ← hrecent]
  rfl

/-- The event log loses nothing before it must. The NIC events logged so far, followed by those in the
queue, are the events that the queue took. After `n` entries the count is `min n 32` and the head
`n % 32`, and the slots in use hold the last entries, the latest one before the head. -/
theorem bmcMgr_logsEvents (cfg : TickConfig) (ticks : ℕ) (acts : List FwAction) (fw : Firmware)
    (tr : List FwEvent)
    (hrun : (firmware cfg).exec (firmwareInit cfg ticks) acts = some (fw, tr)) :
    let n := (entriesLogged tr).length
    nicLogged tr ++ fw.sNicEventQueue.items = nicAccepted tr ∧
    fw.sel.sSelCount.toNat = min n 32 ∧ fw.sel.sSelHead.toNat = n % 32 ∧
    ∀ j < min n 32,
      (fw.sel.recent j).map SelEntry.content = (entriesLogged tr)[n - 1 - j]? := by
  have hinv := logInv_of_exec hrun
  exact ⟨hinv.accepted, hinv.indices.1, hinv.indices.2, fun j hj => hinv.recent hj⟩

/-- Five NIC events arrive while the task waits, one more than the queue holds, and it goes round once. -/
def nicBurst (k : ℕ) : List FwAction :=
  (List.range 5).map (fun i => .nicPost { nicAlertEvent with eventData := UInt32.ofNat (5 * k + i) }) ++
    .waitTimeout :: List.replicate 7 (.bmcMgrTask zeroLocals)

/-- After nine bursts the log has wrapped: the four oldest entries are gone, and the oldest one left is
the first event of the second burst. -/
theorem bmcMgr_logsEvents_bursts :
    ∃ fw tr, (firmware ⟨10, 100⟩).exec (firmwareInit ⟨10, 100⟩ 0) ((List.range 9).flatMap nicBurst) =
        some (fw, tr) ∧
      .nicPost { nicAlertEvent with eventData := 44 } false ∈ tr ∧ (entriesLogged tr).length = 36 ∧
      nicLogged tr ++ fw.sNicEventQueue.items = nicAccepted tr ∧ fw.sel.sSelCount.toNat = 32 ∧
      fw.sel.sSelHead.toNat = 4 ∧
      (fw.sel.recent 31).map SelEntry.content = some (nicEventHwError, 5) := by
  have heval : ((firmware ⟨10, 100⟩).exec (firmwareInit ⟨10, 100⟩ 0)
      ((List.range 9).flatMap nicBurst)).any (fun r : Firmware × List FwEvent => decide
        (.nicPost { nicAlertEvent with eventData := 44 } false ∈ r.2 ∧
          (entriesLogged r.2).length = 36 ∧
          (entriesLogged r.2)[4]? = some (nicEventHwError, 5))) = true := by
    decide +kernel
  obtain ⟨fw, tr, hrun, hdropped, hlen, hentry⟩ := Machine.exists_of_any heval
  obtain ⟨hnic, hcount, hhead, hslots⟩ := bmcMgr_logsEvents ⟨10, 100⟩ 0 _ fw tr hrun
  rw [hlen] at hcount hhead hslots
  exact ⟨fw, tr, hrun, hdropped, hlen, hnic, hcount, hhead, (hslots 31 (by decide)).trans hentry⟩

end NicObFw
