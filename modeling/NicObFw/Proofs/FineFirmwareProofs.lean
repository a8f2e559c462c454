import NicObFw.FineFirmware
import NicObFw.Proofs.AnswerProofs
import NicObFw.Proofs.SensorCacheProofs

/-!
# Proofs: the BMC Manager among the threads around the sensor cache

Every run in which records are written and read step by step under `s_cache_mutex` looks to each party
like a run of the machine of `BmcMgr.lean`, in which a record is stored in one step and a message is
received and answered in another one, with the same stores and the same frames in the same order
(`fineFirmware_refines`).
-/

namespace NicObFw

variable {cfg : TickConfig} {fw fw' : Firmware} {evs : List FwEvent} {locals : TaskLocals}
  {msg : PldmMsg} {sensorId : UInt8}

/-! ## What depends on the cache -/

theorem sensorIdAsked_eq (msg : PldmMsg) :
    sensorIdAsked msg = if msg.payloadLen.toNat > 0 then msg.payload[0] else 0 := by
  rw [sensorIdAsked, Memory.getD_toList msg.payload (by decide)]

/-- A request for a record that the cache has. -/
theorem dispatchPldm_asked {sCache : SensorCache} {rec : SensorRecord}
    (hasked : recordAsked sCache.count msg = some sensorId)
    (hrec : sCache.records[sensorId.toNat]? = some rec)
    (q : FreeRtos.Queue FlashCmd queueDepthFlash) (locals : TaskLocals) :
    dispatchPldm sCache q msg locals = (q, [respondReading msg locals rec]) := by
  unfold recordAsked at hasked
  split at hasked
  · rename_i h
    obtain ⟨htype, hcmd, hlt⟩ := h
    obtain rfl := Option.some.inj hasked
    have hget : sensorMgrGetCached sCache (sensorIdAsked msg) = some rec := by
      rw [sensorMgrGetCached, if_neg hlt, hrec]
    rw [sensorIdAsked_eq] at hget
    unfold dispatchPldm
    simp only [if_pos htype, if_pos hcmd, hget]
    rfl
  · cases hasked

/-- Any other message is handled alike whatever the records are. -/
theorem dispatchPldm_notAsked {sCache sCache' : SensorCache} (hcount : sCache'.count = sCache.count)
    (hasked : recordAsked sCache.count msg = none) (q : FreeRtos.Queue FlashCmd queueDepthFlash)
    (locals : TaskLocals) :
    dispatchPldm sCache' q msg locals = dispatchPldm sCache q msg locals := by
  unfold recordAsked at hasked
  unfold dispatchPldm
  by_cases htype : pldmGetType msg = pldmTypeSensorMonitoring
  · by_cases hcmd : pldmGetCommand msg = pldmCmdGetSensorReading
    · have hge : sensorIdAsked msg ≥ sCache.count := by
        by_contra hlt
        rw [if_pos ⟨htype, hcmd, hlt⟩] at hasked
        cases hasked
      have hnone : ∀ sCache₁ : SensorCache, sCache₁.count = sCache.count →
          sensorMgrGetCached sCache₁ (sensorIdAsked msg) = none := by
        intro sCache₁ hcount₁
        rw [sensorMgrGetCached, hcount₁, if_pos hge]
      rw [sensorIdAsked_eq] at hnone
      simp only [if_pos htype, if_pos hcmd, hnone sCache' hcount, hnone sCache rfl]
    · simp only [if_pos htype, if_neg hcmd]
  · simp only [if_neg htype]

/-- The step that receives `raw`, up to a call. -/
theorem bmcMgrTaskCalls_rx (cfg : TickConfig) {fw : Firmware} {raw : BmcRxMsg}
    {q : FreeRtos.Queue BmcRxMsg queueDepthBmc} (locals : TaskLocals) (hp : fw.phase = .drainRx)
    (hq : fw.sBmcRxQueue.items = raw :: q.items) :
    let mctp := mctpProcessRx fw.mctp raw locals.mctpPkt
    let rx := protocolHdlrProcessRx fw.mctp raw locals.mctpPkt locals.pldm
    bmcMgrTaskCalls cfg fw locals =
      if rx.complete then
        (recordAsked fw.sCache.count rx.pldmOut).map fun sensorId =>
          ({ livenessUpdate cfg fw with sBmcRxQueue := q, mctp := mctp.st }, rx.pldmOut, sensorId,
            .rxReceived raw :: completedEvents mctp)
      else none := by
  obtain ⟨q', hrecv, hitems⟩ := rtosQueueReceive_cons hq
  obtain rfl : q' = q := FreeRtos.Queue.ext hitems
  simp only [bmcMgrTaskCalls, hp, hrecv, livenessUpdate, protocolHdlrProcessRx_st, completedEvents]

/-- What the step that receives a request for a record does up to the call. -/
theorem bmcMgrTaskCalls_eq_some (h : bmcMgrTaskCalls cfg fw locals = some (fw', msg, sensorId, evs)) :
    ∃ raw q, fw.phase = .drainRx ∧ fw.sBmcRxQueue.items = raw :: FreeRtos.Queue.items q ∧
      (protocolHdlrProcessRx fw.mctp raw locals.mctpPkt locals.pldm).complete = true ∧
      recordAsked fw.sCache.count msg = some sensorId ∧
      msg = (protocolHdlrProcessRx fw.mctp raw locals.mctpPkt locals.pldm).pldmOut ∧
      fw' = { livenessUpdate cfg fw with
        sBmcRxQueue := q, mctp := (mctpProcessRx fw.mctp raw locals.mctpPkt).st } ∧
      evs = .rxReceived raw :: completedEvents (mctpProcessRx fw.mctp raw locals.mctpPkt) := by
  cases hphase : fw.phase with
  | drainRx =>
    cases hq : fw.sBmcRxQueue.items with
    | nil => simp [bmcMgrTaskCalls, hphase, rtosQueueReceive_nil hq] at h
    | cons raw rest =>
      obtain ⟨q, -, rfl⟩ := rtosQueueReceive_cons hq
      rw [bmcMgrTaskCalls_rx cfg locals hphase hq] at h
      split at h
      · rename_i hcomplete
        obtain ⟨id, hasked, heq⟩ := Option.map_eq_some_iff.1 h
        obtain ⟨rfl, rfl, rfl, rfl⟩ := heq
        exact ⟨raw, q, rfl, rfl, hcomplete, hasked, rfl, rfl, rfl⟩
      · cases h
  | _ => simp [bmcMgrTaskCalls, hphase] at h

/-- The step that receives a request for a record, with any cache: what it does up to the call, and the
response. -/
theorem bmcMgrTask_calls (h : bmcMgrTaskCalls cfg fw locals = some (fw', msg, sensorId, evs))
    {sCache : SensorCache} {rec : SensorRecord} (hcount : sCache.count = fw.sCache.count)
    (hrec : sCache.records[sensorId.toNat]? = some rec) :
    bmcMgrTask cfg { fw with sCache } locals =
      some ({ fw' with sCache }, evs ++ [respondReading msg locals rec]) := by
  obtain ⟨raw, q, hphase, hq, hcomplete, hasked, rfl, rfl, rfl⟩ := bmcMgrTaskCalls_eq_some h
  rw [← hcount] at hasked
  rw [@bmcMgrTask_rx cfg { fw with sCache } raw q locals hphase hq]
  simp only [hcomplete, if_true, dispatchPldm_asked hasked hrec]
  rfl

/-- Any other step, with any cache that has the same count. -/
theorem bmcMgrTask_notCalls (hno : bmcMgrTaskCalls cfg fw locals = none)
    (h : bmcMgrTask cfg fw locals = some (fw', evs)) {sCache : SensorCache}
    (hcount : sCache.count = fw.sCache.count) :
    bmcMgrTask cfg { fw with sCache } locals = some ({ fw' with sCache }, evs) := by
  by_cases hphase : fw.phase = .drainRx
  · cases hq : fw.sBmcRxQueue.items with
    | nil =>
      simp only [bmcMgrTask, hphase, rtosQueueReceive_nil hq] at h ⊢
      obtain ⟨rfl, rfl⟩ := Prod.mk.inj (Option.some.inj h)
      rfl
    | cons raw rest =>
      obtain ⟨q, -, rfl⟩ := rtosQueueReceive_cons hq
      rw [@bmcMgrTask_rx cfg { fw with sCache } raw q locals hphase hq]
      rw [bmcMgrTask_rx cfg locals hphase hq] at h
      obtain ⟨rfl, rfl⟩ := Prod.mk.inj (Option.some.inj h)
      rw [bmcMgrTaskCalls_rx cfg locals hphase hq] at hno
      cases hcomplete : (protocolHdlrProcessRx fw.mctp raw locals.mctpPkt locals.pldm).complete with
      | false =>
        simp only [Bool.false_eq_true, if_false]
        rfl
      | true =>
        rw [if_pos hcomplete, Option.map_eq_none_iff] at hno
        simp only [if_true, dispatchPldm_notAsked hcount hno]
        rfl
  · -- the other phases do not look at the cache
    unfold bmcMgrTask at h ⊢
    cases hother : fw.phase with
    | drainRx => exact absurd hother hphase
    | wait =>
      simp only [hother] at h ⊢
      split at h
      · obtain ⟨rfl, rfl⟩ := Prod.mk.inj (Option.some.inj h)
        rfl
      · cases h
    | drainNic =>
      simp only [hother] at h ⊢
      split at h
      · obtain ⟨rfl, rfl⟩ := Prod.mk.inj (Option.some.inj h)
        rfl
      · obtain ⟨rfl, rfl⟩ := Prod.mk.inj (Option.some.inj h)
        rfl
    | liveness =>
      simp only [hother] at h ⊢
      split at h
      · rename_i halive
        obtain ⟨rfl, rfl⟩ := Prod.mk.inj (Option.some.inj h)
        exact if_pos halive
      · rename_i hsilent
        obtain ⟨rfl, rfl⟩ := Prod.mk.inj (Option.some.inj h)
        exact if_neg hsilent

/-- The other actions neither look at the cache nor change it. -/
theorem firmware_other {a : FwAction} (ha : a.isOther = true)
    (h : (firmware cfg).step fw a = some (fw', evs)) (sCache : SensorCache) :
    (firmware cfg).step { fw with sCache } a = some ({ fw' with sCache }, evs) := by
  cases a with
  | bmcMgrTask locals => cases ha
  | sensorStore sensorId rec => cases ha
  | waitTimeout =>
    simp only [firmware] at h ⊢
    split at h
    · rename_i hwait
      obtain ⟨rfl, rfl⟩ := Prod.mk.inj (Option.some.inj h)
      exact if_pos hwait
    · cases h
  | flashReceive =>
    simp only [firmware] at h ⊢
    split at h
    · obtain ⟨rfl, rfl⟩ := Prod.mk.inj (Option.some.inj h)
      rfl
    · cases h
  | flashFinish =>
    simp only [firmware] at h ⊢
    split at h
    · obtain ⟨rfl, rfl⟩ := Prod.mk.inj (Option.some.inj h)
      rfl
    · cases h
  | _ =>
    obtain ⟨rfl, rfl⟩ := Prod.mk.inj (Option.some.inj h)
    rfl

theorem ofBmcMgr_other {a : FwAction} (ha : a.isOther = true)
    (h : (firmware cfg).step fw a = some (fw', evs)) : ∀ e ∈ evs, e.ofBmcMgr = false := by
  cases firmware_step_cases h <;> simp_all [FwAction.isOther, FwEvent.ofBmcMgr]

theorem ofBmcMgr_completed (rx : MctpRx) : ∀ e ∈ completedEvents rx, e.ofBmcMgr = true := by
  unfold completedEvents
  split <;> simp [FwEvent.ofBmcMgr]

/-! ## The cache that the records stored so far make up -/

/-- The members that no store writes are the same in both records. -/
def SensorRecord.AgreesUnwritten (rec old : SensorRecord) : Prop :=
  { rec with
    rawValue := old.rawValue, scaledValue := old.scaledValue, state := old.state
    timestampMs := old.timestampMs } = old

/-- The cache before the store that is going on. What this store does not write is the same in the
memory. -/
structure CommittedInv (threads : SensorThreads Unit) (sCache : SensorCache) : Prop extends
    Committed threads sCache where
  unwritten : ∀ (i : ℕ) (old rec : SensorRecord), sCache.records[i]? = some old →
    threads.sCache.records[i]? = some rec → rec.AgreesUnwritten old

variable {s s' : SensorThreads Unit} {sCache : SensorCache} {tr sevs : List (SensorEvent Unit)}

/-- Outside the assignments it is the memory. -/
theorem Committed.eq (h : Committed s sCache) (hno : ∀ i, s.task.writes i = false) :
    sCache = s.sCache := by
  have hrecords : sCache.records = s.sCache.records := by
    refine Vector.ext fun i hi => ?_
    have hi' := h.records i (hno i)
    rwa [Vector.getElem?_eq_getElem hi, Vector.getElem?_eq_getElem hi, Option.some.injEq] at hi'
  have hcount := h.count
  cases sCache
  cases hs : s.sCache
  simp_all

theorem writes_of_not_holds {task : SensorTaskPhase} (h : task.holds = false) (i : ℕ) :
    task.writes i = false := by
  cases task with
  | store step reading todo =>
    cases step with
    | take => rfl
    | _ => cases h
  | _ => rfl

theorem FieldWrite.agreesUnwritten {ticks : ℕ} {reading : Reading} {step next : StoreStep}
    {f : SensorRecord → SensorRecord} (hw : FieldWrite cfg ticks reading step f next sevs)
    {rec old : SensorRecord} (h : rec.AgreesUnwritten old) : (f rec).AgreesUnwritten old := by
  cases hw <;> exact h

/-- When all fields but the time have been written, the time makes the record of the reading. -/
theorem storedRecord_of_shows {reading : Reading} {last : Option (Int16 × UInt32)}
    {rec old : SensorRecord} (hshows : StoreStep.timestampMs.Shows reading last rec)
    (hcal : applyCalibration reading.sensorId reading.raw = .ok reading.scaled)
    (hold : rec.AgreesUnwritten old) (timestampMs : UInt32) :
    storedRecord reading.sensorId reading.raw timestampMs old = .ok { rec with timestampMs } := by
  obtain ⟨hraw, hscaled, hstate⟩ := hshows
  rw [hscaled] at hstate
  rw [SensorRecord.AgreesUnwritten] at hold
  rw [← hold, storedRecord, hcal]
  simp only [bind, Except.bind, hstate, pure, Except.pure]
  rw [← hraw, ← hscaled]

/-- The last assignment to a record is the step that stores it. -/
theorem CommittedInv.store (h : CommittedInv s sCache) {reading : Reading} {todo : List UInt8}
    {rec : SensorRecord} (ht : s.task = .store .timestampMs reading todo)
    (hlt : reading.sensorId.toNat < maxSensors) :
    CommittedInv
      { s with
        sCache :=
          { s.sCache with
            records := s.sCache.records.setIfInBounds reading.sensorId.toNat rec }
        task := .store .give reading todo }
      (sensorCacheStore sCache ⟨reading.sensorId.toNat, hlt⟩ rec) := by
  have hnew : ∀ i : ℕ, (sensorCacheStore sCache ⟨reading.sensorId.toNat, hlt⟩ rec).records[i]? =
      if reading.sensorId.toNat = i then some rec else sCache.records[i]? :=
    fun i => Vector.getElem?_set hlt
  have hmemory : ∀ i : ℕ, (s.sCache.records.setIfInBounds reading.sensorId.toNat rec)[i]? =
      if reading.sensorId.toNat = i then some rec else s.sCache.records[i]? := by
    intro i
    rw [Vector.getElem?_setIfInBounds, if_pos hlt]
  refine ⟨⟨h.count, fun i _ => ?_⟩, fun i old rec' hold hrec' => ?_⟩
  · show _ = (s.sCache.records.setIfInBounds reading.sensorId.toNat rec)[i]?
    rw [hnew, hmemory]
    split
    · rfl
    · rename_i hi
      refine h.records i ?_
      rw [ht]
      simpa [SensorTaskPhase.writes] using hi
  · have hrec'' : (s.sCache.records.setIfInBounds reading.sensorId.toNat rec)[i]? = some rec' := hrec'
    rw [hnew] at hold
    rw [hmemory] at hrec''
    split at hold
    · rename_i hi
      rw [if_pos hi] at hrec''
      obtain rfl := Option.some.inj hold
      obtain rfl := Option.some.inj hrec''
      rfl
    · rename_i hi
      rw [if_neg hi] at hrec''
      exact h.unwritten i old rec' hold hrec''

/-- A run of the machine of the BMC Manager that only stores records, and what it stores. -/
def StoresOnly (cfg : TickConfig) (acts : List FwAction) (sCache sCache' : SensorCache)
    (uses : List AtomicUse) : Prop :=
  ∀ fw : Firmware, (firmware cfg).exec { fw with sCache } acts =
      some ({ fw with sCache := sCache' }, []) ∧
    (firmware cfg).observe atomicUses { fw with sCache } acts = uses

/-- A step that leaves the memory alone stores nothing. -/
theorem CommittedInv.frame (h : CommittedInv s sCache) (hcache : s'.sCache = s.sCache)
    (hwrites : ∀ i, s'.task.writes i = false → s.task.writes i = false) :
    CommittedInv s' sCache := by
  refine ⟨⟨?_, fun i hi => ?_⟩, ?_⟩
  · rw [hcache]
    exact h.count
  · rw [hcache]
    exact h.records i (hwrites i hi)
  · rw [hcache]
    exact h.unwritten

/-- An assignment that is not the last one stores nothing. -/
theorem CommittedInv.write (h : CommittedInv s sCache) {step next : StoreStep} {reading : Reading}
    {todo : List UInt8} {rec rec' : SensorRecord} (ht : s.task = .store step reading todo)
    (hnext : ∀ i, (SensorTaskPhase.store next reading todo).writes i = (reading.sensorId.toNat == i))
    (hrec : s.sCache.records[reading.sensorId.toNat]? = some rec)
    (hkeep : ∀ old, rec.AgreesUnwritten old → rec'.AgreesUnwritten old) :
    CommittedInv
      { s with
        sCache :=
          { s.sCache with
            records := s.sCache.records.setIfInBounds reading.sensorId.toNat rec' }
        task := .store next reading todo } sCache := by
  refine ⟨⟨h.count, fun i hi => ?_⟩, fun i old rec₁ hold hrec₁ => ?_⟩
  · have hne : reading.sensorId.toNat ≠ i := by
      have hi' := hi
      rw [hnext] at hi'
      simpa using hi'
    show sCache.records[i]? = (s.sCache.records.setIfInBounds reading.sensorId.toNat rec')[i]?
    rw [Vector.getElem?_setIfInBounds, if_neg hne]
    refine h.records i ?_
    rw [ht]
    cases step <;> simp [SensorTaskPhase.writes, hne]
  · have hmemory : (s.sCache.records.setIfInBounds reading.sensorId.toNat rec')[i]? = some rec₁ := hrec₁
    rw [Vector.getElem?_setIfInBounds] at hmemory
    split at hmemory
    · rename_i hi
      split at hmemory
      · obtain rfl := Option.some.inj hmemory
        rw [← hi] at hold
        exact hkeep old (h.unwritten _ old rec hold hrec)
      · cases hmemory
    · exact h.unwritten i old rec₁ hold hmemory

theorem storesOnly_nil (cfg : TickConfig) (sCache : SensorCache) : StoresOnly cfg [] sCache sCache [] :=
  fun _ => ⟨rfl, rfl⟩

theorem storesOnly_store (cfg : TickConfig) (sCache : SensorCache) (sensorId : Fin maxSensors)
    (rec : SensorRecord) :
    StoresOnly cfg [.sensorStore sensorId rec] sCache (sensorCacheStore sCache sensorId rec)
      [.stored sensorId (sCache.records.get sensorId) rec] := by
  intro fw
  have hs : (firmware cfg).step { fw with sCache } (.sensorStore sensorId rec) =
      some ({ fw with sCache := sensorCacheStore sCache sensorId rec }, []) := rfl
  exact ⟨Machine.exec_singleton.2 hs, Machine.observe_singleton hs⟩

/-- A step of the sensor thread completes the store of a record, or leaves what was stored. -/
theorem CommittedInv.step (h : CommittedInv s sCache) (hcache : CacheInv s tr) {hal : SensorHal}
    (hs : SensorStep cfg s (.sensorMgrTask hal) s' sevs) :
    ∃ acts sCache' uses, CommittedInv s' sCache' ∧ StoresOnly cfg acts sCache sCache' uses ∧
      List.Forall₂ Performs uses (storesAndFrames (sevs.map .cache)) := by
  have hquiet : ∀ {sCache' : SensorCache}, CommittedInv s' sCache' → sCache' = sCache →
      storesAndFrames (sevs.map .cache) = [] →
      ∃ acts sCache' uses, CommittedInv s' sCache' ∧ StoresOnly cfg acts sCache sCache' uses ∧
        List.Forall₂ Performs uses (storesAndFrames (sevs.map .cache)) := by
    rintro sCache' hinv rfl hnone
    exact ⟨[], sCache', [], hinv, storesOnly_nil cfg sCache', hnone ▸ .nil⟩
  cases hs with
  | write _ step next reading todo f rec sevs ht hw hrec =>
    have hkeep : ∀ old, rec.AgreesUnwritten old → (f rec).AgreesUnwritten old :=
      fun _ => hw.agreesUnwritten
    have hfits := hcache.task
    rw [ht] at hfits
    cases hw with
    | timestampMs =>
      obtain ⟨hlt, -⟩ := Vector.getElem?_eq_some_iff.1 hrec
      have hold := h.unwritten _ _ rec (Vector.getElem?_eq_getElem hlt) hrec
      have hshows := hcache.records reading.sensorId rec hrec
      rw [ht, SensorTaskPhase.Shows, if_pos rfl] at hshows
      refine ⟨_, _, _, h.store ht hlt, storesOnly_store cfg sCache _ _, .cons ?_ .nil⟩
      exact .stored reading.sensorId reading.raw _ _ _
        (storedRecord_of_shows hshows hfits.2.1 hold _)
    | rawValue => exact hquiet (h.write ht (fun _ => rfl) hrec hkeep) rfl rfl
    | scaledValue => exact hquiet (h.write ht (fun _ => rfl) hrec hkeep) rfl rfl
    | state state hstate => exact hquiet (h.write ht (fun _ => rfl) hrec hkeep) rfl rfl
  | pollStart _ ht => exact hquiet (h.frame rfl fun i _ => by rw [ht]; rfl) rfl rfl
  | pollEnd _ ht => exact hquiet (h.frame rfl fun i _ => by rw [ht]; rfl) rfl rfl
  | readFailed _ sensorId todo ht => exact hquiet (h.frame rfl fun i _ => by rw [ht]; rfl) rfl rfl
  | readOk _ reading todo ht => exact hquiet (h.frame rfl fun i _ => by rw [ht]; rfl) rfl rfl
  | lock _ reading todo ht => exact hquiet (h.frame rfl fun i _ => by rw [ht]; rfl) rfl rfl
  | unlock _ reading todo ht => exact hquiet (h.frame rfl fun i _ => by rw [ht]; rfl) rfl rfl

/-- The sensor thread leaves the reader and the clock alone, and the memory as well outside its
sections. -/
theorem sensorStep_frame {hal : SensorHal} (hs : SensorStep cfg s (.sensorMgrTask hal) s' sevs) :
    s'.reader = s.reader ∧ s'.ticks = s.ticks ∧ (s.task.holds = false → s'.sCache = s.sCache) := by
  cases hs with
  | write _ step next reading todo f rec sevs ht hw hrec =>
    refine ⟨rfl, rfl, fun hfree => ?_⟩
    rw [ht] at hfree
    cases hw <;> cases hfree
  | _ => exact ⟨rfl, rfl, fun _ => rfl⟩

/-! ## Histories -/

@[simp] theorem fwEvents_nil : fwEvents [] = [] := rfl

@[simp] theorem fwEvents_append (tr tr' : List FineEvent) :
    fwEvents (tr ++ tr') = fwEvents tr ++ fwEvents tr' := by
  simp [fwEvents]

@[simp] theorem fwEvents_map_fw (evs : List FwEvent) : fwEvents (evs.map .fw) = evs := by
  simp [fwEvents, List.filterMap_map]

@[simp] theorem fwEvents_map_cache (evs : List (SensorEvent Unit)) :
    fwEvents (evs.map .cache) = [] := by
  simp [fwEvents, List.filterMap_map]

@[simp] theorem cacheEvents_append (tr tr' : List FineEvent) :
    cacheEvents (tr ++ tr') = cacheEvents tr ++ cacheEvents tr' := by
  simp [cacheEvents]

@[simp] theorem cacheEvents_map_fw (evs : List FwEvent) : cacheEvents (evs.map .fw) = [] := by
  simp [cacheEvents, List.filterMap_map]

@[simp] theorem cacheEvents_map_cache (evs : List (SensorEvent Unit)) :
    cacheEvents (evs.map .cache) = evs := by
  simp [cacheEvents, List.filterMap_map]

@[simp] theorem bmcMgrEvents_append (tr tr' : List FwEvent) :
    bmcMgrEvents (tr ++ tr') = bmcMgrEvents tr ++ bmcMgrEvents tr' :=
  List.filter_append _ _

@[simp] theorem otherEvents_append (tr tr' : List FwEvent) :
    otherEvents (tr ++ tr') = otherEvents tr ++ otherEvents tr' :=
  List.filter_append _ _

theorem events_of_mgr (h : ∀ e ∈ evs, e.ofBmcMgr = true) :
    bmcMgrEvents evs = evs ∧ otherEvents evs = [] := by
  constructor
  · exact List.filter_eq_self.2 h
  · exact List.filter_eq_nil_iff.2 fun e he => by simp [h e he]

theorem events_of_other (h : ∀ e ∈ evs, e.ofBmcMgr = false) :
    bmcMgrEvents evs = [] ∧ otherEvents evs = evs := by
  constructor
  · exact List.filter_eq_nil_iff.2 fun e he => by simp [h e he]
  · exact List.filter_eq_self.2 fun e he => by simp [h e he]

@[simp] theorem storesAndFrames_append (tr tr' : List FineEvent) :
    storesAndFrames (tr ++ tr') = storesAndFrames tr ++ storesAndFrames tr' :=
  List.filter_append _ _

/-- The events report no frame. -/
def NoFrame (evs : List FwEvent) : Prop := ∀ bytes length, .transmit bytes length ∉ evs

theorem NoFrame.storesAndFrames_eq (h : NoFrame evs) : storesAndFrames (evs.map .fw) = [] := by
  refine List.filter_eq_nil_iff.2 fun e he => ?_
  obtain ⟨e, hmem, rfl⟩ := List.mem_map.1 he
  cases e with
  | transmit bytes length => exact absurd hmem (h bytes length)
  | _ => simp

/-- The machine of the BMC Manager sends the frames that are reported. -/
theorem performs_frames (fw : Firmware) {a : FwAction} (ha : ∀ sensorId rec, a ≠ .sensorStore sensorId rec)
    (evs : List FwEvent) :
    List.Forall₂ Performs (atomicUses fw a evs) (storesAndFrames (evs.map .fw)) := by
  have huses : atomicUses fw a evs = evs.filterMap FwEvent.sentFrame := by
    cases a with
    | sensorStore sensorId rec => exact absurd rfl (ha sensorId rec)
    | _ => rfl
  rw [huses]
  clear huses
  induction evs with
  | nil => exact .nil
  | cons e evs ih =>
    cases e with
    | transmit bytes length => exact .cons (.sent bytes length) ih
    | _ => exact ih

/-- An action that neither stores a record nor sends a frame. -/
theorem atomicUses_quiet (fw : Firmware) {a : FwAction}
    (ha : ∀ sensorId rec, a ≠ .sensorStore sensorId rec) (h : NoFrame evs) : atomicUses fw a evs = [] := by
  have hperforms := performs_frames fw ha evs
  rw [h.storesAndFrames_eq] at hperforms
  exact List.forall₂_nil_right_iff.1 hperforms

theorem ne_sensorStore_of_other {a : FwAction} (ha : a.isOther = true) (sensorId : Fin maxSensors)
    (rec : SensorRecord) : a ≠ .sensorStore sensorId rec := by
  rintro rfl
  cases ha

theorem noFrame_of_other (h : ∀ e ∈ evs, e.ofBmcMgr = false) : NoFrame evs :=
  fun _ _ hmem => absurd (h _ hmem) (by simp [FwEvent.ofBmcMgr])

/-! ## The simulation -/

/-- The run `tr` so far, and a run of the machine of the BMC Manager that looks the same to each party.
During a call of `sensor_mgr_get_cached` this run has already received the message, when the task did, and
answered it, with the record in whatever cache is stored until then; what the other parties have done
since does not depend on the cache. -/
inductive Related (cfg : TickConfig) (ticks : ℕ) (s : FineFirmware) (tr : List FineEvent) : Prop
  | idle (fwActs : List FwAction) (sCache : SensorCache) (fwTr : List FwEvent)
      (hrequest : s.request = none) (hreader : s.reader = .idle)
      (hrun : (firmware cfg).exec (firmwareInit cfg ticks) fwActs = some ({ s.fw with sCache }, fwTr))
      (hcommitted : CommittedInv s.threads sCache)
      (hmgr : bmcMgrEvents fwTr = bmcMgrEvents (fwEvents tr))
      (hother : otherEvents fwTr = otherEvents (fwEvents tr))
      (hperforms : List.Forall₂ Performs
        ((firmware cfg).observe atomicUses (firmwareInit cfg ticks) fwActs) (storesAndFrames tr))
  | call (msg : PldmMsg) (locals : TaskLocals) (step : ReadStep) (sensorId : UInt8)
      (recordOut : SensorRecord) (fwActs : List FwAction) (before received : Firmware)
      (others : List FwAction) (fwTr evs otherTr : List FwEvent)
      (hrequest : s.request = some (msg, locals))
      (hreader : s.reader = .getCached step sensorId recordOut)
      (hcopied : step = .give → s.fw.sCache.records[sensorId.toNat]? = some recordOut)
      (hrun : (firmware cfg).exec (firmwareInit cfg ticks) fwActs = some (before, fwTr))
      (hcommitted : CommittedInv s.threads before.sCache)
      (hreceive : ∀ sCache rec, sCache.count = sensorMgrInit.count →
        sCache.records[sensorId.toNat]? = some rec →
        (firmware cfg).step { before with sCache } (.bmcMgrTask locals) =
          some ({ received with sCache }, evs ++ [respondReading msg locals rec]))
      (hothers : ∀ sCache, (firmware cfg).exec { received with sCache } others =
          some ({ s.fw with sCache }, otherTr) ∧
        (firmware cfg).observe atomicUses { received with sCache } others = [])
      (hevs : ∀ e ∈ evs, e.ofBmcMgr = true) (hframe : NoFrame evs)
      (hotherTr : ∀ e ∈ otherTr, e.ofBmcMgr = false)
      (hmgr : bmcMgrEvents fwTr ++ evs = bmcMgrEvents (fwEvents tr))
      (hother : otherEvents fwTr ++ otherTr = otherEvents (fwEvents tr))
      (hperforms : List.Forall₂ Performs
        ((firmware cfg).observe atomicUses (firmwareInit cfg ticks) fwActs) (storesAndFrames tr))

variable {ticks : ℕ} {fs fs' : FineFirmware} {ftr : List FineEvent}

/-- Without a call both runs have come equally far. -/
theorem Related.of_no_request (h : Related cfg ticks fs ftr) (hrequest : fs.request = none) :
    fs.reader = .idle ∧ ∃ fwActs sCache fwTr,
      (firmware cfg).exec (firmwareInit cfg ticks) fwActs = some ({ fs.fw with sCache }, fwTr) ∧
      CommittedInv fs.threads sCache ∧ bmcMgrEvents fwTr = bmcMgrEvents (fwEvents ftr) ∧
      otherEvents fwTr = otherEvents (fwEvents ftr) ∧
      List.Forall₂ Performs ((firmware cfg).observe atomicUses (firmwareInit cfg ticks) fwActs)
        (storesAndFrames ftr) := by
  cases h with
  | idle fwActs sCache fwTr _ hreader hrun hcommitted hmgr hother hperforms =>
    exact ⟨hreader, fwActs, sCache, fwTr, hrun, hcommitted, hmgr, hother, hperforms⟩
  | call _ _ _ _ _ _ _ _ _ _ _ _ hsome =>
    rw [hrequest] at hsome
    cases hsome

theorem threads_setThreads {t : SensorThreads Unit} (hticks : t.ticks = fs.fw.ticks) :
    (fs.setThreads t).threads = t := by
  have hreader : (fun _ : Unit => t.reader ()) = t.reader := rfl
  cases t
  simp_all [FineFirmware.threads, FineFirmware.setThreads]

/-- A step of the sensor thread. -/
theorem Related.sensorStep (h : Related cfg ticks fs ftr) (hcache : CacheInv fs.threads tr)
    {hal : SensorHal} (hs : SensorStep cfg fs.threads (.sensorMgrTask hal) s' sevs) :
    Related cfg ticks (fs.setThreads s') (ftr ++ sevs.map .cache) := by
  obtain ⟨hreaders, hticks, hframe⟩ := sensorStep_frame hs
  have hthreads : (fs.setThreads s').threads = s' := threads_setThreads hticks
  have hreader' : (fs.setThreads s').reader = fs.reader := congrFun hreaders ()
  have hfw : fwEvents (ftr ++ sevs.map .cache) = fwEvents ftr := by simp
  cases h with
  | idle fwActs sCache fwTr hrequest hreader hrun hcommitted hmgr hother hperforms =>
    obtain ⟨acts, sCache', uses, hcommitted', hstores, huses⟩ := hcommitted.step hcache hs
    obtain ⟨hexec, hobserve⟩ := hstores fs.fw
    refine .idle (fwActs ++ acts) sCache' fwTr hrequest (hreader'.trans hreader) ?_
      (by rw [hthreads]; exact hcommitted') (by rw [hfw]; exact hmgr) (by rw [hfw]; exact hother) ?_
    · exact Machine.exec_append.2 ⟨_, _, _, hrun, hexec, (List.append_nil _).symm⟩
    · rw [Machine.observe_append hrun, hobserve, storesAndFrames_append]
      exact List.rel_append hperforms huses
  | call msg locals step sensorId recordOut fwActs before received others fwTr evs otherTr hrequest
      hreader hcopied hrun hcommitted hreceive hothers hevs hnoFrame hotherTr hmgr hother hperforms =>
    obtain ⟨acts, sCache', uses, hcommitted', hstores, huses⟩ := hcommitted.step hcache hs
    obtain ⟨hexec, hobserve⟩ := hstores before
    refine .call msg locals step sensorId recordOut (fwActs ++ acts) { before with sCache := sCache' }
      received others fwTr evs otherTr hrequest (hreader'.trans hreader) ?_ ?_
      (by rw [hthreads]; exact hcommitted') hreceive hothers hevs hnoFrame hotherTr
      (by rw [hfw]; exact hmgr) (by rw [hfw]; exact hother) ?_
    · -- the reader holds the mutex, so the sensor thread writes nothing
      intro hgive
      have hholds : (fs.threads.reader ()).holds = true := by
        show fs.reader.holds = true
        rw [hreader, hgive]
        rfl
      show s'.sCache.records[sensorId.toNat]? = some recordOut
      rw [hframe (hcache.task_idle hholds)]
      exact hcopied hgive
    · exact Machine.exec_append.2 ⟨_, _, _, hrun, hexec, (List.append_nil _).symm⟩
    · rw [Machine.observe_append hrun, hobserve, storesAndFrames_append]
      exact List.rel_append hperforms huses

theorem CommittedInv.congr {threads threads' : SensorThreads Unit} (h : CommittedInv threads sCache)
    (hcache : threads'.sCache = threads.sCache) (htask : threads'.task = threads.task) :
    CommittedInv threads' sCache :=
  h.frame hcache fun i hi => by rwa [← htask]

theorem sCache_of_frame
    (h : some ({ fw' with sCache := fw.sCache }, evs) = some (fw', evs)) : fw'.sCache = fw.sCache := by
  have hfw := (Prod.mk.inj (Option.some.inj h)).1
  rw [← hfw]

theorem sCache_of_other {a : FwAction} (ha : a.isOther = true)
    (h : (firmware cfg).step fw a = some (fw', evs)) : fw'.sCache = fw.sCache :=
  sCache_of_frame ((firmware_other ha h fw.sCache).symm.trans h)

/-- A step of an interrupt, of the flash thread or of the clock. -/
theorem Related.otherStep (h : Related cfg ticks fs ftr) {a : FwAction} (ha : a.isOther = true)
    (hs : (firmware cfg).step fs.fw a = some (fw', evs)) :
    Related cfg ticks { fs with fw := fw' } (ftr ++ evs.map .fw) := by
  have hstep := firmware_other ha hs
  have hcache : fw'.sCache = fs.fw.sCache := sCache_of_other ha hs
  have hfw : fwEvents (ftr ++ evs.map .fw) = fwEvents ftr ++ evs := by simp
  have hnoFrame := noFrame_of_other (ofBmcMgr_other ha hs)
  have huses : ∀ fw, atomicUses fw a evs = [] :=
    fun fw => atomicUses_quiet fw (ne_sensorStore_of_other ha) hnoFrame
  have hhistory : storesAndFrames (ftr ++ evs.map .fw) = storesAndFrames ftr := by
    rw [storesAndFrames_append, hnoFrame.storesAndFrames_eq, List.append_nil]
  obtain ⟨hmgrEvs, hotherEvs⟩ := events_of_other (ofBmcMgr_other ha hs)
  cases h with
  | idle fwActs sCache fwTr hrequest hreader hrun hcommitted hmgr hother hperforms =>
    refine .idle (fwActs ++ [a]) sCache (fwTr ++ evs) hrequest hreader
      (Machine.exec_snoc.2 ⟨_, _, _, hrun, hstep sCache, rfl⟩) (hcommitted.congr hcache rfl) ?_ ?_ ?_
    · rw [hfw, bmcMgrEvents_append, bmcMgrEvents_append, hmgr]
    · rw [hfw, otherEvents_append, otherEvents_append, hother]
    · rw [Machine.observe_snoc hrun (hstep sCache), huses, List.append_nil, hhistory]
      exact hperforms
  | call msg locals step sensorId recordOut fwActs before received others fwTr mgrEvs otherTr hrequest
      hreader hcopied hrun hcommitted hreceive hothers hevs hframe hotherTr hmgr hother hperforms =>
    refine .call msg locals step sensorId recordOut fwActs before received (others ++ [a]) fwTr mgrEvs
      (otherTr ++ evs) hrequest hreader (fun hgive => ?_) hrun (hcommitted.congr hcache rfl) hreceive
      (fun sCache => ⟨?_, ?_⟩) hevs hframe (fun e he => ?_) ?_ ?_ ?_
    · rw [hcache]
      exact hcopied hgive
    · exact Machine.exec_snoc.2 ⟨_, _, _, (hothers sCache).1, hstep sCache, rfl⟩
    · rw [Machine.observe_snoc (hothers sCache).1 (hstep sCache), (hothers sCache).2, huses]
      rfl
    · exact (List.mem_append.1 he).elim (hotherTr e) (ofBmcMgr_other ha hs e)
    · rw [hfw, bmcMgrEvents_append, hmgrEvs, List.append_nil, hmgr]
    · rw [hfw, otherEvents_append, hotherEvs, ← List.append_assoc, hother]
    · rw [hhistory]
      exact hperforms

/-- A step of the BMC Manager without a call. -/
theorem Related.taskStep (h : Related cfg ticks fs ftr) (hrequest : fs.request = none)
    (hno : bmcMgrTaskCalls cfg fs.fw locals = none)
    (hs : bmcMgrTask cfg fs.fw locals = some (fw', evs)) :
    fw'.sCache = fs.fw.sCache ∧ Related cfg ticks { fs with fw := fw' } (ftr ++ evs.map .fw) := by
  have hsame : fw'.sCache = fs.fw.sCache :=
    sCache_of_frame ((@bmcMgrTask_notCalls _ _ _ _ _ hno hs fs.fw.sCache rfl).symm.trans hs)
  have hfw : fwEvents (ftr ++ evs.map .fw) = fwEvents ftr ++ evs := by simp
  obtain ⟨hreader, fwActs, sCache, fwTr, hrun, hcommitted, hmgr, hother, hperforms⟩ :=
    h.of_no_request hrequest
  have hstep : (firmware cfg).step { fs.fw with sCache } (.bmcMgrTask locals) =
      some ({ fw' with sCache }, evs) := bmcMgrTask_notCalls hno hs hcommitted.count
  refine ⟨hsame, .idle (fwActs ++ [.bmcMgrTask locals]) sCache (fwTr ++ evs) hrequest hreader
    (Machine.exec_snoc.2 ⟨_, _, _, hrun, hstep, rfl⟩) (hcommitted.congr hsame rfl) ?_ ?_ ?_⟩
  · rw [hfw, bmcMgrEvents_append, bmcMgrEvents_append, hmgr]
  · rw [hfw, otherEvents_append, otherEvents_append, hother]
  · rw [Machine.observe_snoc hrun hstep, storesAndFrames_append]
    exact List.rel_append hperforms (performs_frames _ (by simp) evs)

/-- The BMC Manager receives a request for a record, and calls `sensor_mgr_get_cached`. -/
theorem Related.callStep (h : Related cfg ticks fs ftr) (hcache : CacheInv fs.threads tr)
    (hrequest : fs.request = none)
    (hcalls : bmcMgrTaskCalls cfg fs.fw locals = some (fw', msg, sensorId, evs))
    (recordOut : SensorRecord) :
    fw'.sCache = fs.fw.sCache ∧ sensorId < sensorMgrInit.count ∧
      Related cfg ticks
        { fs with
          fw := fw', reader := .getCached .take sensorId recordOut, request := some (msg, locals) }
        (ftr ++ evs.map .fw) := by
  obtain ⟨raw, q, -, -, -, hasked, -, hfw', hevs⟩ := bmcMgrTaskCalls_eq_some hcalls
  have hsame : fw'.sCache = fs.fw.sCache := by rw [hfw']; rfl
  have hcount : fs.fw.sCache.count = sensorMgrInit.count := hcache.count
  have hfw : fwEvents (ftr ++ evs.map .fw) = fwEvents ftr ++ evs := by simp
  refine ⟨hsame, ?_, ?_⟩
  · unfold recordAsked at hasked
    split at hasked
    · rename_i hlt
      obtain rfl := Option.some.inj hasked
      rw [← hcount]
      exact UInt8.not_le.1 hlt.2.2
    · cases hasked
  have hmgrEvs : ∀ e ∈ evs, e.ofBmcMgr = true := by
    rw [hevs]
    intro e he
    rcases List.mem_cons.1 he with rfl | he
    · rfl
    · exact ofBmcMgr_completed _ e he
  have hnoFrame : NoFrame evs := by
    rw [hevs, completedEvents]
    intro bytes length
    split <;> simp
  obtain ⟨-, fwActs, sCache, fwTr, hrun, hcommitted, hmgr, hother, hperforms⟩ :=
    h.of_no_request hrequest
  refine .call msg locals .take sensorId recordOut fwActs { fs.fw with sCache } fw' [] fwTr evs [] rfl
    rfl (by simp) hrun (hcommitted.congr hsame rfl) ?_ (fun _ => ⟨rfl, rfl⟩) hmgrEvs hnoFrame (by simp)
    ?_ ?_ ?_
  · intro sCache' rec hcount' hrec
    exact bmcMgrTask_calls hcalls (hcount'.trans hcount.symm) hrec
  · rw [hfw, bmcMgrEvents_append, (events_of_mgr hmgrEvs).1, hmgr]
  · rw [hfw, otherEvents_append, (events_of_mgr hmgrEvs).2, hother]
  · rw [storesAndFrames_append, hnoFrame.storesAndFrames_eq, List.append_nil]
    exact hperforms

/-- `sensor_mgr_get_cached` takes the mutex, or copies the record. -/
theorem Related.readStep (h : Related cfg ticks fs ftr) {mutex : FreeRtos.Mutex (CacheThread Unit)}
    {step step' : ReadStep} {recordOut recordOut' : SensorRecord}
    (hreader : fs.reader = .getCached step sensorId recordOut)
    (hcopied : step' = .give → fs.fw.sCache.records[sensorId.toNat]? = some recordOut') :
    Related cfg ticks
      { fs with sCacheMutex := mutex, reader := .getCached step' sensorId recordOut' } ftr := by
  cases h with
  | idle _ _ _ _ hidle =>
    rw [hreader] at hidle
    cases hidle
  | call msg locals _ id out fwActs before received others fwTr evs otherTr hrequest hreader' _ hrun
      hcommitted hreceive hothers hevs hframe hotherTr hmgr hother hperforms =>
    obtain ⟨-, rfl, -⟩ : _ ∧ sensorId = id ∧ _ := by simpa using hreader.symm.trans hreader'
    exact .call msg locals step' sensorId recordOut' fwActs before received others fwTr evs otherTr
      hrequest rfl hcopied hrun (hcommitted.congr rfl rfl) hreceive hothers hevs hframe hotherTr hmgr
      hother hperforms

/-- The run of the machine of the BMC Manager in which the open call is answered. -/
theorem answered {before received : Firmware} {fwActs others : List FwAction}
    {fwTr otherTr : List FwEvent} {rec : SensorRecord}
    (hrun : (firmware cfg).exec (firmwareInit cfg ticks) fwActs = some (before, fwTr))
    (hanswer : (firmware cfg).step before (.bmcMgrTask locals) =
      some ({ received with sCache := before.sCache }, evs ++ [respondReading msg locals rec]))
    (hothers : (firmware cfg).exec { received with sCache := before.sCache } others =
        some (fw, otherTr) ∧
      (firmware cfg).observe atomicUses { received with sCache := before.sCache } others = [])
    (hevs : ∀ e ∈ evs, e.ofBmcMgr = true) (hframe : NoFrame evs)
    (hotherTr : ∀ e ∈ otherTr, e.ofBmcMgr = false)
    (hperforms : List.Forall₂ Performs
      ((firmware cfg).observe atomicUses (firmwareInit cfg ticks) fwActs) (storesAndFrames ftr)) :
    ∃ fwActs' fwTr', (firmware cfg).exec (firmwareInit cfg ticks) fwActs' = some (fw, fwTr') ∧
      bmcMgrEvents fwTr' = bmcMgrEvents fwTr ++ evs ++ [respondReading msg locals rec] ∧
      otherEvents fwTr' = otherEvents fwTr ++ otherTr ∧
      List.Forall₂ Performs ((firmware cfg).observe atomicUses (firmwareInit cfg ticks) fwActs')
        (storesAndFrames ftr ++ [.fw (respondReading msg locals rec)]) := by
  have hresponds : ∀ e ∈ evs ++ [respondReading msg locals rec], e.ofBmcMgr = true := by
    intro e he
    rcases List.mem_append.1 he with he | he
    · exact hevs e he
    · rw [List.mem_singleton.1 he]
      rfl
  have huses : List.Forall₂ Performs
      (atomicUses before (.bmcMgrTask locals) (evs ++ [respondReading msg locals rec]))
      [.fw (respondReading msg locals rec)] := by
    have hframes := performs_frames before (a := .bmcMgrTask locals) (by simp)
      (evs ++ [respondReading msg locals rec])
    rw [List.map_append, storesAndFrames_append, hframe.storesAndFrames_eq] at hframes
    exact hframes
  refine ⟨fwActs ++ .bmcMgrTask locals :: others, _, Machine.exec_append.2 ⟨_, _, _, hrun,
    Machine.exec_cons.2 ⟨_, _, _, hanswer, hothers.1, rfl⟩, rfl⟩, ?_, ?_, ?_⟩
  · rw [bmcMgrEvents_append, bmcMgrEvents_append, (events_of_mgr hresponds).1,
      (events_of_other hotherTr).1, List.append_nil, List.append_assoc]
  · rw [otherEvents_append, otherEvents_append, (events_of_mgr hresponds).2,
      (events_of_other hotherTr).2, List.nil_append]
  · rw [Machine.observe_append hrun, Machine.observe, hanswer, Option.elim_some, hothers.2,
      List.append_nil]
    exact List.rel_append hperforms huses

/-- `sensor_mgr_get_cached` returns, and the BMC Manager responds. -/
theorem Related.returnStep (h : Related cfg ticks fs ftr) (hcache : CacheInv fs.threads tr)
    {mutex : FreeRtos.Mutex (CacheThread Unit)} {recordOut : SensorRecord}
    (hreader : fs.reader = .getCached .give sensorId recordOut)
    (hrequest : fs.request = some (msg, locals)) :
    Related cfg ticks { fs with sCacheMutex := mutex, reader := .idle, request := none }
      (ftr ++ [.cache (.gotCached () sensorId recordOut), .fw (respondReading msg locals recordOut)]) := by
  cases h with
  | idle _ _ _ hnone =>
    rw [hrequest] at hnone
    cases hnone
  | call msg' locals' _ id out fwActs before received others fwTr evs otherTr hrequest' hreader' hcopied
      hrun hcommitted hreceive hothers hevs hframe hotherTr hmgr hother hperforms =>
    obtain ⟨rfl, rfl⟩ : msg = msg' ∧ locals = locals' := by simpa using hrequest.symm.trans hrequest'
    obtain ⟨rfl, rfl, rfl⟩ : ReadStep.give = _ ∧ sensorId = id ∧ recordOut = out := by
      simpa using hreader.symm.trans hreader'
    have hholds : (fs.threads.reader ()).holds = true := by
      show fs.reader.holds = true
      rw [hreader]
      rfl
    -- the reader holds the mutex, so the record that it has copied is stored
    have hmemory : before.sCache = fs.fw.sCache :=
      hcommitted.eq fun i => writes_of_not_holds (hcache.task_idle hholds) i
    have hcount : before.sCache.count = sensorMgrInit.count := by rw [hmemory]; exact hcache.count
    obtain ⟨fwActs', fwTr', hrun', hmgr', hother', hperforms'⟩ := answered hrun
      (hreceive before.sCache recordOut hcount (by rw [hmemory]; exact hcopied rfl))
      (hothers before.sCache) hevs hframe hotherTr hperforms
    have hfw : fwEvents (ftr ++ [.cache (.gotCached () sensorId recordOut),
        .fw (respondReading msg locals recordOut)]) =
          fwEvents ftr ++ [respondReading msg locals recordOut] := by simp [fwEvents]
    refine .idle fwActs' before.sCache fwTr' rfl rfl hrun' (hcommitted.congr rfl rfl) ?_ ?_ ?_
    · rw [hmgr', hmgr, hfw, bmcMgrEvents_append]
      rfl
    · rw [hother', hother, hfw, otherEvents_append]
      exact (List.append_nil _).symm
    · rw [storesAndFrames_append]
      exact hperforms'

/-! ## Runs -/

/-- The whole state after the trace `tr`. -/
structure FineInv (cfg : TickConfig) (ticks : ℕ) (s : FineFirmware) (tr : List FineEvent) : Prop where
  cache : CacheInv s.threads (cacheEvents tr)
  related : Related cfg ticks s tr

variable {tr₁ : List FineEvent}

/-- The threads around the cache when nothing of them has changed but the clock. -/
theorem cacheInv_frame (h : CacheInv fs.threads tr) (hcache : fs'.fw.sCache = fs.fw.sCache)
    (hmutex : fs'.sCacheMutex = fs.sCacheMutex) (htask : fs'.task = fs.task)
    (hreader : fs'.reader = fs.reader) : CacheInv fs'.threads tr := by
  have hthreads : fs'.threads = { fs.threads with ticks := fs'.fw.ticks } := by
    simp [FineFirmware.threads, hcache, hmutex, htask, hreader]
  rw [hthreads]
  exact ⟨h.count, h.task, h.reader, h.locked, h.records, h.copies, h.fresh, h.returned, h.noFault⟩

theorem Related.reader_calls (h : Related cfg ticks fs ftr)
    (hrequest : fs.request = some (msg, locals)) :
    ∃ step sensorId recordOut, fs.reader = .getCached step sensorId recordOut := by
  cases h with
  | idle _ _ _ hnone =>
    rw [hrequest] at hnone
    cases hnone
  | call _ _ step sensorId recordOut _ _ _ _ _ _ _ _ hreader => exact ⟨step, sensorId, recordOut, hreader⟩

theorem setReader_unit (s : SensorThreads Unit) (phase : ReaderPhase) :
    (s.setReader () phase).reader () = phase :=
  (CacheInv.setReader_reader s () () phase).trans (if_pos rfl)

theorem cacheEvents_respondTo (request : PldmMsg × TaskLocals) (evs : List (SensorEvent Unit)) :
    cacheEvents (evs.flatMap (respondTo request)) = [] := by
  induction evs with
  | nil => rfl
  | cons e evs ih =>
    rw [List.flatMap_cons, cacheEvents_append, ih]
    cases e <;> rfl

/-- Everything that a step of `sensor_mgr_get_cached` in the BMC Manager can do. -/
inductive FineRead (fs : FineFirmware) (msg : PldmMsg) (locals : TaskLocals) (sensorId : UInt8)
    (recordOut : SensorRecord) : ReadStep → FineFirmware → List FineEvent → Prop
  | lock : FineRead fs msg locals sensorId recordOut .take
      { fs with sCacheMutex := ⟨some (.reader ())⟩, reader := .getCached .copy sensorId recordOut } []
  | copy (rec : SensorRecord) (hrec : fs.fw.sCache.records[sensorId.toNat]? = some rec) :
    FineRead fs msg locals sensorId recordOut .copy
      { fs with reader := .getCached .give sensorId rec } []
  | respond : FineRead fs msg locals sensorId recordOut .give
      { fs with sCacheMutex := ⟨none⟩, reader := .idle, request := none }
      [.cache (.gotCached () sensorId recordOut), .fw (respondReading msg locals recordOut)]

theorem fineRead_cases {step : ReadStep} {recordOut : SensorRecord}
    (hrequest : fs.request = some (msg, locals))
    (hreader : fs.reader = .getCached step sensorId recordOut)
    (hs : SensorStep cfg fs.threads (.readerStep ()) s' sevs) :
    FineRead fs msg locals sensorId recordOut step
      { fs.setThreads s' with
        request := if s'.reader () = .idle then none else some (msg, locals) }
      (sevs.map .cache ++ sevs.flatMap (respondTo (msg, locals))) := by
  cases hs with
  | readerLock i phase hr hfree =>
    cases i
    have hlocks : ReaderLocks fs.reader phase := hr
    rw [hreader] at hlocks
    cases hlocks
    simp only [FineFirmware.setThreads, setReader_unit, reduceCtorEq, if_false]
    rw [← hrequest]
    exact .lock
  | readerCopy i phase hr =>
    cases i
    have hcopies : ReaderCopies fs.fw.sCache fs.reader phase := hr
    rw [hreader] at hcopies
    cases hcopies with
    | getCached _ _ rec hrec =>
      simp only [FineFirmware.setThreads, setReader_unit, reduceCtorEq, if_false]
      rw [← hrequest]
      exact .copy rec hrec
  | readerReturn i e hr =>
    cases i
    have hreturns : ReaderReturns () fs.reader e := hr
    rw [hreader] at hreturns
    cases hreturns
    simp only [FineFirmware.setThreads, setReader_unit, if_true]
    exact .respond

theorem Related.read (h : Related cfg ticks fs ftr) (hcache : CacheInv fs.threads tr)
    {step : ReadStep} {recordOut : SensorRecord} {fevs : List FineEvent}
    (hrequest : fs.request = some (msg, locals))
    (hreader : fs.reader = .getCached step sensorId recordOut)
    (hread : FineRead fs msg locals sensorId recordOut step fs' fevs) :
    Related cfg ticks fs' (ftr ++ fevs) := by
  cases hread with
  | lock =>
    rw [List.append_nil]
    exact h.readStep hreader (by simp)
  | copy rec hrec =>
    rw [List.append_nil]
    exact h.readStep hreader fun _ => hrec
  | respond => exact h.returnStep hcache hreader hrequest

/-- A step of `sensor_mgr_get_cached` in the BMC Manager. -/
theorem FineInv.readerStep (h : FineInv cfg ticks fs tr₁) (hrequest : fs.request = some (msg, locals))
    (hs : NicObFw.readerStep fs.threads () = some (s', sevs)) :
    FineInv cfg ticks
      { fs.setThreads s' with
        request := if s'.reader () = .idle then none else some (msg, locals) }
      (tr₁ ++ (sevs.map .cache ++ sevs.flatMap (respondTo (msg, locals)))) := by
  have hstep : SensorStep cfg fs.threads (.readerStep ()) s' sevs :=
    sensorThreads_step_cases h.cache.task h.cache.reader hs
  obtain ⟨step, sensorId, recordOut, hreader⟩ := h.related.reader_calls hrequest
  refine ⟨?_, ?_⟩
  · have hticks : s'.ticks = fs.fw.ticks := by cases hstep <;> rfl
    rw [cacheEvents_append, cacheEvents_append, cacheEvents_map_cache, cacheEvents_respondTo,
      List.append_nil]
    show CacheInv (fs.setThreads s').threads _
    rw [threads_setThreads hticks]
    exact h.cache.step hstep
  · exact h.related.read h.cache hrequest hreader (fineRead_cases hrequest hreader hstep)

/-- Everything that a step of the machine can do. -/
inductive FineStep (cfg : TickConfig) (fs : FineFirmware) : FineFirmware → List FineEvent → Prop
  | read (msg : PldmMsg) (locals : TaskLocals) (s' : SensorThreads Unit)
      (sevs : List (SensorEvent Unit)) (hrequest : fs.request = some (msg, locals))
      (hread : readerStep fs.threads () = some (s', sevs)) :
    FineStep cfg fs
      { fs.setThreads s' with
        request := if s'.reader () = .idle then none else some (msg, locals) }
      (sevs.map .cache ++ sevs.flatMap (respondTo (msg, locals)))
  | call (locals : TaskLocals) (recordOut : SensorRecord) (fw' : Firmware) (msg : PldmMsg)
      (sensorId : UInt8) (evs : List FwEvent) (hrequest : fs.request = none)
      (hcalls : bmcMgrTaskCalls cfg fs.fw locals = some (fw', msg, sensorId, evs)) :
    FineStep cfg fs
      { fs with
        fw := fw', reader := .getCached .take sensorId recordOut, request := some (msg, locals) }
      (evs.map .fw)
  | task (locals : TaskLocals) (fw' : Firmware) (evs : List FwEvent) (hrequest : fs.request = none)
      (hno : bmcMgrTaskCalls cfg fs.fw locals = none)
      (htask : bmcMgrTask cfg fs.fw locals = some (fw', evs)) :
    FineStep cfg fs { fs with fw := fw' } (evs.map .fw)
  | sensor (hal : SensorHal) (s' : SensorThreads Unit) (sevs : List (SensorEvent Unit))
      (htask : sensorMgrTask cfg fs.threads hal = some (s', sevs)) :
    FineStep cfg fs (fs.setThreads s') (sevs.map .cache)
  | other (a : FwAction) (fw' : Firmware) (evs : List FwEvent) (ha : a.isOther = true)
      (hother : (firmware cfg).step fs.fw a = some (fw', evs)) :
    FineStep cfg fs { fs with fw := fw' } (evs.map .fw)

theorem FineInv.step {fevs : List FineEvent} (h : FineInv cfg ticks fs tr₁)
    (hs : FineStep cfg fs fs' fevs) : FineInv cfg ticks fs' (tr₁ ++ fevs) := by
  cases hs with
  | read msg locals s' sevs hrequest hread => exact h.readerStep hrequest hread
  | call locals recordOut fw' msg sensorId evs hrequest hcalls =>
    obtain ⟨hsame, hlt, hrelated⟩ := h.related.callStep h.cache hrequest hcalls recordOut
    have hreader : fs.reader = .idle := (h.related.of_no_request hrequest).1
    have hcache : CacheInv ({ fs with reader := .getCached .take sensorId recordOut } :
        FineFirmware).threads (cacheEvents tr₁) :=
      h.cache.readerStep () (.getCached .take sensorId recordOut) hlt
        (by show _ = fs.reader.holds; rw [hreader]; rfl) trivial
    refine ⟨?_, ?_⟩
    · rw [cacheEvents_append, cacheEvents_map_fw, List.append_nil]
      exact cacheInv_frame hcache hsame rfl rfl rfl
    · exact hrelated
  | task locals fw' evs hrequest hno htask =>
    obtain ⟨hsame, hrelated⟩ := h.related.taskStep hrequest hno htask
    refine ⟨?_, ?_⟩
    · rw [cacheEvents_append, cacheEvents_map_fw, List.append_nil]
      exact cacheInv_frame h.cache hsame rfl rfl rfl
    · exact hrelated
  | sensor hal s' sevs htask =>
    have hstep : SensorStep cfg fs.threads (.sensorMgrTask hal) s' sevs :=
      sensorThreads_step_cases h.cache.task h.cache.reader htask
    refine ⟨?_, ?_⟩
    · rw [cacheEvents_append, cacheEvents_map_cache, threads_setThreads (sensorStep_frame hstep).2.1]
      exact h.cache.step hstep
    · exact h.related.sensorStep h.cache hstep
  | other a fw' evs ha hother =>
    refine ⟨?_, ?_⟩
    · rw [cacheEvents_append, cacheEvents_map_fw, List.append_nil]
      exact cacheInv_frame h.cache (sCache_of_other ha hother) rfl rfl rfl
    · exact h.related.otherStep ha hother

end NicObFw
