import NicObFw.Proofs.DispatchProofs
import NicObFw.Proofs.SensorHealthProofs

/-!
# Proofs: which sensor a record names

Nothing ever writes `sensor_id` and `sensor_type` of a cached record, so they keep the zeros of
`sensor_mgr_init` (`unnamedInv_of_exec`). That is right for the first sensor only.
-/

namespace NicObFw

variable {ι : Type} {cfg : TickConfig} {s s' : SensorThreads ι} {tr evs : List (SensorEvent ι)}

/-- The record names no sensor: both members are zero. -/
def SensorRecord.Unnamed (rec : SensorRecord) : Prop := rec.sensorId = 0 ∧ rec.sensorType = 0

/-- No record names a sensor, in the cache, in the hands of a reader, or returned to one. -/
structure UnnamedInv (s : SensorThreads ι) (tr : List (SensorEvent ι)) : Prop where
  records : ∀ (k : ℕ) (rec : SensorRecord), s.sCache.records[k]? = some rec → rec.Unnamed
  copied : ∀ i sensorId rec, s.reader i = .getCached .give sensorId rec → rec.Unnamed
  got : ∀ i sensorId rec, .gotCached i sensorId rec ∈ tr → rec.Unnamed

theorem unnamedInv_init (ι : Type) (ticks : ℕ) : UnnamedInv (sensorThreadsInit ι ticks) [] where
  records := by
    intro k rec hrec
    simp only [sensorThreadsInit, sensorMgrInit, Vector.getElem?_replicate] at hrec
    split at hrec
    · obtain rfl := Option.some.inj hrec
      exact ⟨rfl, rfl⟩
    · cases hrec
  copied := fun _ _ _ h => by cases h
  got := fun _ _ _ h => absurd h List.not_mem_nil

/-- No assignment to a field names the sensor. -/
theorem FieldWrite.unnamed {ticks : ℕ} {reading : Reading} {step next : StoreStep}
    {f : SensorRecord → SensorRecord} (hw : FieldWrite cfg ticks reading step f next evs)
    {rec : SensorRecord} (h : rec.Unnamed) : (f rec).Unnamed := by
  cases hw with
  | rawValue => exact h
  | scaledValue => exact h
  | state state hstate => exact h
  | timestampMs => exact h

theorem FieldWrite.no_got {ticks : ℕ} {reading : Reading} {step next : StoreStep}
    {f : SensorRecord → SensorRecord} (hw : FieldWrite cfg ticks reading step f next evs)
    {i : ι} {sensorId : UInt8} {rec : SensorRecord} : .gotCached i sensorId rec ∉ evs := by
  cases hw <;> simp

namespace UnnamedInv

/-- A step that leaves the cache and the readers alone, and returns no record. -/
theorem quiet (h : UnnamedInv s tr) (hcache : s'.sCache = s.sCache) (hreader : s'.reader = s.reader)
    (hevs : ∀ i sensorId rec, .gotCached i sensorId rec ∉ evs) : UnnamedInv s' (tr ++ evs) where
  records := by
    rw [hcache]
    exact h.records
  copied := by
    rw [hreader]
    exact h.copied
  got i sensorId rec hmem := by
    rcases List.mem_append.1 hmem with hold | hnew
    · exact h.got i sensorId rec hold
    · exact absurd hnew (hevs i sensorId rec)

variable [DecidableEq ι]

/-- A reader goes to a phase in which it holds no record that names a sensor. -/
theorem readerMoves (h : UnnamedInv s tr) (i : ι) {phase : ReaderPhase}
    (hphase : ∀ sensorId rec, phase = .getCached .give sensorId rec → rec.Unnamed)
    (hcache : s'.sCache = s.sCache) (hreader : s'.reader = (s.setReader i phase).reader)
    (hevs : ∀ j sensorId rec, .gotCached j sensorId rec ∈ evs → rec.Unnamed) :
    UnnamedInv s' (tr ++ evs) where
  records := by
    rw [hcache]
    exact h.records
  copied j sensorId rec hj := by
    rw [hreader, CacheInv.setReader_reader] at hj
    split at hj
    · exact hphase sensorId rec hj
    · exact h.copied j sensorId rec hj
  got j sensorId rec hmem := by
    rcases List.mem_append.1 hmem with hold | hnew
    · exact h.got j sensorId rec hold
    · exact hevs j sensorId rec hnew

theorem step {a : SensorAction ι} (h : UnnamedInv s tr) (hs : SensorStep cfg s a s' evs) :
    UnnamedInv s' (tr ++ evs) := by
  cases hs with
  | pollStart hal ht => exact h.quiet rfl rfl (by simp)
  | pollEnd hal ht => exact h.quiet rfl rfl (by simp)
  | readFailed hal sensorId todo ht => exact h.quiet rfl rfl (by simp)
  | readOk hal reading todo ht hcal => exact h.quiet rfl rfl (by simp)
  | lock hal reading todo ht hfree => exact h.quiet rfl rfl (by simp)
  | unlock hal reading todo ht => exact h.quiet rfl rfl (by simp)
  | callFails i sensorId recordOut hr hge => exact h.quiet rfl rfl (by simp)
  | clock ticks => exact h.quiet rfl rfl (by simp)
  | write hal step next reading todo f rec evs ht hw hrec =>
    refine ⟨fun k rec' hk => ?_, h.copied, fun i sensorId rec' hmem => ?_⟩
    · rw [Vector.getElem?_setIfInBounds] at hk
      split at hk
      · split at hk
        · obtain rfl := Option.some.inj hk
          exact hw.unnamed (h.records _ rec hrec)
        · cases hk
      · exact h.records k rec' hk
    · rcases List.mem_append.1 hmem with hold | hnew
      · exact h.got i sensorId rec' hold
      · exact absurd hnew hw.no_got
  | getCached i sensorId recordOut hr hlt =>
    exact h.readerMoves i (fun _ _ hp => by cases hp) rfl rfl (by simp)
  | getCacheSnapshot i snapshotOut hr =>
    exact h.readerMoves i (fun _ _ hp => by cases hp) rfl rfl (by simp)
  | readerLock i phase hr hfree =>
    refine h.readerMoves i (fun sensorId rec hp => ?_) rfl rfl (by simp)
    subst hp
    generalize s.reader i = old at hr
    cases hr
  | readerCopy i phase hr =>
    refine h.readerMoves i (fun sensorId rec hp => ?_) rfl rfl (by simp)
    subst hp
    generalize s.reader i = old at hr
    cases hr with
    | getCached _ _ _ hrec => exact h.records _ rec hrec
  | readerReturn i e hr =>
    refine h.readerMoves i (fun _ _ hp => by cases hp) rfl rfl fun j sensorId rec hmem => ?_
    obtain rfl := List.mem_singleton.1 hmem
    have hcopied := h.copied i
    generalize s.reader i = old at hr hcopied
    cases hr with
    | gotCached _ _ => exact hcopied sensorId rec rfl

end UnnamedInv

variable [DecidableEq ι]

theorem unnamedInv_of_exec {ticks : ℕ} {acts : List (SensorAction ι)}
    (hrun : (sensorThreads ι cfg).exec (sensorThreadsInit ι ticks) acts = some (s, tr)) :
    UnnamedInv s tr :=
  (sensorThreads_invariant (unnamedInv_init ι ticks) (fun h hs => h.step hs) hrun).2

/-! ## The record of a sensor -/

/-- The table lists a sensor of type zero for every id below the count. -/
theorem sensorType_of_lt {sensorId : UInt8} (h : sensorId < sensorMgrInit.count) :
    (sSensorMap[sensorId.toNat]?).map SensorHwMap.sensorType = some sensorTypeTemp := by
  have hlt : sensorId.toNat < 2 := UInt8.lt_iff_toNat_lt.1 h
  have hid : sensorId.toNat = 0 ∨ sensorId.toNat = 1 := by omega
  rcases hid with hid | hid <;> rw [hid] <;> rfl

theorem toUInt16_eq_zero {sensorId : UInt8} : (0 : UInt16) = sensorId.toUInt16 ↔ sensorId = 0 := by
  rw [eq_comm, ← UInt16.toNat_inj, ← UInt8.toNat_inj]
  rfl

/-- The record of the first sensor names it, and that of no other one does. -/
theorem SensorRecord.Unnamed.identifies_iff {rec : SensorRecord} (h : rec.Unnamed) {sensorId : UInt8}
    (hlt : sensorId < sensorMgrInit.count) : rec.Identifies sensorId ↔ sensorId = 0 := by
  obtain ⟨hid, htype⟩ := h
  rw [SensorRecord.Identifies, sensorType_of_lt hlt, hid, htype, toUInt16_eq_zero]
  exact and_iff_left rfl

/-- The same of its bytes. -/
theorem SensorRecord.Unnamed.dataIdentifies_iff {rec : SensorRecord} (h : rec.Unnamed)
    {sensorId : UInt8} (hlt : sensorId < sensorMgrInit.count) :
    DataIdentifies rec.bytes sensorId ↔ sensorId = 0 := by
  have hbytes : rec.bytes.take 2 = bytesOf16 0 ∧ rec.bytes[2]? = some 0 := by
    obtain ⟨hid, htype⟩ := h
    rw [SensorRecord.bytes, hid, htype]
    exact ⟨rfl, rfl⟩
  have hinj : bytesOf16 0 = bytesOf16 sensorId.toUInt16 ↔ sensorId = 0 := by
    refine ⟨fun heq => ?_, fun heq => by rw [heq]; rfl⟩
    have hlow : (0 : UInt8) = sensorId.toUInt16.toUInt8 := (List.cons.inj heq).1
    rw [UInt8.toUInt8_toUInt16] at hlow
    exact hlow.symm
  rw [DataIdentifies, sensorType_of_lt hlt, hbytes.1, hbytes.2, hinj]
  exact and_iff_left rfl

/-- A `GET_SENSOR_READING` for a sensor below the count is answered with its record. -/
theorem dispatchPldm_record {sCache : SensorCache} (hcount : sCache.count.toNat ≤ maxSensors)
    (q : FreeRtos.Queue FlashCmd queueDepthFlash) (msg : PldmMsg) (locals : TaskLocals)
    (hty : msg.pldmType = pldmTypeSensorMonitoring) (hcmd : msg.command = pldmCmdGetSensorReading)
    {sensorId : UInt8} (hid : (if msg.payloadLen.toNat > 0 then msg.payload[0] else 0) = sensorId)
    (hlt : sensorId < sCache.count) {rec : SensorRecord}
    (hrec : sCache.records[sensorId.toNat]? = some rec) :
    ∃ frame length, (dispatchPldm sCache q msg locals).2 = [.transmit frame length] ∧
      frame[7]? = some pldmCcSuccess ∧ frame.drop 8 = rec.bytes := by
  have hanswer : sensorAnswer sCache sensorId = ⟨pldmCcSuccess, rec.bytes⟩ := by
    have hlist : sCache.records.toList[sensorId.toNat]? = some rec := by
      rw [Vector.getElem?_toList, hrec]
    simp only [sensorAnswer, hlt, if_true, hlist, Option.elim]
  obtain ⟨length, -, hdisp⟩ := dispatchPldm_sensor sCache q msg hcount locals hty hcmd
  rw [hid, hanswer] at hdisp
  exact ⟨_, length, congrArg Prod.snd hdisp, rfl, rfl⟩

/-- In every state that the threads around the cache reach, and for every sensor below the count:
`sensor_mgr_get_cached` returns a record, which names the sensor if and only if its id is zero; so do the
records that the readers got; and so does the data of the answer to a `GET_SENSOR_READING` for it. -/
theorem sensorMgr_identifies_iff (ι : Type) [DecidableEq ι] (cfg : TickConfig) (ticks : ℕ)
    (acts : List (SensorAction ι)) (s : SensorThreads ι) (tr : List (SensorEvent ι))
    (hrun : (sensorThreads ι cfg).exec (sensorThreadsInit ι ticks) acts = some (s, tr))
    (sensorId : UInt8) (hlt : sensorId < s.sCache.count) :
    (∃ rec, sensorMgrGetCached s.sCache sensorId = some rec ∧
      (rec.Identifies sensorId ↔ sensorId = 0)) ∧
    (∀ i rec, .gotCached i sensorId rec ∈ tr → (rec.Identifies sensorId ↔ sensorId = 0)) ∧
    ∀ (q : FreeRtos.Queue FlashCmd queueDepthFlash) (msg : PldmMsg) (locals : TaskLocals),
      msg.pldmType = pldmTypeSensorMonitoring → msg.command = pldmCmdGetSensorReading →
      (if msg.payloadLen.toNat > 0 then msg.payload[0] else 0) = sensorId →
      ∃ frame length, (dispatchPldm s.sCache q msg locals).2 = [.transmit frame length] ∧
        frame[7]? = some pldmCcSuccess ∧
        (DataIdentifies (frame.drop 8) sensorId ↔ sensorId = 0) := by
  obtain ⟨hcache, -⟩ := sensorInv_of_exec hrun
  have hnames := unnamedInv_of_exec hrun
  have hlt' : sensorId < sensorMgrInit.count := hcache.count ▸ hlt
  obtain ⟨rec, hrec⟩ := exists_record s.sCache hlt'
  have hunnamed : rec.Unnamed := hnames.records _ rec hrec
  refine ⟨⟨rec, (hcache.getCached_eq hlt').trans hrec, hunnamed.identifies_iff hlt'⟩, ?_, ?_⟩
  · intro i rec hgot
    exact (hnames.got i sensorId rec hgot).identifies_iff hlt'
  · intro q msg locals hty hcmd hid
    have hcount : s.sCache.count.toNat ≤ maxSensors := by
      rw [hcache.count]
      decide
    obtain ⟨frame, length, hdisp, hcc, hdata⟩ :=
      dispatchPldm_record hcount q msg locals hty hcmd hid hlt hrec
    refine ⟨frame, length, hdisp, hcc, ?_⟩
    rw [hdata]
    exact hunnamed.dataIdentifies_iff hlt'

theorem sensorMgr_identifies_firstSensor :
    ∃ s tr, (sensorThreads ℕ ⟨10, 100⟩).exec (sensorThreadsInit ℕ 0) firstSensorRun = some (s, tr) ∧
      (0 : UInt8) < s.sCache.count ∧
      ∃ rec, sensorMgrGetCached s.sCache 0 = some rec ∧ rec.Identifies 0 := by
  have heval : ((sensorThreads ℕ ⟨10, 100⟩).exec (sensorThreadsInit ℕ 0) firstSensorRun).any (fun r =>
      0 < r.1.sCache.count) = true := by
    decide +kernel
  obtain ⟨s, tr, hrun, hlt⟩ := Machine.exists_of_any heval
  obtain ⟨⟨rec, hget, hiff⟩, -, -⟩ :=
    sensorMgr_identifies_iff ℕ ⟨10, 100⟩ 0 firstSensorRun s tr hrun 0 hlt
  exact ⟨s, tr, hrun, hlt, rec, hget, hiff.2 rfl⟩

/-- Right after `sensor_mgr_init` the record of the second sensor says that it is the first one's. -/
theorem secondSensor_misidentified :
    (sensorThreads ℕ ⟨10, 100⟩).exec (sensorThreadsInit ℕ 0) [] = some (sensorThreadsInit ℕ 0, []) ∧
      (1 : UInt8) < (sensorThreadsInit ℕ 0).sCache.count ∧
      ∃ rec, sensorMgrGetCached (sensorThreadsInit ℕ 0).sCache 1 = some rec ∧ ¬ rec.Identifies 1 ∧
        rec.Identifies 0 := by
  refine ⟨rfl, by decide, _, rfl, by decide, by decide⟩

end NicObFw
