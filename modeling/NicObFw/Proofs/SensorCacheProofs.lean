import NicObFw.Proofs.SensorReadsProofs

/-!
# Proofs: the sensor cache

Whenever `s_cache_mutex` is free, the cache shows the last reading stored of every sensor
(`sensorMgr_cacheCurrent`). While the sensor thread holds the mutex the record that it writes is some way
between two readings, and a reader that holds it finds a cache that stays current until it has returned.
-/

namespace NicObFw

variable {ι : Type}

/-! ## What a record shows in the middle of a store -/

/-- The record of the sensor that is being stored: the fields written so far are those of the reading. -/
def StoreStep.Shows (step : StoreStep) (reading : Reading) (last : Option (Int16 × UInt32))
    (rec : SensorRecord) : Prop :=
  match step with
  | take | rawValue | give => Current reading.sensorId last rec
  | scaledValue => rec.rawValue = reading.raw
  | state => rec.rawValue = reading.raw ∧ rec.scaledValue = reading.scaled
  | timestampMs =>
    rec.rawValue = reading.raw ∧ rec.scaledValue = reading.scaled ∧
      checkThresholds reading.sensorId rec.scaledValue = .ok rec.state

/-- The record of any sensor. -/
def SensorTaskPhase.Shows (task : SensorTaskPhase) (sensorId : UInt8)
    (last : Option (Int16 × UInt32)) (rec : SensorRecord) : Prop :=
  match task with
  | store step reading _ =>
    if sensorId = reading.sensorId then step.Shows reading last rec else Current sensorId last rec
  | _ => Current sensorId last rec

/-- The sensor thread holds the mutex. -/
def SensorTaskPhase.holds : SensorTaskPhase → Bool
  | store .take _ _ => false
  | store .. => true
  | _ => false

/-- A reader in this phase holds the mutex. -/
def ReaderPhase.holds : ReaderPhase → Bool
  | getCached step .. => step != .take
  | getCacheSnapshot step _ => step != .take
  | _ => false

/-- What a reader has copied is current. -/
def ReaderPhase.Shows (tr : List (SensorEvent ι)) : ReaderPhase → Prop
  | getCached .give sensorId recordOut => Current sensorId (lastStored tr sensorId) recordOut
  | getCacheSnapshot .give snapshotOut => CacheCurrent snapshotOut tr
  | _ => True

/-- The threads that are in a section under the mutex. -/
def SensorThreads.Holds (s : SensorThreads ι) : CacheThread ι → Prop
  | .sensorMgr => s.task.holds = true
  | .reader i => (s.reader i).holds = true

/-- Before the first field is written, and after the last, every record is current. -/
theorem shows_store_iff {step : StoreStep} (h : step = .take ∨ step = .rawValue ∨ step = .give)
    {reading : Reading} {todo : List UInt8} {sensorId : UInt8} {last : Option (Int16 × UInt32)}
    {rec : SensorRecord} :
    (SensorTaskPhase.store step reading todo).Shows sensorId last rec ↔ Current sensorId last rec := by
  have hstep : step.Shows reading last rec ↔ Current reading.sensorId last rec := by
    rcases h with rfl | rfl | rfl <;> rfl
  rw [SensorTaskPhase.Shows]
  split
  · rename_i heq
    rw [hstep, heq]
  · rfl

/-- Outside the section every record is current. -/
theorem SensorTaskPhase.shows_iff {task : SensorTaskPhase} (h : task.holds = false)
    {sensorId : UInt8} {last : Option (Int16 × UInt32)} {rec : SensorRecord} :
    task.Shows sensorId last rec ↔ Current sensorId last rec := by
  cases task with
  | store step reading todo =>
    cases step with
    | take => exact shows_store_iff (Or.inl rfl)
    | _ => simp [holds] at h
  | _ => rfl

/-- A reader outside its section has copied nothing. -/
theorem ReaderPhase.shows_of_free {phase : ReaderPhase} (h : phase.holds = false)
    (tr : List (SensorEvent ι)) : phase.Shows tr := by
  cases phase with
  | getCached step sensorId recordOut =>
    cases step with
    | give => simp [holds] at h
    | _ => trivial
  | getCacheSnapshot step snapshotOut =>
    cases step with
    | give => simp [holds] at h
    | _ => trivial
  | _ => trivial

/-! ## Histories -/

/-- The event reports that a record was stored. -/
def SensorEvent.isStored : SensorEvent ι → Bool
  | stored .. => true
  | _ => false

theorem storedReadings_quiet {evs : List (SensorEvent ι)} (h : ∀ e ∈ evs, e.isStored = false)
    (sensorId : UInt8) : storedReadings evs sensorId = [] :=
  Trace.filterMap_quiet (fun e he => by cases e <;> simp_all [SensorEvent.isStored]) h

theorem lastStored_quiet {evs : List (SensorEvent ι)} (tr : List (SensorEvent ι))
    (h : ∀ e ∈ evs, e.isStored = false) (sensorId : UInt8) :
    lastStored (tr ++ evs) sensorId = lastStored tr sensorId := by
  rw [lastStored, storedReadings_append, storedReadings_quiet h, List.append_nil, lastStored]

theorem lastStored_stored (tr : List (SensorEvent ι)) (id sensorId : UInt8) (raw : Int16)
    (tickMs : UInt32) :
    lastStored (tr ++ [.stored id raw tickMs]) sensorId =
      if id = sensorId then some (raw, tickMs) else lastStored tr sensorId := by
  rw [lastStored, storedReadings_append, storedReadings_stored]
  split
  · exact List.getLast?_concat
  · rw [List.append_nil, lastStored]

theorem cacheCurrent_congr {sCache : SensorCache} {tr tr' : List (SensorEvent ι)}
    (h : ∀ sensorId, lastStored tr' sensorId = lastStored tr sensorId) :
    CacheCurrent sCache tr' ↔ CacheCurrent sCache tr := by
  simp only [CacheCurrent, h]

theorem ReaderPhase.shows_congr {tr tr' : List (SensorEvent ι)}
    (h : ∀ sensorId, lastStored tr' sensorId = lastStored tr sensorId) (phase : ReaderPhase) :
    phase.Shows tr' ↔ phase.Shows tr := by
  cases phase with
  | getCached step sensorId recordOut => cases step <;> simp only [Shows, h]
  | getCacheSnapshot step snapshotOut => cases step <;> simp only [Shows, cacheCurrent_congr h]
  | _ => rfl

/-! ## The invariant -/

/-- The threads and the cache after the trace `tr`. -/
structure CacheInv (s : SensorThreads ι) (tr : List (SensorEvent ι)) : Prop where
  count : s.sCache.count = sensorMgrInit.count
  task : s.task.Fits
  reader : ∀ i, (s.reader i).Fits
  locked : ∀ θ, s.sCacheMutex.holder = some θ ↔ s.Holds θ
  records : ∀ sensorId rec, s.sCache.records[sensorId.toNat]? = some rec →
    s.task.Shows sensorId (lastStored tr sensorId) rec
  copies : ∀ i, (s.reader i).Shows tr
  fresh : ∀ sensorId, ¬ sensorId < sensorMgrInit.count → lastStored tr sensorId = none
  returned : Trace.EachGiven ReturnsCurrent tr
  noFault : ∀ f, .fault f ∉ tr

variable {cfg : TickConfig} {s s' : SensorThreads ι} {tr evs : List (SensorEvent ι)}

theorem cacheInv_init (ι : Type) (ticks : ℕ) :
    CacheInv (sensorThreadsInit ι ticks) [] where
  count := rfl
  task := trivial
  reader := fun _ => trivial
  locked := by
    intro θ
    cases θ <;> simp [sensorThreadsInit, FreeRtos.Mutex.create, SensorThreads.Holds,
      SensorTaskPhase.holds, ReaderPhase.holds]
  records := by
    intro sensorId rec hrec
    simp only [sensorThreadsInit, sensorMgrInit, Vector.getElem?_replicate] at hrec
    split at hrec
    · exact (Option.some.inj hrec).symm
    · cases hrec
  copies := fun _ => trivial
  fresh := fun _ _ => rfl
  returned := Trace.eachGiven_nil
  noFault := by simp

namespace CacheInv

theorem cacheCurrent (h : CacheInv s tr) (htask : s.task.holds = false) : CacheCurrent s.sCache tr := by
  refine ⟨h.count, fun sensorId rec hrec => ?_⟩
  have hcur := (SensorTaskPhase.shows_iff htask).1 (h.records sensorId rec hrec)
  split
  · exact hcur
  · rename_i hge
    rw [h.count] at hge
    rwa [h.fresh sensorId hge] at hcur

/-- While the mutex is free no section is open. -/
theorem closed_of_free (h : CacheInv s tr) (hfree : s.sCacheMutex.holder = none) :
    s.task.holds = false := by
  by_contra ht
  have hm := (h.locked .sensorMgr).2 (show s.task.holds = true by simpa using ht)
  rw [hfree] at hm
  cases hm

theorem getCached_eq (h : CacheInv s tr) {sensorId : UInt8} (hlt : sensorId < sensorMgrInit.count) :
    sensorMgrGetCached s.sCache sensorId = s.sCache.records[sensorId.toNat]? := by
  rw [sensorMgrGetCached, h.count, if_neg (UInt8.not_le.2 hlt)]

/-- At most one section is open. -/
theorem task_idle (h : CacheInv s tr) {i : ι} (hi : (s.reader i).holds = true) :
    s.task.holds = false := by
  have hr : s.sCacheMutex.holder = some (.reader i) := (h.locked (.reader i)).2 hi
  by_contra ht
  have hm := (h.locked .sensorMgr).2 (show s.task.holds = true by simpa using ht)
  rw [hr] at hm
  cases hm

theorem quiet (h : CacheInv s tr) (hquiet : ∀ e ∈ evs, e.isStored = false)
    (hcache : s'.sCache.count = s.sCache.count) (htask : s'.task.Fits)
    (hreader : ∀ i, (s'.reader i).Fits) (hlocked : ∀ θ, s'.sCacheMutex.holder = some θ ↔ s'.Holds θ)
    (hrecords : ∀ sensorId rec, s'.sCache.records[sensorId.toNat]? = some rec →
      s'.task.Shows sensorId (lastStored tr sensorId) rec)
    (hcopies : ∀ i, (s'.reader i).Shows tr)
    (hreturned : Trace.EachGiven (fun pre e => ReturnsCurrent (tr ++ pre) e) evs)
    (hfault : ∀ f, .fault f ∉ evs) : CacheInv s' (tr ++ evs) := by
  have hlast := lastStored_quiet tr hquiet
  refine ⟨hcache.trans h.count, htask, hreader, hlocked, fun sensorId rec hrec => ?_, fun i => ?_,
    fun sensorId hge => ?_, Trace.eachGiven_append.2 ⟨h.returned, hreturned⟩, fun f hf => ?_⟩
  · rw [hlast]
    exact hrecords sensorId rec hrec
  · exact (ReaderPhase.shows_congr hlast _).2 (hcopies i)
  · rw [hlast]
    exact h.fresh sensorId hge
  · exact (List.mem_append.1 hf).elim (h.noFault f) (hfault f)

/-- A step of the sensor thread outside its sections. -/
theorem taskStep (h : CacheInv s tr) {task : SensorTaskPhase} (hold : s.task.holds = false)
    (hnew : task.holds = false) (hfits : task.Fits) (hquiet : ∀ e ∈ evs, e.isStored = false)
    (hreturned : Trace.EachGiven (fun pre e => ReturnsCurrent (tr ++ pre) e) evs)
    (hfault : ∀ f, .fault f ∉ evs) : CacheInv { s with task } (tr ++ evs) := by
  refine h.quiet hquiet rfl hfits h.reader (fun θ => ?_) (fun sensorId rec hrec => ?_) h.copies
    hreturned hfault
  · rw [h.locked]
    cases θ with
    | sensorMgr => simp [SensorThreads.Holds, hold, hnew]
    | reader i => rfl
  · exact (SensorTaskPhase.shows_iff hnew).2
      ((SensorTaskPhase.shows_iff hold).1 (h.records sensorId rec hrec))

/-- What a call reports when it returns. -/
theorem returns (h : CacheInv s tr) {e : SensorEvent ι} (hstored : e.isStored = false)
    (hcurrent : ReturnsCurrent tr e) (hfault : ∀ f, e ≠ .fault f) : CacheInv s (tr ++ [e]) := by
  refine h.quiet (by simpa using hstored) rfl h.task h.reader h.locked h.records h.copies ?_ ?_
  · exact Trace.eachGiven_singleton.2 (by simpa using hcurrent)
  · simpa using fun f hf => hfault f hf.symm

theorem taskLock (h : CacheInv s tr) {reading : Reading} {todo : List UInt8}
    (ht : s.task = .store .take reading todo) (hfree : s.sCacheMutex.holder = none) :
    CacheInv { s with sCacheMutex := ⟨some .sensorMgr⟩, task := .store .rawValue reading todo } tr := by
  have hfits := h.task
  have hrecords := h.records
  rw [ht] at hfits hrecords
  refine ⟨h.count, hfits, h.reader, fun θ => ?_, hrecords, h.copies, h.fresh, h.returned, h.noFault⟩
  cases θ with
  | sensorMgr => exact iff_of_true rfl rfl
  | reader i =>
    have hnone : ¬ s.Holds (.reader i) := by
      rw [← h.locked, hfree]
      simp
    exact iff_of_false (by simp) hnone

theorem reader_waits (h : CacheInv s tr) (ht : s.task.holds = true) (i : ι) :
    (s.reader i).holds = false := by
  by_contra hi
  rw [h.task_idle (by simpa using hi)] at ht
  cases ht

theorem taskUnlock (h : CacheInv s tr) {reading : Reading} {todo : List UInt8}
    (ht : s.task = .store .give reading todo) :
    CacheInv { s with sCacheMutex := ⟨none⟩, task := .poll todo } tr := by
  have hfits := h.task
  have hrecords := h.records
  have hwaits := h.reader_waits (by rw [ht]; rfl)
  rw [ht] at hfits hrecords
  refine ⟨h.count, hfits.2.2, h.reader, fun θ => ?_, fun sensorId rec hrec => ?_, h.copies, h.fresh,
    h.returned, h.noFault⟩
  · cases θ with
    | sensorMgr => exact iff_of_false (by simp) (by simp [SensorThreads.Holds, SensorTaskPhase.holds])
    | reader i => exact iff_of_false (by simp) (by simp [SensorThreads.Holds, hwaits i])
  · exact (shows_store_iff (Or.inr (Or.inr rfl))).1 (hrecords sensorId rec hrec)

theorem getElem?_setRecord {n : ℕ} {records : Vector SensorRecord n} {sensorId id : UInt8}
    {rec rec' : SensorRecord} (h : (records.setIfInBounds sensorId.toNat rec)[id.toNat]? = some rec') :
    (id = sensorId ∧ rec' = rec) ∨ (id ≠ sensorId ∧ records[id.toNat]? = some rec') := by
  rw [Vector.getElem?_setIfInBounds] at h
  split at h
  · rename_i heq
    split at h
    · exact Or.inl ⟨(UInt8.toNat_inj.1 heq).symm, (Option.some.inj h).symm⟩
    · cases h
  · rename_i hne
    exact Or.inr ⟨fun heq => hne (by rw [heq]), h⟩

/-- The events of an assignment concern the sensor of the reading only. -/
theorem lastStored_write {step next : StoreStep} {reading : Reading}
    {f : SensorRecord → SensorRecord} (hw : FieldWrite cfg s.ticks reading step f next evs)
    {sensorId : UInt8} (hne : sensorId ≠ reading.sensorId) :
    lastStored (tr ++ evs) sensorId = lastStored tr sensorId := by
  cases hw with
  | timestampMs => rw [lastStored_stored, if_neg hne.symm]
  | _ => rw [List.append_nil]

theorem shows_write {step next : StoreStep} {reading : Reading} {f : SensorRecord → SensorRecord}
    {rec : SensorRecord} (hw : FieldWrite cfg s.ticks reading step f next evs)
    (hcal : applyCalibration reading.sensorId reading.raw = .ok reading.scaled)
    (hshows : step.Shows reading (lastStored tr reading.sensorId) rec) :
    next.Shows reading (lastStored (tr ++ evs) reading.sensorId) (f rec) := by
  cases hw with
  | rawValue => rfl
  | scaledValue => exact ⟨hshows, rfl⟩
  | state state hstate =>
    obtain ⟨hraw, hscaled⟩ := hshows
    exact ⟨hraw, hscaled, by rw [hscaled]; exact hstate⟩
  | timestampMs =>
    obtain ⟨hraw, hscaled, hstate⟩ := hshows
    rw [lastStored_stored, if_pos rfl]
    exact ⟨hraw, by rw [hscaled]; exact hcal, hstate, rfl⟩

theorem taskWrite (h : CacheInv s tr) {step next : StoreStep} {reading : Reading} {todo : List UInt8}
    {f : SensorRecord → SensorRecord} {rec : SensorRecord}
    (ht : s.task = .store step reading todo) (hw : FieldWrite cfg s.ticks reading step f next evs)
    (hrec : s.sCache.records[reading.sensorId.toNat]? = some rec) :
    CacheInv
      { s with
        sCache :=
          { s.sCache with
            records := s.sCache.records.setIfInBounds reading.sensorId.toNat (f rec) }
        task := .store next reading todo } (tr ++ evs) := by
  have hfits := h.task
  have hrecords := h.records
  have hwaits := h.reader_waits (by rw [ht]; cases hw <;> rfl)
  rw [ht] at hfits hrecords
  obtain ⟨hlt, hcal, htodo⟩ := hfits
  refine ⟨h.count, ⟨hlt, hcal, htodo⟩, h.reader, fun θ => ?_, fun sensorId rec' hrec' => ?_,
    fun i => ReaderPhase.shows_of_free (hwaits i) _, fun sensorId hge => ?_,
    Trace.eachGiven_append.2 ⟨h.returned, ?_⟩, fun fault hfault => ?_⟩
  · refine (h.locked θ).trans ?_
    cases θ with
    | sensorMgr =>
      simp only [SensorThreads.Holds, ht]
      cases hw <;> rfl
    | reader i => rfl
  · rcases getElem?_setRecord hrec' with ⟨rfl, rfl⟩ | ⟨hne, hold⟩
    · have hshows := hrecords reading.sensorId rec hrec
      rw [SensorTaskPhase.Shows, if_pos rfl] at hshows ⊢
      exact shows_write hw hcal hshows
    · have hshows := hrecords sensorId rec' hold
      rw [SensorTaskPhase.Shows, if_neg hne] at hshows ⊢
      rwa [lastStored_write hw hne]
  · have hne : sensorId ≠ reading.sensorId := by
      rintro rfl
      exact hge hlt
    rw [lastStored_write hw hne]
    exact h.fresh sensorId hge
  · cases hw with
    | timestampMs => exact Trace.eachGiven_singleton.2 trivial
    | _ => exact Trace.eachGiven_nil
  · rcases List.mem_append.1 hfault with hold | hnew
    · exact h.noFault fault hold
    · cases hw <;> simp at hnew

variable [DecidableEq ι]

@[simp] theorem setReader_reader (s : SensorThreads ι) (i j : ι) (phase : ReaderPhase) :
    (s.setReader i phase).reader j = if j = i then phase else s.reader j :=
  Function.update_apply _ _ _ _

/-- What holds of the new phase of a reader, and of the others as before, holds of all readers. -/
theorem forall_setReader {P : ReaderPhase → Prop} {i : ι} {phase : ReaderPhase} (hphase : P phase)
    (h : ∀ j, P (s.reader j)) (j : ι) : P ((s.setReader i phase).reader j) := by
  rw [setReader_reader]
  split
  · exact hphase
  · exact h j

/-- A reader moves, and holds the mutex afterwards if it held it before. -/
theorem readerStep (h : CacheInv s tr) (i : ι) (phase : ReaderPhase) (hfits : phase.Fits)
    (hholds : phase.holds = (s.reader i).holds) (hshows : phase.Shows tr) :
    CacheInv (s.setReader i phase) tr := by
  refine ⟨h.count, h.task, forall_setReader hfits h.reader, fun θ => ?_, h.records,
    forall_setReader hshows h.copies, h.fresh, h.returned, h.noFault⟩
  refine (h.locked θ).trans ?_
  cases θ with
  | sensorMgr => rfl
  | reader j =>
    rw [SensorThreads.Holds, SensorThreads.Holds, setReader_reader]
    split
    · rename_i hji
      rw [hji, hholds]
    · rfl

theorem readerLock (h : CacheInv s tr) (i : ι) {phase : ReaderPhase} (hfits : phase.Fits)
    (hfree : s.sCacheMutex.holder = none) (hholds : phase.holds = true) (hshows : phase.Shows tr) :
    CacheInv { s.setReader i phase with sCacheMutex := ⟨some (.reader i)⟩ } tr := by
  refine ⟨h.count, h.task, forall_setReader hfits h.reader, fun θ => ?_, h.records,
    forall_setReader hshows h.copies, h.fresh, h.returned, h.noFault⟩
  have hnone : ¬ s.Holds θ := by
    rw [← h.locked, hfree]
    simp
  cases θ with
  | sensorMgr => exact iff_of_false (by simp) hnone
  | reader j =>
    show some (CacheThread.reader i) = some (.reader j) ↔ ((s.setReader i phase).reader j).holds = true
    rw [setReader_reader]
    split
    · rename_i hji
      simp [hji, hholds]
    · rename_i hji
      exact iff_of_false (by simpa using fun hij => hji hij.symm) hnone

theorem readerUnlock (h : CacheInv s tr) (i : ι) (hi : (s.reader i).holds = true) :
    CacheInv { s.setReader i .idle with sCacheMutex := ⟨none⟩ } tr := by
  refine ⟨h.count, h.task, forall_setReader trivial h.reader, fun θ => ?_, h.records,
    forall_setReader trivial h.copies, h.fresh, h.returned, h.noFault⟩
  have hr : s.sCacheMutex.holder = some (.reader i) := (h.locked (.reader i)).2 hi
  have hother : θ ≠ .reader i → ¬ s.Holds θ := by
    intro hne hθ
    rw [← h.locked, hr] at hθ
    exact hne (Option.some.inj hθ).symm
  refine iff_of_false (by simp) ?_
  cases θ with
  | sensorMgr => exact hother (by simp)
  | reader j =>
    show ¬ ((s.setReader i .idle).reader j).holds = true
    rw [setReader_reader]
    split
    · simp [ReaderPhase.holds]
    · rename_i hji
      exact hother (by simpa using hji)

theorem step {a : SensorAction ι} (h : CacheInv s tr) (hs : SensorStep cfg s a s' evs) :
    CacheInv s' (tr ++ evs) := by
  cases hs with
  | pollStart hal ht =>
    refine h.taskStep (by rw [ht]; rfl) rfl ?_ (by simp [SensorEvent.isStored])
      (Trace.eachGiven_singleton.2 trivial) (by simp)
    rw [h.count, pollOrder_init]
    simp [SensorTaskPhase.Fits, sensorMgrInit]
  | pollEnd hal ht =>
    exact h.taskStep (by rw [ht]; rfl) rfl trivial (by simp [SensorEvent.isStored])
      (Trace.eachGiven_singleton.2 trivial) (by simp)
  | readFailed hal sensorId todo ht =>
    have hfits := h.task
    rw [ht] at hfits
    exact h.taskStep (by rw [ht]; rfl) rfl (fun id hid => hfits id (List.mem_cons_of_mem _ hid))
      (by simp [SensorEvent.isStored]) (Trace.eachGiven_singleton.2 trivial) (by simp)
  | readOk hal reading todo ht hcal =>
    have hfits := h.task
    rw [ht] at hfits
    exact h.taskStep (by rw [ht]; rfl) rfl
      ⟨hfits _ (by simp), hcal, fun id hid => hfits id (List.mem_cons_of_mem _ hid)⟩
      (by simp [SensorEvent.isStored]) (Trace.eachGiven_singleton.2 trivial) (by simp)
  | lock hal reading todo ht hfree =>
    rw [List.append_nil]
    exact h.taskLock ht hfree
  | write hal step next reading todo f rec evs ht hw hrec => exact h.taskWrite ht hw hrec
  | unlock hal reading todo ht =>
    rw [List.append_nil]
    exact h.taskUnlock ht
  | callFails i sensorId recordOut hr hge =>
    rw [h.count] at hge
    exact h.returns rfl ⟨hge, rfl⟩ (by simp)
  | getCached i sensorId recordOut hr hlt =>
    rw [List.append_nil]
    rw [h.count] at hlt
    exact h.readerStep i _ hlt (by rw [hr]; rfl) trivial
  | getCacheSnapshot i snapshotOut hr =>
    rw [List.append_nil]
    exact h.readerStep i _ trivial (by rw [hr]; rfl) trivial
  | readerLock i phase hr hfree =>
    rw [List.append_nil]
    have hfits := h.reader i
    generalize s.reader i = old at hr hfits
    cases hr with
    | getCached sensorId recordOut => exact h.readerLock i hfits hfree rfl trivial
    | getCacheSnapshot snapshotOut => exact h.readerLock i trivial hfree rfl trivial
  | readerCopy i phase hr =>
    rw [List.append_nil]
    have hfits := h.reader i
    have hcurrent := fun hi => h.cacheCurrent (h.task_idle (i := i) hi)
    have hkeep := h.readerStep i
    generalize s.reader i = old at hr hfits hcurrent hkeep
    cases hr with
    | getCached sensorId recordOut rec hrec =>
      refine hkeep _ hfits rfl ?_
      have hlt : sensorId < sensorMgrInit.count := hfits
      have hcur := (hcurrent rfl).2 sensorId rec hrec
      rwa [(hcurrent rfl).1, if_pos hlt] at hcur
    | getCacheSnapshot snapshotOut => exact hkeep _ trivial rfl (hcurrent rfl)
  | readerReturn i e hr =>
    have hfits := h.reader i
    have hshows := h.copies i
    have hunlock := h.readerUnlock i
    generalize s.reader i = old at hr hfits hshows hunlock
    cases hr with
    | gotCached sensorId recordOut => exact (hunlock rfl).returns rfl ⟨hfits, hshows⟩ (by simp)
    | gotCacheSnapshot snapshotOut => exact (hunlock rfl).returns rfl hshows (by simp)
  | clock ticks =>
    rw [List.append_nil]
    exact ⟨h.count, h.task, h.reader, h.locked, h.records, h.copies, h.fresh, h.returned, h.noFault⟩

end CacheInv

variable [DecidableEq ι]

/-- What holds at the start, and is preserved by every step that is possible with a consistent cache,
holds in every run. -/
theorem sensorThreads_invariant {I : SensorThreads ι → List (SensorEvent ι) → Prop} {ticks : ℕ}
    {acts : List (SensorAction ι)} (hinit : I (sensorThreadsInit ι ticks) [])
    (hstep : ∀ {s s' : SensorThreads ι} {tr evs : List (SensorEvent ι)} {a : SensorAction ι},
      I s tr → SensorStep cfg s a s' evs → I s' (tr ++ evs))
    (hrun : (sensorThreads ι cfg).exec (sensorThreadsInit ι ticks) acts = some (s, tr)) :
    CacheInv s tr ∧ I s tr := by
  refine Machine.invariant (I := fun s tr => CacheInv s tr ∧ I s tr) ⟨cacheInv_init ι ticks, hinit⟩ ?_ hrun
  rintro s tr a s' evs ⟨hcache, hI⟩ hs
  have hcase := sensorThreads_step_cases hcache.task hcache.reader hs
  exact ⟨hcache.step hcase, hstep hI hcase⟩

theorem sensorInv_of_exec {ticks : ℕ} {acts : List (SensorAction ι)}
    (hrun : (sensorThreads ι cfg).exec (sensorThreadsInit ι ticks) acts = some (s, tr)) :
    CacheInv s tr ∧ ReadsInv s tr :=
  sensorThreads_invariant (readsInv_init ι ticks) (fun h hs => h.step hs) hrun

/-- The cache is consistent and current. No run of the sensor thread with any number of readers overflows,
divides by zero or leaves a table, and what is stored is what was read, in order; whenever the mutex is free the
cache shows, for every sensor below the count, the last reading stored, and a call of
`sensor_mgr_get_cached` succeeds exactly for these sensors; and every call that returns, returns what was
current then. -/
theorem sensorMgr_cacheCurrent (ι : Type) [DecidableEq ι] (cfg : TickConfig) (ticks : ℕ)
    (acts : List (SensorAction ι)) (s : SensorThreads ι) (tr : List (SensorEvent ι))
    (hrun : (sensorThreads ι cfg).exec (sensorThreadsInit ι ticks) acts = some (s, tr)) :
    (∀ f, .fault f ∉ tr) ∧
    (∀ sensorId, (storedReadings tr sensorId).map Prod.fst <+: successfulReads tr sensorId) ∧
    (s.sCacheMutex.holder = none → CacheCurrent s.sCache tr ∧
      ∀ sensorId, if sensorId < s.sCache.count then
        ∃ rec, s.sCache.records[sensorId.toNat]? = some rec ∧
          sensorMgrGetCached s.sCache sensorId = some rec
        else sensorMgrGetCached s.sCache sensorId = none) ∧
    Trace.EachGiven ReturnsCurrent tr := by
  obtain ⟨h, hreads⟩ := sensorInv_of_exec hrun
  refine ⟨h.noFault, fun sensorId => ⟨_, (hreads.stored sensorId).symm⟩,
    fun hfree => ⟨h.cacheCurrent (h.closed_of_free hfree), fun sensorId => ?_⟩, h.returned⟩
  split
  · rename_i hlt
    rw [h.count] at hlt
    obtain ⟨rec, hrec⟩ := exists_record s.sCache hlt
    exact ⟨rec, hrec, (h.getCached_eq hlt).trans hrec⟩
  · rename_i hge
    rw [sensorMgrGetCached, if_pos (UInt8.not_lt.1 hge)]

/-- The first sensor answers with a raw value of 400, the second does not answer. -/
def firstSensorHal : SensorHal := fun i2cAddr _ => if i2cAddr = 0x48 then some (0x01, 0x90) else none

/-- A poll, and a call of `sensor_mgr_get_cached` for the first sensor. -/
def pollThenGet : List (SensorAction ℕ) :=
  List.replicate 10 (.sensorMgrTask firstSensorHal) ++
    .getCached 0 0 ⟨0, 0, 0, 0, 0, 0, Vector.replicate _ 0, 0⟩ :: List.replicate 3 (.readerStep 0)

theorem sensorMgr_cacheCurrent_get :
    ∃ s tr, (sensorThreads ℕ ⟨10, 100⟩).exec (sensorThreadsInit ℕ 0) pollThenGet = some (s, tr) ∧
      lastStored tr 0 = some (400, 0) ∧ CacheCurrent s.sCache tr ∧
      ∃ recordOut, tr.getLast? = some (.gotCached 0 0 recordOut) ∧ recordOut.scaledValue = 25 := by
  have h := sensorMgr_cacheCurrent ℕ ⟨10, 100⟩ 0 pollThenGet _ _ rfl
  exact ⟨_, _, rfl, by decide +kernel, (h.2.2.1 rfl).1, _, rfl, by decide +kernel⟩

end NicObFw
