import NicObFw.Lib.Unrolled
import NicObFw.Proofs.CalibrationProofs
import NicObFw.SensorThreads

/-!
# Proofs: the steps of the threads around the sensor cache

`poll_all_sensors` reads the sensors below the count in order (`pollOrder_eq`). For these the tables have
entries with a divisor, so a step does one of the things that `SensorStep` lists and never runs into
undefined behaviour.
-/

namespace NicObFw

/-! ## The order of a poll -/

theorem toNat_unrolled (count : UInt8) : (count &&& ~~~3).toNat = 4 * (count.toNat / 4) := by
  have h256 : ∀ n < 256, (UInt8.ofNat n &&& ~~~3).toNat = 4 * (n / 4) := by decide +kernel
  have := h256 count.toNat count.toNat_lt
  rwa [UInt8.ofNat_toNat] at this

/-- The unrolled loop and the second one together read every sensor below the count once, in order. -/
theorem pollOrder_eq (count : UInt8) : pollOrder count = (List.range count.toNat).map UInt8.ofNat := by
  rw [pollOrder, toNat_unrolled, Nat.mul_div_cancel_left _ (by decide),
    Unrolled.flatMap_four_append (Nat.mul_div_le _ 4)]

/-- A poll after `sensor_mgr_init` reads its sensors only. -/
theorem pollOrder_init : pollOrder sensorMgrInit.count = [0, 1] := by
  rw [pollOrder_eq]
  rfl

/-! ## Steps -/

/-- The sensor thread works on calibrated sensors, and has calibrated the reading that it stores. -/
def SensorTaskPhase.Fits : SensorTaskPhase → Prop
  | idle => True
  | poll todo => ∀ sensorId ∈ todo, sensorId < sensorMgrInit.count
  | store _ reading todo =>
    reading.sensorId < sensorMgrInit.count ∧
      applyCalibration reading.sensorId reading.raw = .ok reading.scaled ∧
      ∀ sensorId ∈ todo, sensorId < sensorMgrInit.count
  | fault => False

/-- A reader reads the record of a calibrated sensor. -/
def ReaderPhase.Fits : ReaderPhase → Prop
  | getCached _ sensorId _ => sensorId < sensorMgrInit.count
  | fault => False
  | _ => True

/-- The assignment to a field: what it does to the record, the point behind it, and what it reports. -/
inductive FieldWrite (cfg : TickConfig) (ticks : ℕ) (reading : Reading) {ι : Type} :
    StoreStep → (SensorRecord → SensorRecord) → StoreStep → List (SensorEvent ι) → Prop
  | rawValue : FieldWrite cfg ticks reading .rawValue
      (fun rec => { rec with rawValue := reading.raw }) .scaledValue []
  | scaledValue : FieldWrite cfg ticks reading .scaledValue
      (fun rec => { rec with scaledValue := reading.scaled }) .state []
  | state (state : UInt8) (hstate : checkThresholds reading.sensorId reading.scaled = .ok state) :
    FieldWrite cfg ticks reading .state (fun rec => { rec with state }) .timestampMs []
  | timestampMs : FieldWrite cfg ticks reading .timestampMs
      (fun rec => { rec with timestampMs := rtosGetTickMs cfg ticks }) .give
      [.stored reading.sensorId reading.raw (rtosGetTickMs cfg ticks)]

/-- A reader takes the mutex. -/
inductive ReaderLocks : ReaderPhase → ReaderPhase → Prop
  | getCached (sensorId : UInt8) (recordOut : SensorRecord) :
    ReaderLocks (.getCached .take sensorId recordOut) (.getCached .copy sensorId recordOut)
  | getCacheSnapshot (snapshotOut : SensorCache) :
    ReaderLocks (.getCacheSnapshot .take snapshotOut) (.getCacheSnapshot .copy snapshotOut)

/-- A reader copies what it asked for. -/
inductive ReaderCopies (sCache : SensorCache) : ReaderPhase → ReaderPhase → Prop
  | getCached (sensorId : UInt8) (recordOut rec : SensorRecord)
      (hrec : sCache.records[sensorId.toNat]? = some rec) :
    ReaderCopies sCache (.getCached .copy sensorId recordOut) (.getCached .give sensorId rec)
  | getCacheSnapshot (snapshotOut : SensorCache) :
    ReaderCopies sCache (.getCacheSnapshot .copy snapshotOut) (.getCacheSnapshot .give sCache)

/-- A reader gives the mutex back, and returns. -/
inductive ReaderReturns {ι : Type} (i : ι) : ReaderPhase → SensorEvent ι → Prop
  | gotCached (sensorId : UInt8) (recordOut : SensorRecord) :
    ReaderReturns i (.getCached .give sensorId recordOut) (.gotCached i sensorId recordOut)
  | gotCacheSnapshot (snapshotOut : SensorCache) :
    ReaderReturns i (.getCacheSnapshot .give snapshotOut) (.gotCacheSnapshot i snapshotOut)

variable {ι : Type} [DecidableEq ι]

/-- Everything that a step can do on calibrated sensors. -/
inductive SensorStep (cfg : TickConfig) (s : SensorThreads ι) :
    SensorAction ι → SensorThreads ι → List (SensorEvent ι) → Prop
  | pollStart (hal : SensorHal) (ht : s.task = .idle) :
    SensorStep cfg s (.sensorMgrTask hal) { s with task := .poll (pollOrder s.sCache.count) }
      [.pollStarted]
  | pollEnd (hal : SensorHal) (ht : s.task = .poll []) :
    SensorStep cfg s (.sensorMgrTask hal) { s with task := .idle } [.pollFinished]
  | readFailed (hal : SensorHal) (sensorId : UInt8) (todo : List UInt8)
      (ht : s.task = .poll (sensorId :: todo)) :
    SensorStep cfg s (.sensorMgrTask hal) { s with task := .poll todo } [.read sensorId none]
  | readOk (hal : SensorHal) (reading : Reading) (todo : List UInt8)
      (ht : s.task = .poll (reading.sensorId :: todo))
      (hcal : applyCalibration reading.sensorId reading.raw = .ok reading.scaled) :
    SensorStep cfg s (.sensorMgrTask hal) { s with task := .store .take reading todo }
      [.read reading.sensorId (some reading.raw)]
  | lock (hal : SensorHal) (reading : Reading) (todo : List UInt8)
      (ht : s.task = .store .take reading todo) (hfree : s.sCacheMutex.holder = none) :
    SensorStep cfg s (.sensorMgrTask hal)
      { s with sCacheMutex := ⟨some .sensorMgr⟩, task := .store .rawValue reading todo } []
  | write (hal : SensorHal) (step next : StoreStep) (reading : Reading) (todo : List UInt8)
      (f : SensorRecord → SensorRecord) (rec : SensorRecord) (evs : List (SensorEvent ι))
      (ht : s.task = .store step reading todo) (hw : FieldWrite cfg s.ticks reading step f next evs)
      (hrec : s.sCache.records[reading.sensorId.toNat]? = some rec) :
    SensorStep cfg s (.sensorMgrTask hal)
      { s with
        sCache :=
          { s.sCache with
            records := s.sCache.records.setIfInBounds reading.sensorId.toNat (f rec) }
        task := .store next reading todo } evs
  | unlock (hal : SensorHal) (reading : Reading) (todo : List UInt8)
      (ht : s.task = .store .give reading todo) :
    SensorStep cfg s (.sensorMgrTask hal) { s with sCacheMutex := ⟨none⟩, task := .poll todo } []
  | callFails (i : ι) (sensorId : UInt8) (recordOut : SensorRecord) (hr : s.reader i = .idle)
      (hge : ¬ sensorId < s.sCache.count) :
    SensorStep cfg s (.getCached i sensorId recordOut) s
      [.getCachedFailed i sensorId recordOut recordOut]
  | getCached (i : ι) (sensorId : UInt8) (recordOut : SensorRecord) (hr : s.reader i = .idle)
      (hlt : sensorId < s.sCache.count) :
    SensorStep cfg s (.getCached i sensorId recordOut)
      (s.setReader i (.getCached .take sensorId recordOut)) []
  | getCacheSnapshot (i : ι) (snapshotOut : SensorCache) (hr : s.reader i = .idle) :
    SensorStep cfg s (.getCacheSnapshot i snapshotOut)
      (s.setReader i (.getCacheSnapshot .take snapshotOut)) []
  | readerLock (i : ι) (phase : ReaderPhase) (hr : ReaderLocks (s.reader i) phase)
      (hfree : s.sCacheMutex.holder = none) :
    SensorStep cfg s (.readerStep i)
      { s.setReader i phase with sCacheMutex := ⟨some (.reader i)⟩ } []
  | readerCopy (i : ι) (phase : ReaderPhase) (hr : ReaderCopies s.sCache (s.reader i) phase) :
    SensorStep cfg s (.readerStep i) (s.setReader i phase) []
  | readerReturn (i : ι) (e : SensorEvent ι) (hr : ReaderReturns i (s.reader i) e) :
    SensorStep cfg s (.readerStep i) { s.setReader i .idle with sCacheMutex := ⟨none⟩ } [e]
  | clock (ticks : ℕ) : SensorStep cfg s (.clock ticks) { s with ticks := s.ticks + ticks } []

variable {cfg : TickConfig} {s s' : SensorThreads ι} {evs : List (SensorEvent ι)}

theorem exists_record (sCache : SensorCache) {sensorId : UInt8}
    (h : sensorId < sensorMgrInit.count) : ∃ rec, sCache.records[sensorId.toNat]? = some rec := by
  have hlt : sensorId.toNat < 2 := UInt8.lt_iff_toNat_lt.1 h
  exact ⟨_, Vector.getElem?_eq_getElem (by simp; omega)⟩

theorem write_step (hal : SensorHal) {step next : StoreStep} {reading : Reading} {todo : List UInt8}
    {f : SensorRecord → SensorRecord} {written : List (SensorEvent ι)}
    (ht : s.task = .store step reading todo) (hlt : reading.sensorId < sensorMgrInit.count)
    (hw : FieldWrite cfg s.ticks reading step f next written)
    (h : some (s.write reading todo f next written) = some (s', evs)) :
    SensorStep cfg s (.sensorMgrTask hal) s' evs := by
  obtain ⟨rec, hrec⟩ := exists_record s.sCache hlt
  simp only [SensorThreads.write, SensorCache.modify, hrec, Option.some.injEq, Prod.mk.injEq] at h
  obtain ⟨rfl, rfl⟩ := h
  exact .write hal step next reading todo f rec written ht hw hrec

theorem storeReading_cases (hal : SensorHal) {step : StoreStep} {reading : Reading}
    {todo : List UInt8} (ht : s.task = .store step reading todo)
    (hlt : reading.sensorId < sensorMgrInit.count)
    (h : storeReading cfg s step reading todo = some (s', evs)) :
    SensorStep cfg s (.sensorMgrTask hal) s' evs := by
  cases step with
  | take =>
    simp only [storeReading, Option.map_eq_some_iff, FreeRtos.Mutex.take_eq_some, Prod.mk.injEq] at h
    obtain ⟨m, ⟨hfree, rfl⟩, rfl, rfl⟩ := h
    exact .lock hal reading todo ht hfree
  | give =>
    simp only [storeReading, Option.some.injEq, Prod.mk.injEq] at h
    obtain ⟨rfl, rfl⟩ := h
    exact .unlock hal reading todo ht
  | rawValue => exact write_step hal ht hlt .rawValue h
  | scaledValue => exact write_step hal ht hlt .scaledValue h
  | timestampMs => exact write_step hal ht hlt .timestampMs h
  | state =>
    rcases checkThresholds_of_lt hlt reading.scaled with hstate | hstate
    · simp only [storeReading, hstate] at h
      exact write_step hal ht hlt (.state _ hstate) h
    · simp only [storeReading, hstate] at h
      exact write_step hal ht hlt (.state _ hstate) h

theorem sensorMgrTask_cases {hal : SensorHal} (hfits : s.task.Fits)
    (h : sensorMgrTask cfg s hal = some (s', evs)) : SensorStep cfg s (.sensorMgrTask hal) s' evs := by
  unfold sensorMgrTask at h
  cases ht : s.task with
  | idle =>
    simp only [ht, Option.some.injEq, Prod.mk.injEq] at h
    obtain ⟨rfl, rfl⟩ := h
    exact .pollStart hal ht
  | fault =>
    rw [ht] at hfits
    exact hfits.elim
  | store step reading todo =>
    rw [ht] at hfits
    simp only [ht] at h
    exact storeReading_cases hal ht hfits.1 h
  | poll todo =>
    rw [ht] at hfits
    cases todo with
    | nil =>
      simp only [ht, Option.some.injEq, Prod.mk.injEq] at h
      obtain ⟨rfl, rfl⟩ := h
      exact .pollEnd hal ht
    | cons sensorId todo =>
      cases hread : sensorProtocolRead hal sensorId with
      | none =>
        simp only [ht, hread, Option.some.injEq, Prod.mk.injEq] at h
        obtain ⟨rfl, rfl⟩ := h
        exact .readFailed hal sensorId todo ht
      | some raw =>
        obtain ⟨scaled, hcal⟩ := applyCalibration_of_lt (hfits sensorId (by simp)) raw
        simp only [ht, hread, hcal, Option.some.injEq, Prod.mk.injEq] at h
        obtain ⟨rfl, rfl⟩ := h
        exact .readOk hal ⟨sensorId, raw, scaled⟩ todo ht hcal

theorem readerStep_cases {i : ι} (hfits : (s.reader i).Fits)
    (h : readerStep s i = some (s', evs)) : SensorStep cfg s (.readerStep i) s' evs := by
  unfold readerStep at h
  cases hr : s.reader i with
  | idle => simp [hr] at h
  | fault =>
    rw [hr] at hfits
    exact hfits.elim
  | getCached step sensorId recordOut =>
    cases step with
    | take =>
      simp only [hr, Option.map_eq_some_iff, FreeRtos.Mutex.take_eq_some, Prod.mk.injEq] at h
      obtain ⟨m, ⟨hfree, rfl⟩, rfl, rfl⟩ := h
      exact .readerLock i _ (by rw [hr]; exact .getCached sensorId recordOut) hfree
    | copy =>
      rw [hr] at hfits
      obtain ⟨rec, hrec⟩ := exists_record s.sCache hfits
      simp only [hr, hrec, Option.some.injEq, Prod.mk.injEq] at h
      obtain ⟨rfl, rfl⟩ := h
      exact .readerCopy i _ (by rw [hr]; exact .getCached sensorId recordOut rec hrec)
    | give =>
      simp only [hr, Option.some.injEq, Prod.mk.injEq] at h
      obtain ⟨rfl, rfl⟩ := h
      exact .readerReturn i _ (by rw [hr]; exact .gotCached sensorId recordOut)
  | getCacheSnapshot step snapshotOut =>
    cases step with
    | take =>
      simp only [hr, Option.map_eq_some_iff, FreeRtos.Mutex.take_eq_some, Prod.mk.injEq] at h
      obtain ⟨m, ⟨hfree, rfl⟩, rfl, rfl⟩ := h
      exact .readerLock i _ (by rw [hr]; exact .getCacheSnapshot snapshotOut) hfree
    | copy =>
      simp only [hr, Option.some.injEq, Prod.mk.injEq] at h
      obtain ⟨rfl, rfl⟩ := h
      exact .readerCopy i _ (by rw [hr]; exact .getCacheSnapshot snapshotOut)
    | give =>
      simp only [hr, Option.some.injEq, Prod.mk.injEq] at h
      obtain ⟨rfl, rfl⟩ := h
      exact .readerReturn i _ (by rw [hr]; exact .gotCacheSnapshot snapshotOut)

/-- A step on calibrated sensors is one of the listed ones. -/
theorem sensorThreads_step_cases {a : SensorAction ι} (htask : s.task.Fits)
    (hreader : ∀ i, (s.reader i).Fits) (h : (sensorThreads ι cfg).step s a = some (s', evs)) :
    SensorStep cfg s a s' evs := by
  cases a with
  | sensorMgrTask hal => exact sensorMgrTask_cases htask h
  | readerStep i => exact readerStep_cases (hreader i) h
  | clock ticks =>
    simp only [sensorThreads, Option.some.injEq, Prod.mk.injEq] at h
    obtain ⟨rfl, rfl⟩ := h
    exact .clock ticks
  | getCached i sensorId recordOut =>
    by_cases hr : s.reader i = .idle
    · by_cases hge : sensorId ≥ s.sCache.count
      · simp only [sensorThreads, hr, hge, if_true, Option.some.injEq, Prod.mk.injEq] at h
        obtain ⟨rfl, rfl⟩ := h
        exact .callFails i sensorId recordOut hr (UInt8.not_lt.2 hge)
      · simp only [sensorThreads, hr, hge, if_true, if_false, Option.some.injEq, Prod.mk.injEq] at h
        obtain ⟨rfl, rfl⟩ := h
        exact .getCached i sensorId recordOut hr (UInt8.not_le.1 hge)
    · simp [sensorThreads, hr] at h
  | getCacheSnapshot i snapshotOut =>
    by_cases hr : s.reader i = .idle
    · simp only [sensorThreads, hr, if_true, Option.some.injEq, Prod.mk.injEq] at h
      obtain ⟨rfl, rfl⟩ := h
      exact .getCacheSnapshot i snapshotOut hr
    · simp [sensorThreads, hr] at h

end NicObFw
