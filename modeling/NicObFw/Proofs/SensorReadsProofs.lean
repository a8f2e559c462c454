import NicObFw.Proofs.SensorMgrProofs

/-!
# Proofs: what the sensor thread reads, and what it stores

Every successful read is stored, in order; one at a time is on its way (`ReadsInv`). Between two polls
none is, and every read belongs to a completed poll.
-/

namespace NicObFw

variable {ι : Type}

/-! ## Histories -/

@[simp] theorem storedReadings_append (tr evs : List (SensorEvent ι)) (sensorId : UInt8) :
    storedReadings (tr ++ evs) sensorId = storedReadings tr sensorId ++ storedReadings evs sensorId := by
  simp [storedReadings]

@[simp] theorem successfulReads_append (tr evs : List (SensorEvent ι)) (sensorId : UInt8) :
    successfulReads (tr ++ evs) sensorId =
      successfulReads tr sensorId ++ successfulReads evs sensorId := by
  simp [successfulReads]

theorem successfulReads_read (id sensorId : UInt8) (result : Option Int16) :
    successfulReads (ι := ι) [.read id result] sensorId =
      if id = sensorId then result.toList else [] := by
  cases result <;> by_cases h : id = sensorId <;> simp [successfulReads, h]

theorem storedReadings_stored (id sensorId : UInt8) (raw : Int16) (tickMs : UInt32) :
    storedReadings (ι := ι) [.stored id raw tickMs] sensorId =
      if id = sensorId then [(raw, tickMs)] else [] := by
  by_cases h : id = sensorId <;> simp [storedReadings, h]

/-- The values of the successful reads of a sensor in a poll. -/
def goodReads (sensorId : UInt8) (poll : List (UInt8 × Option Int16)) : List Int16 :=
  poll.filterMap fun r => if r.1 = sensorId then r.2 else none

@[simp] theorem goodReads_append (sensorId : UInt8) (poll poll' : List (UInt8 × Option Int16)) :
    goodReads sensorId (poll ++ poll') = goodReads sensorId poll ++ goodReads sensorId poll' := by
  simp [goodReads]

theorem goodReads_singleton (sensorId id : UInt8) (result : Option Int16) :
    goodReads sensorId [(id, result)] = if id = sensorId then result.toList else [] := by
  cases result <;> by_cases h : id = sensorId <;> simp [goodReads, h]

theorem mem_goodReads {sensorId : UInt8} {poll : List (UInt8 × Option Int16)} {raw : Int16} :
    raw ∈ goodReads sensorId poll ↔ (sensorId, some raw) ∈ poll := by
  simp only [goodReads, List.mem_filterMap]
  constructor
  · rintro ⟨⟨id, result⟩, hmem, hid⟩
    split at hid
    · rename_i heq
      obtain rfl : id = sensorId := heq
      obtain rfl : result = some raw := hid
      exact hmem
    · cases hid
  · intro hmem
    exact ⟨_, hmem, if_pos rfl⟩

/-- The reads since the last completed poll. -/
def openPoll (tr : List (SensorEvent ι)) : List (UInt8 × Option Int16) :=
  (tr.foldl notePoll ([], [])).2

/-- Every successful read belongs to a poll. -/
theorem successfulReads_eq (tr : List (SensorEvent ι)) (sensorId : UInt8) :
    successfulReads tr sensorId =
      goodReads sensorId (completedPolls tr).flatten ++ goodReads sensorId (openPoll tr) := by
  induction tr using List.reverseRecOn with
  | nil => rfl
  | append_singleton tr e ih =>
    rw [successfulReads_append, ih, completedPolls, completedPolls, openPoll, openPoll,
      List.foldl_concat]
    cases e with
    | read id result =>
      rw [notePoll, goodReads_append, goodReads_singleton, successfulReads_read, List.append_assoc]
    | pollFinished => simp [notePoll, successfulReads, goodReads]
    | _ => simp [notePoll, successfulReads]

/-! ## The invariant -/

/-- The value that was read and is not yet stored. -/
def SensorTaskPhase.unstored (task : SensorTaskPhase) (sensorId : UInt8) : List Int16 :=
  match task with
  | store .give _ _ => []
  | store _ reading _ => if reading.sensorId = sensorId then [reading.raw] else []
  | _ => []

@[simp] theorem unstored_idle (sensorId : UInt8) :
    SensorTaskPhase.idle.unstored sensorId = [] := rfl

/-- The sensor thread after the trace `tr`. -/
structure ReadsInv (s : SensorThreads ι) (tr : List (SensorEvent ι)) : Prop where
  stored : ∀ sensorId, successfulReads tr sensorId =
    (storedReadings tr sensorId).map Prod.fst ++ s.task.unstored sensorId
  between : s.task = .idle → openPoll tr = []

theorem readsInv_init (ι : Type) (ticks : ℕ) : ReadsInv (sensorThreadsInit ι ticks) [] where
  stored := fun _ => rfl
  between := fun _ => rfl

variable {cfg : TickConfig} {s s' : SensorThreads ι} {tr evs : List (SensorEvent ι)}

namespace ReadsInv

/-- A step that leads from one unstored value to the next. -/
theorem of_unstored (h : ReadsInv s tr)
    (hunstored : ∀ sensorId, s.task.unstored sensorId ++ successfulReads evs sensorId =
      (storedReadings evs sensorId).map Prod.fst ++ s'.task.unstored sensorId)
    (hbetween : s'.task = .idle → openPoll (tr ++ evs) = []) : ReadsInv s' (tr ++ evs) := by
  refine ⟨fun sensorId => ?_, hbetween⟩
  calc successfulReads (tr ++ evs) sensorId
      = (storedReadings tr sensorId).map Prod.fst ++
          (s.task.unstored sensorId ++ successfulReads evs sensorId) := by
        rw [successfulReads_append, h.stored, List.append_assoc]
    _ = (storedReadings tr sensorId).map Prod.fst ++
          ((storedReadings evs sensorId).map Prod.fst ++ s'.task.unstored sensorId) := by
        rw [hunstored]
    _ = (storedReadings (tr ++ evs) sensorId).map Prod.fst ++ s'.task.unstored sensorId := by
        rw [storedReadings_append, List.map_append, List.append_assoc]

/-- A step that neither reads nor stores a value. -/
theorem of_quiet (h : ReadsInv s tr)
    (hunstored : ∀ sensorId, s'.task.unstored sensorId = s.task.unstored sensorId)
    (hreads : ∀ sensorId, successfulReads evs sensorId = [])
    (hstored : ∀ sensorId, storedReadings evs sensorId = [])
    (hbetween : s'.task = .idle → openPoll (tr ++ evs) = []) : ReadsInv s' (tr ++ evs) := by
  refine h.of_unstored (fun sensorId => ?_) hbetween
  rw [hunstored, hreads, hstored, List.append_nil, List.map_nil, List.nil_append]

theorem of_frame (h : ReadsInv s tr) (htask : s'.task = s.task)
    (hreads : ∀ sensorId, successfulReads evs sensorId = [])
    (hstored : ∀ sensorId, storedReadings evs sensorId = [])
    (hopen : openPoll (tr ++ evs) = openPoll tr) : ReadsInv s' (tr ++ evs) := by
  refine h.of_quiet (fun sensorId => by rw [htask]) hreads hstored (fun hidle => ?_)
  rw [hopen]
  exact h.between (htask ▸ hidle)

theorem of_write {step next : StoreStep} {reading : Reading} {todo : List UInt8}
    {f : SensorRecord → SensorRecord} (h : ReadsInv s tr) (ht : s.task = .store step reading todo)
    (hw : FieldWrite cfg s.ticks reading step f next evs)
    (ht' : s'.task = .store next reading todo) : ReadsInv s' (tr ++ evs) := by
  refine h.of_unstored (fun sensorId => ?_) (by simp [ht'])
  rw [ht, ht']
  cases hw with
  | timestampMs => by_cases hid : reading.sensorId = sensorId <;>
      simp [SensorTaskPhase.unstored, storedReadings_stored, successfulReads, hid]
  | _ => simp [SensorTaskPhase.unstored, storedReadings, successfulReads]

variable [DecidableEq ι]

theorem step {a : SensorAction ι} (h : ReadsInv s tr) (hs : SensorStep cfg s a s' evs) :
    ReadsInv s' (tr ++ evs) := by
  cases hs with
  | pollStart hal ht =>
    exact h.of_quiet (fun sensorId => by rw [ht]; rfl) (fun _ => rfl) (fun _ => rfl) (by simp)
  | pollEnd hal ht =>
    refine h.of_quiet (fun sensorId => by rw [ht]; rfl) (fun _ => rfl) (fun _ => rfl) (fun _ => ?_)
    rw [openPoll, List.foldl_concat, notePoll]
  | readFailed hal sensorId todo ht =>
    exact h.of_quiet (fun sensorId => by rw [ht]; rfl) (fun _ => rfl) (fun _ => rfl) (by simp)
  | readOk hal reading todo ht hcal =>
    refine h.of_unstored (fun sensorId => ?_) (by simp)
    simp [SensorTaskPhase.unstored, ht, storedReadings, successfulReads_read]
  | lock hal reading todo ht hfree =>
    exact h.of_quiet (fun sensorId => by rw [ht]; rfl) (fun _ => rfl) (fun _ => rfl) (by simp)
  | write hal step next reading todo f rec evs ht hw hrec => exact h.of_write ht hw rfl
  | unlock hal reading todo ht =>
    exact h.of_quiet (fun sensorId => by rw [ht]; rfl) (fun _ => rfl) (fun _ => rfl) (by simp)
  | callFails i sensorId recordOut hr hge =>
    exact h.of_frame rfl (fun _ => rfl) (fun _ => rfl) (by simp [openPoll, notePoll])
  | readerReturn i e hr =>
    generalize s.reader i = old at hr
    cases hr <;> exact h.of_frame rfl (fun _ => rfl) (fun _ => rfl) (by simp [openPoll, notePoll])
  | _ => exact h.of_frame rfl (fun _ => rfl) (fun _ => rfl) (by rw [List.append_nil])

end ReadsInv

end NicObFw
