import NicObFw.Lib.Response
import NicObFw.Proofs.SensorCacheProofs

/-!
# Proofs: waiting for the cache mutex

The thread that holds `s_cache_mutex` can always go on, and gives it back after at most five of its own
steps; a thread is blocked only while another one holds it (`sensorThreads_mutexReleased`).
-/

namespace NicObFw

variable {ι : Type}

/-! ## The threads and their sections -/

/-- The thread whose step the action is. -/
def SensorAction.thread : SensorAction ι → Option (CacheThread ι)
  | sensorMgrTask _ => some .sensorMgr
  | getCached i _ _ => some (.reader i)
  | getCacheSnapshot i _ => some (.reader i)
  | readerStep i => some (.reader i)
  | clock _ => none

/-- The next step of a thread. -/
def CacheThread.next (hal : SensorHal) : CacheThread ι → SensorAction ι
  | sensorMgr => .sensorMgrTask hal
  | reader i => .readerStep i

/-- The thread has something to do: the sensor thread always, a reader while it is in a call. -/
def SensorThreads.Busy (s : SensorThreads ι) : CacheThread ι → Prop
  | .sensorMgr => True
  | .reader i => s.reader i ≠ .idle

/-- The steps that are left in the block that stores a reading. -/
def StoreStep.toGive : StoreStep → ℕ
  | take => 6
  | rawValue => 5
  | scaledValue => 4
  | state => 3
  | timestampMs => 2
  | give => 1

/-- The steps that are left in the call of a reader. -/
def ReadStep.toGive : ReadStep → ℕ
  | take => 3
  | copy => 2
  | give => 1

def SensorTaskPhase.toGive : SensorTaskPhase → ℕ
  | store step _ _ => step.toGive
  | _ => 0

def ReaderPhase.toGive : ReaderPhase → ℕ
  | getCached step _ _ => step.toGive
  | getCacheSnapshot step _ => step.toGive
  | _ => 0

/-- The steps that a thread has left until it gives the mutex back. -/
def SensorThreads.toGive (s : SensorThreads ι) : CacheThread ι → ℕ
  | .sensorMgr => s.task.toGive
  | .reader i => (s.reader i).toGive

theorem SensorTaskPhase.toGive_of_holds {task : SensorTaskPhase} (h : task.holds = true) :
    0 < task.toGive ∧ task.toGive ≤ 5 := by
  cases task with
  | store step reading todo =>
    cases step with
    | take => cases h
    | _ => simp [toGive, StoreStep.toGive]
  | _ => cases h

theorem ReaderPhase.toGive_of_holds {phase : ReaderPhase} (h : phase.holds = true) :
    0 < phase.toGive ∧ phase.toGive ≤ 5 := by
  have hstep : ∀ step : ReadStep, 0 < step.toGive ∧ step.toGive ≤ 5 := by
    intro step
    cases step <;> simp [ReadStep.toGive]
  cases phase with
  | getCached step sensorId recordOut => exact hstep step
  | getCacheSnapshot step snapshotOut => exact hstep step
  | _ => cases h

variable {cfg : TickConfig} {s s' : SensorThreads ι} {tr evs : List (SensorEvent ι)}

/-- Inside its section a thread has one to five steps left. -/
theorem toGive_of_holds {θ : CacheThread ι} (h : s.Holds θ) : 0 < s.toGive θ ∧ s.toGive θ ≤ 5 := by
  cases θ with
  | sensorMgr => exact SensorTaskPhase.toGive_of_holds h
  | reader i => exact ReaderPhase.toGive_of_holds h

/-- The holder has something to do. -/
theorem busy_of_holds {θ : CacheThread ι} (h : s.Holds θ) : s.Busy θ := by
  cases θ with
  | sensorMgr => trivial
  | reader i =>
    intro hidle
    simp [SensorThreads.Holds, hidle, ReaderPhase.holds] at h

variable [DecidableEq ι] {a : SensorAction ι}

/-- A step of the sensor thread that holds the mutex before and after it. -/
theorem toGive_task (hs : SensorStep cfg s a s' evs) (hholds : s.task.holds = true)
    (hlocked : s.sCacheMutex.holder = some .sensorMgr) (hlocked' : s'.sCacheMutex.holder = some .sensorMgr) :
    s'.toGive .sensorMgr + (decide (a.thread = some .sensorMgr)).toNat ≤ s.toGive .sensorMgr := by
  cases hs with
  | pollStart hal ht | pollEnd hal ht | readFailed hal sensorId todo ht | readOk hal reading todo ht hcal =>
    rw [ht] at hholds
    cases hholds
  | lock hal reading todo ht hfree | readerLock i phase hr hfree =>
    rw [hfree] at hlocked
    cases hlocked
  | unlock hal reading todo ht | readerReturn i e hr => cases hlocked'
  | write hal step next reading todo f rec evs ht hw hrec =>
    simp only [SensorThreads.toGive, ht, SensorAction.thread, decide_true, Bool.toNat_true]
    cases hw <;> simp [SensorTaskPhase.toGive, StoreStep.toGive]
  | _ => simp [SensorThreads.toGive, SensorAction.thread, SensorThreads.setReader]

/-- A step of a reader that holds the mutex before and after it. -/
theorem toGive_reader {j : ι} (hs : SensorStep cfg s a s' evs) (hholds : (s.reader j).holds = true)
    (hlocked : s.sCacheMutex.holder = some (.reader j))
    (hlocked' : s'.sCacheMutex.holder = some (.reader j)) :
    s'.toGive (.reader j) + (decide (a.thread = some (.reader j))).toNat ≤ s.toGive (.reader j) := by
  -- a call that begins is one of another reader
  have hbegins : ∀ {i : ι}, s.reader i = .idle → j ≠ i := by
    rintro i hr rfl
    rw [hr] at hholds
    cases hholds
  cases hs with
  | lock hal reading todo ht hfree | readerLock i phase hr hfree =>
    rw [hfree] at hlocked
    cases hlocked
  | unlock hal reading todo ht | readerReturn i e hr => cases hlocked'
  | callFails i sensorId recordOut hr hge =>
    simp [SensorAction.thread, (hbegins hr).symm]
  | getCached i sensorId recordOut hr hlt =>
    simp [SensorThreads.toGive, SensorAction.thread, SensorThreads.setReader, hbegins hr, (hbegins hr).symm]
  | getCacheSnapshot i snapshotOut hr =>
    simp [SensorThreads.toGive, SensorAction.thread, SensorThreads.setReader, hbegins hr, (hbegins hr).symm]
  | readerCopy i phase hr =>
    by_cases hij : j = i
    · subst hij
      generalize hold : s.reader j = old at hr
      cases hr <;> simp [SensorThreads.toGive, SensorAction.thread, SensorThreads.setReader, hold,
        ReaderPhase.toGive, ReadStep.toGive]
    · simp [SensorThreads.toGive, SensorAction.thread, SensorThreads.setReader, hij, Ne.symm hij]
  | _ => simp [SensorThreads.toGive, SensorAction.thread]

namespace CacheInv

/-- Every step of the holder brings it nearer to giving the mutex back, and no other step takes it
away. -/
theorem toGive_step {θ : CacheThread ι} (h : CacheInv s tr) (hs : SensorStep cfg s a s' evs)
    (hlocked : s.sCacheMutex.holder = some θ) (hlocked' : s'.sCacheMutex.holder = some θ) :
    s'.toGive θ + (decide (a.thread = some θ)).toNat ≤ s.toGive θ := by
  have hholds := (h.locked θ).1 hlocked
  cases θ with
  | sensorMgr => exact toGive_task hs hholds hlocked hlocked'
  | reader j => exact toGive_reader hs hholds hlocked hlocked'

/-- A thread that has something to do is blocked only at `rtos_mutex_take`, while the mutex is held. -/
theorem blocked {θ : CacheThread ι} (h : CacheInv s tr) (hal : SensorHal) (hbusy : s.Busy θ)
    (hnone : (sensorThreads ι cfg).step s (θ.next hal) = none) :
    ¬ s.Holds θ ∧ ∃ θ', s.sCacheMutex.holder = some θ' := by
  have htake : ∀ thread : CacheThread ι, s.sCacheMutex.take thread = none →
      ∃ θ', s.sCacheMutex.holder = some θ' := by
    intro thread hblocked
    cases hholder : s.sCacheMutex.holder with
    | none => simp [FreeRtos.Mutex.take, hholder] at hblocked
    | some θ' => exact ⟨θ', rfl⟩
  cases θ with
  | sensorMgr =>
    have hfits := h.task
    simp only [sensorThreads, CacheThread.next, sensorMgrTask] at hnone
    cases htask : s.task with
    | idle => simp [htask] at hnone
    | fault =>
      rw [htask] at hfits
      exact hfits.elim
    | poll todo =>
      cases todo with
      | nil => simp [htask] at hnone
      | cons sensorId todo =>
        simp only [htask] at hnone
        split at hnone
        · cases hnone
        · split at hnone <;> cases hnone
    | store step reading todo =>
      simp only [htask] at hnone
      cases step with
      | take =>
        simp only [storeReading, Option.map_eq_none_iff] at hnone
        exact ⟨by simp [SensorThreads.Holds, htask, SensorTaskPhase.holds], htake _ hnone⟩
      | state =>
        simp only [storeReading] at hnone
        split at hnone <;> cases hnone
      | _ => cases hnone
  | reader i =>
    have hfits := h.reader i
    simp only [sensorThreads, CacheThread.next, NicObFw.readerStep] at hnone
    cases hreader : s.reader i with
    | idle => exact absurd hreader hbusy
    | fault =>
      rw [hreader] at hfits
      exact hfits.elim
    | getCached step sensorId recordOut =>
      cases step with
      | take =>
        simp only [hreader, Option.map_eq_none_iff] at hnone
        exact ⟨by simp [SensorThreads.Holds, hreader, ReaderPhase.holds], htake _ hnone⟩
      | copy =>
        simp only [hreader] at hnone
        split at hnone <;> cases hnone
      | give => simp [hreader] at hnone
    | getCacheSnapshot step snapshotOut =>
      cases step with
      | take =>
        simp only [hreader, Option.map_eq_none_iff] at hnone
        exact ⟨by simp [SensorThreads.Holds, hreader, ReaderPhase.holds], htake _ hnone⟩
      | _ => simp [hreader] at hnone

end CacheInv

/-- In every state that the threads reach: the thread that holds the mutex is not blocked; a thread with
something to do is blocked only while another thread holds it; and in any run from there the holder has
given it back before it has taken more than five steps of its own. -/
theorem sensorThreads_mutexReleased (ι : Type) [DecidableEq ι] (cfg : TickConfig) (ticks : ℕ)
    (acts : List (SensorAction ι)) (s : SensorThreads ι) (tr : List (SensorEvent ι))
    (hrun : (sensorThreads ι cfg).exec (sensorThreadsInit ι ticks) acts = some (s, tr))
    (hal : SensorHal) (θ : CacheThread ι) :
    (s.sCacheMutex.holder = some θ → ((sensorThreads ι cfg).step s (θ.next hal)).isSome = true) ∧
    (s.Busy θ → (sensorThreads ι cfg).step s (θ.next hal) = none →
      ∃ θ', θ' ≠ θ ∧ s.sCacheMutex.holder = some θ') ∧
    (s.sCacheMutex.holder = some θ → ∀ acts' s' tr', (sensorThreads ι cfg).exec s acts' = some (s', tr') →
      5 ≤ acts'.countP (fun a => a.thread = some θ) →
      ∃ pre post s₁ tr₁, acts' = pre ++ post ∧ (sensorThreads ι cfg).exec s pre = some (s₁, tr₁) ∧
        s₁.sCacheMutex.holder ≠ some θ) := by
  have hinv := (sensorInv_of_exec hrun).1
  refine ⟨fun hlocked => ?_, fun hbusy hnone => ?_, fun hlocked acts' s' tr' hrun' hsteps => ?_⟩
  · have hholds := (hinv.locked θ).1 hlocked
    by_contra hno
    have hnone := Option.not_isSome_iff_eq_none.1 hno
    exact (hinv.blocked hal (busy_of_holds hholds) hnone).1 hholds
  · obtain ⟨hnot, θ', hholder⟩ := hinv.blocked hal hbusy hnone
    refine ⟨θ', ?_, hholder⟩
    rintro rfl
    exact hnot ((hinv.locked θ').1 hholder)
  · by_contra hnever
    have hheld : ∀ pre post s₁ tr₁, acts' = pre ++ post →
        (sensorThreads ι cfg).exec s pre = some (s₁, tr₁) → s₁.sCacheMutex.holder = some θ := by
      intro pre post s₁ tr₁ hacts he
      by_contra hno
      exact hnever ⟨pre, post, s₁, tr₁, hacts, he, hno⟩
    have hthroughout : (sensorThreads ι cfg).Throughout
        (fun s₁ t => CacheInv s₁ (tr ++ t) ∧ s₁.sCacheMutex.holder = some θ) s acts' := by
      intro pre post s₁ tr₁ hacts he
      exact ⟨(sensorInv_of_exec (Machine.exec_append.2 ⟨s, tr, tr₁, hrun, he, rfl⟩)).1,
        hheld pre post s₁ tr₁ hacts he⟩
    have hpaid := hthroughout.measure_le (fun s₁ _ => s₁.toGive θ) (fun a => a.thread = some θ)
      (fun _ => false) (fun s₁ t a s₂ evs h h' hs => h.1.toGive_step
        (sensorThreads_step_cases h.1.task h.1.reader hs) h.2 h'.2) hrun'
    have hfirst := (toGive_of_holds ((hinv.locked θ).1 hlocked)).2
    have hlast := (toGive_of_holds
      (((hthroughout.last hrun').1.locked θ).1 (hthroughout.last hrun').2)).1
    rw [List.countP_false, Function.const_apply] at hpaid
    omega

/-- A reader has taken the mutex; it comes back, and calls again. -/
def readerLocks : List (SensorAction ℕ) :=
  [.getCached 0 0 ⟨0, 0, 0, 0, 0, 0, Vector.replicate _ 0, 0⟩, .readerStep 0]

def readerCallsAgain : List (SensorAction ℕ) :=
  [.readerStep 0, .readerStep 0, .getCached 0 1 ⟨0, 0, 0, 0, 0, 0, Vector.replicate _ 0, 0⟩,
    .readerStep 0, .readerStep 0]

theorem sensorThreads_mutexReleased_reader :
    ∃ s tr, (sensorThreads ℕ ⟨10, 100⟩).exec (sensorThreadsInit ℕ 0) readerLocks = some (s, tr) ∧
      s.sCacheMutex.holder = some (.reader 0) ∧
      ((sensorThreads ℕ ⟨10, 100⟩).step s (.readerStep 0)).isSome = true ∧
      ∃ pre post s₁ tr₁, readerCallsAgain = pre ++ post ∧
        (sensorThreads ℕ ⟨10, 100⟩).exec s pre = some (s₁, tr₁) ∧
        s₁.sCacheMutex.holder ≠ some (.reader 0) := by
  have heval : ((sensorThreads ℕ ⟨10, 100⟩).exec (sensorThreadsInit ℕ 0) readerLocks).any
      (fun r : SensorThreads ℕ × List (SensorEvent ℕ) =>
        decide (r.1.sCacheMutex.holder = some (.reader 0) ∧
          ((sensorThreads ℕ ⟨10, 100⟩).exec r.1 readerCallsAgain).isSome = true)) = true := by
    decide +kernel
  obtain ⟨s, tr, hrun, hlocked, hagain⟩ := Machine.exists_of_any heval
  obtain ⟨⟨s', tr'⟩, hrun'⟩ := Option.isSome_iff_exists.1 hagain
  have h := sensorThreads_mutexReleased ℕ ⟨10, 100⟩ 0 readerLocks s tr hrun (fun _ _ => none) (.reader 0)
  exact ⟨s, tr, hrun, hlocked, h.1 hlocked,
    h.2.2 hlocked readerCallsAgain s' tr' hrun' (by decide)⟩

end NicObFw
