import NicObFw.Lib.Response
import NicObFw.Proofs.BmcMgrProofs
import NicObFw.Proofs.SensorCacheProofs
import NicObFw.SensorMgrTask

/-!
# Proofs: the sensor thread and its timer

No trigger of the timer is lost: each is followed by a poll that starts after it, at most one poll for
each, and after a bounded number of steps of the task. As far as the cache is concerned the loop is the
thread of `SensorThreads.lean`.
-/

namespace NicObFw

variable {ι : Type} {s s' : SensorMgr ι} {tr evs : List (SensorMgrEvent ι)}

/-! ## Histories -/

@[simp] theorem threadEvents_append (tr evs : List (SensorMgrEvent ι)) :
    threadEvents (tr ++ evs) = threadEvents tr ++ threadEvents evs := by
  simp [threadEvents]

@[simp] theorem threadEvents_map (evs : List (SensorEvent ι)) :
    threadEvents (evs.map .threads) = evs := by
  simp [threadEvents, List.filterMap_map]

theorem countP_threads {p : SensorMgrEvent ι → Bool} (tr : List (SensorMgrEvent ι))
    {tevs : List (SensorEvent ι)} (h : ∀ e ∈ tevs, p (.threads e) = false) :
    (tr ++ tevs.map SensorMgrEvent.threads).countP p = tr.countP p := by
  refine Trace.countP_quiet tr fun e he => ?_
  obtain ⟨e', he', rfl⟩ := List.mem_map.1 he
  exact h e' he'

/-- A trigger has not been followed by the start of a poll. -/
def TriggerDue (tr : List (SensorMgrEvent ι)) : Prop :=
  Trace.Due SensorMgrEvent.triggers SensorMgrEvent.startsPoll tr

theorem due_threads {tevs : List (SensorEvent ι)} (h : TriggerDue (tr ++ tevs.map SensorMgrEvent.threads)) :
    TriggerDue tr ∧ ∀ e ∈ tevs, (SensorMgrEvent.threads e).startsPoll = false := by
  rcases h.of_append with ⟨hdue, hquiet⟩ | ⟨e, he, htriggers⟩
  · exact ⟨hdue, fun e he => hquiet _ (List.mem_map_of_mem he)⟩
  · obtain ⟨e', -, rfl⟩ := List.mem_map.1 he
    cases htriggers

/-- Neither the start nor the end of a poll. -/
theorem isPoll_of_ne {e : SensorEvent ι} (h : e ≠ .pollStarted ∧ e ≠ .pollFinished) :
    (SensorMgrEvent.threads e).startsPoll = false ∧ (SensorMgrEvent.threads e).finishesPoll = false := by
  cases e with
  | pollStarted => exact absurd rfl h.1
  | pollFinished => exact absurd rfl h.2
  | _ => exact ⟨rfl, rfl⟩

/-! ## The way to the next poll -/

/-- The steps that the sensor thread takes at most before its task can start the next poll. A sensor takes
seven: the read, taking the mutex, four fields, and giving it back. -/
def SensorTaskPhase.distance : SensorTaskPhase → ℕ
  | idle => 0
  | poll todo => 7 * todo.length + 4
  | store step _ todo =>
    (match step with
      | .take => 6
      | .rawValue => 5
      | .scaledValue => 4
      | .state => 3
      | .timestampMs => 2
      | .give => 1) + (7 * todo.length + 4)
  | fault => 0

/-- A step of the sensor thread starts a poll, or finishes one, or is one on the way. -/
inductive PollStep (task : SensorTaskPhase) : SensorTaskPhase → List (SensorEvent ι) → Prop
  | start (todo : List UInt8) (ht : task = .idle) (hlen : todo.length = 2) :
    PollStep task (.poll todo) [.pollStarted]
  | finish (ht : task = .poll []) : PollStep task .idle [.pollFinished]
  | between (task' : SensorTaskPhase) (evs : List (SensorEvent ι)) (ht : task ≠ .idle)
      (ht' : task' ≠ .idle) (hevs : ∀ e ∈ evs, e ≠ .pollStarted ∧ e ≠ .pollFinished)
      (hdist : task'.distance + 1 ≤ task.distance) : PollStep task task' evs

/-! ## Triggers and polls -/

/-- The task, the trigger and the polls after the trace `tr`. -/
structure TriggerInv (s : SensorMgr ι) (tr : List (SensorMgrEvent ι)) : Prop where
  cache : CacheInv s.threads (threadEvents tr)
  outside : s.phase ≠ .poll → s.threads.task = .idle
  set : s.phase = .clear → s.sPollTrigger = true
  running : s.sPollTimer = true → s.phase ≠ .start
  noAlert : s.sAlertQueue.items = []
  distance : s.threads.task.distance ≤ 18
  due : TriggerDue tr → s.sPollTrigger = true ∨ s.AboutToPoll
  started : tr.countP SensorMgrEvent.startsPoll + s.sPollTrigger.toNat +
    (if s.AboutToPoll then 1 else 0) ≤ tr.countP SensorMgrEvent.triggers
  finished : tr.countP SensorMgrEvent.startsPoll = tr.countP SensorMgrEvent.finishesPoll +
    if s.threads.task = .idle then 0 else 1

namespace TriggerInv

/-- Steps outside a poll that are not a trigger. -/
theorem quiet (h : TriggerInv s tr) (hthreads : s'.threads = s.threads) (hevs : threadEvents evs = [])
    (hquiet : ∀ e ∈ evs, e.triggers = false ∧ e.startsPoll = false ∧ e.finishesPoll = false)
    (hidle : s.threads.task = .idle) (hset : s'.phase = .clear → s'.sPollTrigger = true)
    (hrunning : s'.sPollTimer = true → s'.phase ≠ .start) (hqueue : s'.sAlertQueue.items = [])
    (hpending : s.sPollTrigger.toNat + (if s.AboutToPoll then 1 else 0) =
      s'.sPollTrigger.toNat + if s'.AboutToPoll then 1 else 0) : TriggerInv s' (tr ++ evs) := by
  have hstarts := Trace.countP_quiet tr fun e he => (hquiet e he).2.1
  have hfinishes := Trace.countP_quiet tr fun e he => (hquiet e he).2.2
  have htriggers := Trace.countP_quiet tr fun e he => (hquiet e he).1
  refine ⟨?_, fun _ => by rw [hthreads, hidle], hset, hrunning, hqueue, ?_, fun hdue => ?_, ?_, ?_⟩
  · rw [hthreads, threadEvents_append, hevs, List.append_nil]
    exact h.cache
  · rw [hthreads]
    exact h.distance
  · have hpos : s.sPollTrigger = true ∨ s.AboutToPoll := by
      rcases hdue.of_append with hold | ⟨e, he, htriggers⟩
      · exact h.due hold.1
      · rw [(hquiet e he).1] at htriggers
        cases htriggers
    by_contra hno
    obtain ⟨hunset, hnot⟩ := not_or.1 hno
    rw [Bool.eq_false_iff.2 hunset, if_neg hnot] at hpending
    rcases hpos with hpos | hpos
    · rw [hpos] at hpending
      simp at hpending
    · rw [if_pos hpos] at hpending
      simp at hpending
  · have := h.started
    rw [hstarts, htriggers]
    omega
  · rw [hstarts, hfinishes, hthreads]
    exact h.finished

/-- A step of the poll. -/
theorem pollStep (h : TriggerInv s tr) (hp : s.phase = .poll) {threads : SensorThreads ι}
    {tevs : List (SensorEvent ι)} (hcache : CacheInv threads (threadEvents tr ++ tevs))
    (hs : PollStep s.threads.task threads.task tevs) :
    TriggerInv { s with threads, phase := if threads.task = .idle then .receive else .poll }
      (tr ++ tevs.map .threads) := by
  have hcache' : CacheInv threads (threadEvents (tr ++ tevs.map .threads)) := by
    rwa [threadEvents_append, threadEvents_map]
  have htriggers : (tr ++ tevs.map SensorMgrEvent.threads).countP SensorMgrEvent.triggers =
      tr.countP SensorMgrEvent.triggers := countP_threads tr fun _ _ => rfl
  have hstarted := h.started
  have hfinished := h.finished
  have hdistance := h.distance
  generalize htask : threads.task = task' at hs
  cases hs with
  | start todo ht hlen =>
    have habout : s.AboutToPoll := ⟨hp, ht⟩
    rw [if_pos habout] at hstarted
    rw [if_pos ht] at hfinished
    refine ⟨hcache', ?_, by simp, by simp, h.noAlert, ?_, fun hdue => ?_, ?_, ?_⟩
    · simp
    · show threads.task.distance ≤ 18
      rw [htask]
      simp [SensorTaskPhase.distance, hlen]
    · have := (due_threads hdue).2 .pollStarted (by simp)
      cases this
    · rw [htriggers, List.countP_append]
      simp [SensorMgr.AboutToPoll, htask, SensorMgrEvent.startsPoll]
      omega
    · rw [List.countP_append, List.countP_append, hfinished]
      simp [htask, SensorMgrEvent.startsPoll, SensorMgrEvent.finishesPoll]
  | finish ht =>
    have hnot : ¬ s.AboutToPoll := fun h' => by simpa [ht] using h'.2
    rw [if_neg hnot] at hstarted
    rw [if_neg (by simp [ht])] at hfinished
    refine ⟨hcache', fun _ => htask, by simp, by simp, h.noAlert, ?_, fun hdue => ?_, ?_, ?_⟩
    · show threads.task.distance ≤ 18
      rw [htask]
      exact Nat.zero_le _
    · exact (h.due (due_threads hdue).1).imp_right fun h' => absurd h' hnot
    · rw [htriggers, List.countP_append]
      simp [SensorMgr.AboutToPoll, SensorMgrEvent.startsPoll]
      omega
    · rw [List.countP_append, List.countP_append, hfinished]
      simp [htask, SensorMgrEvent.startsPoll, SensorMgrEvent.finishesPoll]
  | between task'' evs' ht ht' hevs hdist =>
    have hnot : ¬ s.AboutToPoll := fun h' => ht h'.2
    have hstarts := countP_threads tr fun e he => (isPoll_of_ne (hevs e he)).1
    have hfinishes := countP_threads tr fun e he => (isPoll_of_ne (hevs e he)).2
    rw [if_neg hnot] at hstarted
    rw [if_neg ht] at hfinished
    refine ⟨hcache', by simp [htask, ht'], by simp [ht'], by simp [ht'], h.noAlert, ?_,
      fun hdue => ?_, ?_, ?_⟩
    · show threads.task.distance ≤ 18
      rw [htask]
      omega
    · exact (h.due (due_threads hdue).1).imp_right fun h' => absurd h' hnot
    · rw [htriggers, hstarts]
      simpa [SensorMgr.AboutToPoll, htask, ht'] using hstarted
    · rw [hstarts, hfinishes, hfinished]
      simp [htask, ht']

end TriggerInv

variable [DecidableEq ι] {cfg : TickConfig} {a : SensorMgrAction ι}

theorem triggerInv_init (ι : Type) [DecidableEq ι] (ticks : ℕ) :
    TriggerInv (sensorMgrTaskInit ι ticks) [] where
  cache := cacheInv_init ι ticks
  outside := fun _ => rfl
  set := by simp [sensorMgrTaskInit]
  running := by simp [sensorMgrTaskInit]
  noAlert := rfl
  distance := Nat.zero_le _
  due := fun h => absurd h Trace.not_due_nil
  started := by simp [sensorMgrTaskInit, SensorMgr.AboutToPoll]
  finished := rfl

/-! ## The steps -/

/-- Everything that a step can do. -/
inductive SensorMgrStep (cfg : TickConfig) (s : SensorMgr ι) :
    SensorMgrAction ι → SensorMgr ι → List (SensorMgrEvent ι) → Prop
  | timerStart (ok : Bool) (hp : s.phase = .start) :
    SensorMgrStep cfg s (.timerStart ok) { s with phase := .test, sPollTimer := ok }
      [.timerStarted ok]
  | testSet (hal : SensorHal) (hp : s.phase = .test) (ht : s.sPollTrigger = true) :
    SensorMgrStep cfg s (.sensorMgrTask hal) { s with phase := .clear } []
  | testUnset (hal : SensorHal) (hp : s.phase = .test) (ht : s.sPollTrigger = false) :
    SensorMgrStep cfg s (.sensorMgrTask hal) { s with phase := .receive } []
  | clear (hal : SensorHal) (hp : s.phase = .clear) :
    SensorMgrStep cfg s (.sensorMgrTask hal) { s with sPollTrigger := false, phase := .poll } []
  | poll (hal : SensorHal) (threads : SensorThreads ι) (evs : List (SensorEvent ι))
      (hp : s.phase = .poll) (hs : NicObFw.sensorMgrTask cfg s.threads hal = some (threads, evs)) :
    SensorMgrStep cfg s (.sensorMgrTask hal)
      { s with threads, phase := if threads.task = .idle then .receive else .poll }
      (evs.map .threads)
  | alert (hal : SensorHal) (evt : NicEventMsg) (sAlertQueue : FreeRtos.Queue NicEventMsg queueDepthSensor)
      (hp : s.phase = .receive) (hq : s.sAlertQueue.items = evt :: sAlertQueue.items) :
    SensorMgrStep cfg s (.sensorMgrTask hal) { s with sAlertQueue, phase := .test }
      [.alert (some evt)]
  | timeout (hp : s.phase = .receive) :
    SensorMgrStep cfg s .receiveTimeout { s with phase := .test } [.alert none]
  | trigger (ht : s.sPollTimer = true) :
    SensorMgrStep cfg s .sensorPollTimerCb { s with sPollTrigger := true } [.triggered]
  | other (a : SensorAction ι) (threads : SensorThreads ι) (evs : List (SensorEvent ι))
      (hne : ∀ hal, a ≠ .sensorMgrTask hal)
      (hs : (sensorThreads ι cfg).step s.threads a = some (threads, evs)) :
    SensorMgrStep cfg s (.other a) { s with threads } (evs.map .threads)

theorem sensorMgrLoop_cases {hal : SensorHal} (h : sensorMgrLoop cfg s hal = some (s', evs)) :
    SensorMgrStep cfg s (.sensorMgrTask hal) s' evs := by
  unfold sensorMgrLoop at h
  cases hp : s.phase with
  | start => simp [hp] at h
  | test =>
    simp only [hp, Option.some.injEq, Prod.mk.injEq] at h
    obtain ⟨rfl, rfl⟩ := h
    by_cases ht : s.sPollTrigger = true
    · rw [if_pos ht]
      exact .testSet hal hp ht
    · rw [if_neg ht]
      exact .testUnset hal hp (Bool.eq_false_iff.2 ht)
  | clear =>
    simp only [hp, Option.some.injEq, Prod.mk.injEq] at h
    obtain ⟨rfl, rfl⟩ := h
    exact .clear hal hp
  | poll =>
    simp only [hp, Option.map_eq_some_iff, Prod.mk.injEq] at h
    obtain ⟨⟨threads, fevs⟩, hs, rfl, rfl⟩ := h
    exact .poll hal threads fevs hp hs
  | receive =>
    cases hq : s.sAlertQueue.items with
    | nil => simp [hp, rtosQueueReceive_nil hq] at h
    | cons evt rest =>
      obtain ⟨q, hrecv, rfl⟩ := rtosQueueReceive_cons hq
      simp only [hp, hrecv, Option.some.injEq, Prod.mk.injEq] at h
      obtain ⟨rfl, rfl⟩ := h
      exact .alert hal evt q hp hq

theorem sensorMgr_step_cases (h : (sensorMgr ι cfg).step s a = some (s', evs)) :
    SensorMgrStep cfg s a s' evs := by
  cases a with
  | sensorMgrTask hal => exact sensorMgrLoop_cases h
  | timerStart ok =>
    simp only [sensorMgr] at h
    split at h
    · rename_i hp
      obtain ⟨rfl, rfl⟩ := Prod.mk.inj (Option.some.inj h)
      exact .timerStart ok hp
    · cases h
  | receiveTimeout =>
    simp only [sensorMgr] at h
    split at h
    · rename_i hp
      obtain ⟨rfl, rfl⟩ := Prod.mk.inj (Option.some.inj h)
      exact .timeout hp
    · cases h
  | sensorPollTimerCb =>
    simp only [sensorMgr] at h
    split at h
    · rename_i ht
      obtain ⟨rfl, rfl⟩ := Prod.mk.inj (Option.some.inj h)
      exact .trigger ht
    · cases h
  | other a =>
    have hne : ∀ hal, a ≠ .sensorMgrTask hal := by
      rintro hal rfl
      cases h
    obtain ⟨⟨threads, fevs⟩, hs, heq⟩ : ∃ r, (sensorThreads ι cfg).step s.threads a = some r ∧
        ({ s with threads := r.1 }, r.2.map SensorMgrEvent.threads) = (s', evs) := by
      cases a with
      | sensorMgrTask hal => exact absurd rfl (hne hal)
      | _ => exact Option.map_eq_some_iff.1 h
    obtain ⟨rfl, rfl⟩ := Prod.mk.inj heq
    exact .other a threads fevs hne hs

/-! ## The threads around the cache -/

/-- A step of the module is a step of the threads around the cache, or none. -/
theorem threads_of_step (hs : SensorMgrStep cfg s a s' evs) :
    ∃ bs, (sensorThreads ι cfg).exec s.threads bs = some (s'.threads, threadEvents evs) := by
  cases hs with
  | poll hal threads tevs hp hs =>
    exact ⟨[.sensorMgrTask hal], by rw [threadEvents_map]; exact Machine.exec_singleton.2 hs⟩
  | other a threads tevs hne hs =>
    exact ⟨[a], by rw [threadEvents_map]; exact Machine.exec_singleton.2 hs⟩
  | _ => exact ⟨[], rfl⟩

/-- Every run of the module is a run of the threads around the cache. -/
theorem threads_of_exec {ticks : ℕ} {acts : List (SensorMgrAction ι)}
    (hrun : (sensorMgr ι cfg).exec (sensorMgrTaskInit ι ticks) acts = some (s, tr)) :
    ∃ bs, (sensorThreads ι cfg).exec (sensorThreadsInit ι ticks) bs =
      some (s.threads, threadEvents tr) := by
  have h0 : sensorThreadsInit ι ticks = (sensorMgrTaskInit ι ticks).threads ∧
      ([] : List (SensorEvent ι)) = threadEvents [] := ⟨rfl, rfl⟩
  obtain ⟨bs, t, ur, ht, rfl, rfl⟩ := Machine.simulated_by (N := sensorThreads ι cfg)
    (fun (s : SensorMgr ι) tr t ur => t = s.threads ∧ ur = threadEvents tr)
    (fun s tr t ur a s' evs hR hs => by
      obtain ⟨rfl, rfl⟩ := hR
      obtain ⟨bs, hbs⟩ := threads_of_step (sensorMgr_step_cases hs)
      exact ⟨bs, s'.threads, _, hbs, rfl, (threadEvents_append tr evs).symm⟩) h0 hrun
  exact ⟨bs, ht⟩

section Threads

variable {t t' : SensorThreads ι} {tevs : List (SensorEvent ι)}

theorem pollStep_of_sensorStep {hal : SensorHal} (hcount : t.sCache.count = sensorMgrInit.count)
    (hs : SensorStep cfg t (.sensorMgrTask hal) t' tevs) : PollStep t.task t'.task tevs := by
  cases hs with
  | pollStart _ ht =>
    refine .start _ ht ?_
    rw [hcount, pollOrder_init]
    rfl
  | pollEnd _ ht => exact .finish ht
  | readFailed _ sensorId todo ht =>
    refine .between _ _ (by simp [ht]) (by simp) (by simp) ?_
    simp only [ht, SensorTaskPhase.distance, List.length_cons]
    omega
  | readOk _ reading todo ht hcal =>
    refine .between _ _ (by simp [ht]) (by simp) (by simp) ?_
    simp only [ht, SensorTaskPhase.distance, List.length_cons]
    omega
  | lock _ reading todo ht hfree =>
    refine .between _ _ (by simp [ht]) (by simp) (by simp) ?_
    simp only [ht, SensorTaskPhase.distance]
    omega
  | write _ step next reading todo f rec _ ht hw hrec =>
    refine .between _ _ (by simp [ht]) (by simp) ?_ ?_
    · cases hw <;> simp
    · cases hw <;> simp only [ht, SensorTaskPhase.distance] <;> omega
  | unlock _ reading todo ht =>
    refine .between _ _ (by simp [ht]) (by simp) (by simp) ?_
    simp only [ht, SensorTaskPhase.distance]
    omega

/-- The other threads leave the sensor thread where it is. -/
theorem task_of_other {b : SensorAction ι} (hne : ∀ hal, b ≠ .sensorMgrTask hal)
    (hs : SensorStep cfg t b t' tevs) :
    t'.task = t.task ∧ ∀ e ∈ tevs, e ≠ .pollStarted ∧ e ≠ .pollFinished := by
  cases hs with
  | callFails i sensorId recordOut hr hge => exact ⟨rfl, by simp⟩
  | getCached i sensorId recordOut hr hlt => exact ⟨rfl, by simp⟩
  | getCacheSnapshot i snapshotOut hr => exact ⟨rfl, by simp⟩
  | readerLock i phase hr hfree => exact ⟨rfl, by simp⟩
  | readerCopy i phase hr => exact ⟨rfl, by simp⟩
  | readerReturn i e hr =>
    refine ⟨rfl, ?_⟩
    generalize t.reader i = old at hr
    cases hr <;> simp
  | clock ticks => exact ⟨rfl, by simp⟩
  | _ => exact absurd rfl (hne _)

end Threads

/-! ## Runs -/

theorem TriggerInv.step (h : TriggerInv s tr) (hs : SensorMgrStep cfg s a s' evs) :
    TriggerInv s' (tr ++ evs) := by
  cases hs with
  | timerStart ok hp =>
    refine h.quiet rfl rfl ?_ (h.outside (by simp [hp])) (by simp) (by simp) h.noAlert ?_
    · simp [SensorMgrEvent.triggers, SensorMgrEvent.startsPoll, SensorMgrEvent.finishesPoll]
    · simp [SensorMgr.AboutToPoll, hp]
  | testSet hal hp ht =>
    refine h.quiet rfl rfl (by simp) (h.outside (by simp [hp])) (fun _ => ht) (by simp) h.noAlert ?_
    simp [SensorMgr.AboutToPoll, hp]
  | testUnset hal hp ht =>
    refine h.quiet rfl rfl (by simp) (h.outside (by simp [hp])) (by simp) (by simp) h.noAlert ?_
    simp [SensorMgr.AboutToPoll, hp]
  | clear hal hp =>
    have hidle := h.outside (by simp [hp])
    refine h.quiet rfl rfl (by simp) hidle (by simp) (by simp) h.noAlert ?_
    -- the trigger that is cleared is the poll that is about to start
    simp [SensorMgr.AboutToPoll, hp, hidle, h.set hp]
  | poll hal threads tevs hp hs =>
    have hstep := sensorMgrTask_cases h.cache.task hs
    exact h.pollStep hp (h.cache.step hstep) (pollStep_of_sensorStep h.cache.count hstep)
  | alert hal evt q hp hq =>
    rw [h.noAlert] at hq
    cases hq
  | timeout hp =>
    refine h.quiet rfl rfl ?_ (h.outside (by simp [hp])) (by simp) (by simp) h.noAlert ?_
    · simp [SensorMgrEvent.triggers, SensorMgrEvent.startsPoll, SensorMgrEvent.finishesPoll]
    · simp [SensorMgr.AboutToPoll, hp]
  | trigger ht =>
    have hstarted := h.started
    refine ⟨?_, h.outside, fun _ => rfl, h.running, h.noAlert, h.distance, fun _ => Or.inl rfl, ?_, ?_⟩
    · rw [threadEvents_append]
      simpa [threadEvents] using h.cache
    · rw [List.countP_append, List.countP_append]
      simp only [SensorMgrEvent.startsPoll, SensorMgrEvent.triggers, List.countP_singleton,
        Bool.toNat_true, Bool.false_eq_true, if_false, if_true]
      show _ + 1 + (if s.AboutToPoll then 1 else 0) ≤ _
      omega
    · rw [List.countP_append, List.countP_append, h.finished]
      simp [SensorMgrEvent.startsPoll, SensorMgrEvent.finishesPoll]
  | other b threads tevs hne hs =>
    have hstep := sensorThreads_step_cases h.cache.task h.cache.reader hs
    obtain ⟨htask, hevs⟩ := task_of_other hne hstep
    have hstarts := countP_threads tr fun e he => (isPoll_of_ne (hevs e he)).1
    have hfinishes := countP_threads tr fun e he => (isPoll_of_ne (hevs e he)).2
    have htriggers : (tr ++ tevs.map SensorMgrEvent.threads).countP SensorMgrEvent.triggers =
        tr.countP SensorMgrEvent.triggers := countP_threads tr fun _ _ => rfl
    have habout : ({ s with threads } : SensorMgr ι).AboutToPoll ↔ s.AboutToPoll := by
      simp [SensorMgr.AboutToPoll, htask]
    refine ⟨?_, fun hp => ?_, h.set, h.running, h.noAlert, ?_, fun hdue => ?_, ?_, ?_⟩
    · rw [threadEvents_append, threadEvents_map]
      exact h.cache.step hstep
    · exact htask.trans (h.outside hp)
    · show threads.task.distance ≤ 18
      rw [htask]
      exact h.distance
    · rw [habout]
      exact h.due (due_threads hdue).1
    · rw [hstarts, htriggers]
      simpa only [habout] using h.started
    · rw [hstarts, hfinishes, h.finished]
      show _ = _ + if threads.task = .idle then 0 else 1
      rw [htask]

theorem triggerInv_of_exec {ticks : ℕ} {acts : List (SensorMgrAction ι)}
    (hrun : (sensorMgr ι cfg).exec (sensorMgrTaskInit ι ticks) acts = some (s, tr)) :
    TriggerInv s tr :=
  Machine.invariant (triggerInv_init ι ticks)
    (fun _ _ _ _ _ h hs => h.step (sensorMgr_step_cases hs)) hrun

/-- Whatever the timer, the task and the readers do: a trigger is followed by the start of a poll, or is
still to be seen in `s_poll_trigger`, or the poll that it caused is about to start; the task never
starts more polls than there were triggers, and starts none before it has finished the one before. -/
theorem sensorMgr_keepsTriggers (ι : Type) [DecidableEq ι] (cfg : TickConfig) (ticks : ℕ)
    (acts : List (SensorMgrAction ι)) (s : SensorMgr ι) (tr : List (SensorMgrEvent ι))
    (hrun : (sensorMgr ι cfg).exec (sensorMgrTaskInit ι ticks) acts = some (s, tr)) :
    (∀ pre post, tr = pre ++ .triggered :: post →
      (∃ e ∈ post, e.startsPoll = true) ∨ s.sPollTrigger = true ∨ s.AboutToPoll) ∧
    tr.countP SensorMgrEvent.startsPoll + s.sPollTrigger.toNat ≤ tr.countP SensorMgrEvent.triggers ∧
    tr.countP SensorMgrEvent.finishesPoll ≤ tr.countP SensorMgrEvent.startsPoll ∧
    tr.countP SensorMgrEvent.startsPoll ≤ tr.countP SensorMgrEvent.finishesPoll + 1 := by
  have h := triggerInv_of_exec hrun
  have hstarted := h.started
  have hfinished := h.finished
  refine ⟨fun pre post heq => ?_, by omega, by omega, by split at hfinished <;> omega⟩
  by_cases hstart : ∃ e ∈ post, e.startsPoll = true
  · exact Or.inl hstart
  · right
    refine h.due ⟨pre, _, post, heq, rfl, fun e he => ?_⟩
    by_contra hno
    exact hstart ⟨e, he, by simpa using hno⟩

/-- The timer expires a second time between the clearing of the trigger and the start of the poll. -/
def secondTriggerRun : List (SensorMgrAction ℕ) :=
  [.timerStart true, .sensorPollTimerCb, .sensorMgrTask fun _ _ => none,
    .sensorMgrTask fun _ _ => none, .sensorPollTimerCb, .sensorMgrTask fun _ _ => none]

theorem sensorMgr_keepsTriggers_secondTrigger :
    ∃ s tr, (sensorMgr ℕ ⟨10, 100⟩).exec (sensorMgrTaskInit ℕ 0) secondTriggerRun = some (s, tr) ∧
      s.sPollTrigger = true ∧ tr.countP SensorMgrEvent.startsPoll = 1 ∧
      tr.countP SensorMgrEvent.startsPoll + s.sPollTrigger.toNat ≤
        tr.countP SensorMgrEvent.triggers := by
  have heval : ((sensorMgr ℕ ⟨10, 100⟩).exec (sensorMgrTaskInit ℕ 0) secondTriggerRun).any
      (fun r : SensorMgr ℕ × List (SensorMgrEvent ℕ) =>
        decide (r.1.sPollTrigger = true ∧ r.2.countP SensorMgrEvent.startsPoll = 1)) = true := by
    decide +kernel
  obtain ⟨s, tr, hrun, hset, hstarted⟩ := Machine.exists_of_any heval
  exact ⟨s, tr, hrun, hset, hstarted, (sensorMgr_keepsTriggers ℕ ⟨10, 100⟩ 0 _ s tr hrun).2.1⟩

/-! ## How long a trigger waits -/

/-- The steps that the task takes at most, once it has been triggered, before it can start a poll. -/
def SensorMgr.distance (s : SensorMgr ι) : ℕ :=
  match s.phase with
  | .start => 2
  | .test => 2
  | .clear => 1
  | .poll => s.threads.task.distance
  | .receive => 3

/-- While a trigger is due every step of the task brings it nearer to a poll, and no other step takes it
away from one. -/
theorem TriggerInv.distance_step (h : TriggerInv s tr) (hs : SensorMgrStep cfg s a s' evs)
    (hpending : s.sPollTrigger = true ∨ s.AboutToPoll) (hno : ∀ e ∈ evs, e.startsPoll = false) :
    s'.distance + a.ofTask.toNat ≤ s.distance := by
  cases hs with
  | timerStart ok hp => simp [SensorMgr.distance, SensorMgrAction.ofTask, hp]
  | testSet hal hp ht => simp [SensorMgr.distance, SensorMgrAction.ofTask, hp]
  | testUnset hal hp ht =>
    rcases hpending with hset | habout
    · rw [ht] at hset
      cases hset
    · exact absurd (hp.symm.trans habout.1) (by simp)
  | clear hal hp =>
    have hidle := h.outside (by simp [hp])
    simp [SensorMgr.distance, SensorMgrAction.ofTask, hp, hidle, SensorTaskPhase.distance]
  | poll hal threads tevs hp hs =>
    have hstep := pollStep_of_sensorStep h.cache.count (sensorMgrTask_cases h.cache.task hs)
    generalize htask : threads.task = task' at hstep
    cases hstep with
    | start todo ht hlen =>
      have := hno (.threads .pollStarted) (by simp)
      cases this
    | finish ht =>
      simp [SensorMgr.distance, SensorMgrAction.ofTask, hp, ht, SensorTaskPhase.distance]
    | between task'' evs' ht ht' hevs hdist =>
      simpa [SensorMgr.distance, SensorMgrAction.ofTask, hp, htask, ht'] using hdist
  | alert hal evt q hp hq => simp [SensorMgr.distance, SensorMgrAction.ofTask, hp]
  | timeout hp => simp [SensorMgr.distance, SensorMgrAction.ofTask, hp]
  | trigger ht => simp [SensorMgr.distance, SensorMgrAction.ofTask]
  | other b threads tevs hne hs =>
    have htask := (task_of_other hne (sensorThreads_step_cases h.cache.task h.cache.reader hs)).1
    simp [SensorMgr.distance, SensorMgrAction.ofTask, htask]

/-- When the timer expires, a poll starts before the task has taken nineteen more steps, the end of its
wait included: whatever it was doing, and whatever the readers, the clock and the timer do in between. -/
theorem sensorMgr_answersTrigger (ι : Type) [DecidableEq ι] (cfg : TickConfig) (ticks : ℕ)
    (acts acts' : List (SensorMgrAction ι)) (s s' : SensorMgr ι) (tr tr' : List (SensorMgrEvent ι))
    (hrun : (sensorMgr ι cfg).exec (sensorMgrTaskInit ι ticks) acts = some (s, tr))
    (hrun' : (sensorMgr ι cfg).exec s (.sensorPollTimerCb :: acts') = some (s', tr'))
    (hown : 19 ≤ acts'.countP SensorMgrAction.ofTask) : ∃ e ∈ tr', e.startsPoll = true := by
  obtain ⟨s₁, evs, tr'', hs, he, rfl⟩ := Machine.exec_cons.1 hrun'
  have hinv := triggerInv_of_exec hrun
  have hinv₁ := hinv.step (sensorMgr_step_cases hs)
  obtain rfl : evs = [.triggered] := by
    cases sensorMgr_step_cases hs
    rfl
  suffices h : ∃ e ∈ tr'', e.startsPoll = true by
    obtain ⟨e, he, hstart⟩ := h
    exact ⟨e, List.mem_append_right _ he, hstart⟩
  have hdistance : s₁.distance ≤ 18 := by
    have := hinv₁.distance
    unfold SensorMgr.distance
    split <;> omega
  refine Machine.responds (fun s₂ t => TriggerInv s₂ (tr ++ [.triggered] ++ t))
    (fun _ t => ∃ e ∈ t, e.startsPoll = true) (fun s₂ _ => s₂.distance + 1) SensorMgrAction.ofTask
    (fun _ => false) ?_ ?_ ?_ ?_ ?_ he ?_
  · rw [List.append_nil]
    exact hinv₁
  · intro s₂ t a s₃ evs h hs
    rw [← List.append_assoc]
    exact h.step (sensorMgr_step_cases hs)
  · rintro s₂ t a s₃ evs ⟨e, he, hstart⟩ -
    exact ⟨e, List.mem_append_left _ he, hstart⟩
  · exact fun s₂ t _ _ => Nat.succ_pos _
  · intro s₂ t a s₃ evs h hno hno' hs
    have hdue : TriggerDue (tr ++ [.triggered] ++ t) := by
      refine ⟨tr, .triggered, t, by simp, rfl, fun e he => ?_⟩
      exact Bool.eq_false_iff.2 fun hstart => hno ⟨e, he, hstart⟩
    have hstep := h.distance_step (sensorMgr_step_cases hs) (h.due hdue) fun e he =>
      Bool.eq_false_iff.2 fun hstart => hno' ⟨e, List.mem_append_right _ he, hstart⟩
    show s₃.distance + 1 + a.ofTask.toNat ≤ s₂.distance + 1
    omega
  · rw [List.countP_false]
    show s₁.distance + 1 ≤ _
    omega

/-- After the timer has expired, a poll in which no sensor answers, and seven waits for an alert. -/
def triggeredPollRun : List (SensorMgrAction ℕ) :=
  List.replicate 6 (.sensorMgrTask fun _ _ => none) ++
    (List.replicate 7 [.receiveTimeout, .sensorMgrTask fun _ _ => none]).flatten

theorem sensorMgr_answersTrigger_triggeredPoll :
    ∃ s tr, (sensorMgr ℕ ⟨10, 100⟩).exec (sensorMgrTaskInit ℕ 0)
      ([.timerStart true] ++ .sensorPollTimerCb :: triggeredPollRun) = some (s, tr) ∧
      ∃ e ∈ tr, e.startsPoll = true := by
  have heval : ((sensorMgr ℕ ⟨10, 100⟩).exec (sensorMgrTaskInit ℕ 0)
      ([.timerStart true] ++ .sensorPollTimerCb :: triggeredPollRun)).any
      (fun _ : SensorMgr ℕ × List (SensorMgrEvent ℕ) => decide True) = true := by
    decide +kernel
  obtain ⟨s, tr, hrun, -⟩ := Machine.exists_of_any heval
  obtain ⟨s₁, tr₁, tr₂, hrun₁, hrun₂, rfl⟩ := Machine.exec_append.1 hrun
  obtain ⟨e, he, hstart⟩ := sensorMgr_answersTrigger ℕ ⟨10, 100⟩ 0 _ triggeredPollRun s₁ s tr₁ tr₂
    hrun₁ hrun₂ (by decide)
  exact ⟨s, _, hrun, e, List.mem_append_right _ he, hstart⟩

end NicObFw
