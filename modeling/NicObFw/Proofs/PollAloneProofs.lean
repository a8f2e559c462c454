import NicObFw.Proofs.PollAllSensorsProofs
import NicObFw.Proofs.SensorCacheProofs

/-!
# Proofs: a poll among other threads

While the sensor thread polls, readers lock and copy the cache, and the clock runs. The poll reads what
`poll_all_sensors` reads, and leaves the cache that it leaves, when it is called alone and is shown the
same values and times (`sensorThreads_pollsAlone`).
-/

namespace NicObFw

open Traced

variable {ι : Type}

/-! ## What a poll observes -/

/-- The calls of `sensor_protocol_read` and their results. -/
def readsDone (tr : List (SensorEvent ι)) : List (UInt8 × Option Int16) :=
  tr.filterMap fun
    | .read sensorId result => some (sensorId, result)
    | _ => none

/-- The times that were stored with the readings. -/
def timesStored (tr : List (SensorEvent ι)) : List UInt32 :=
  tr.filterMap fun
    | .stored _ _ tickMs => some tickMs
    | _ => none

/-- A poll was started. -/
def SensorEvent.startsPoll : SensorEvent ι → Bool
  | pollStarted => true
  | _ => false

/-- The environment shows a poll the values and times that the threads saw, in the same order. -/
structure Observes (env : PollEnv) (tr : List (SensorEvent ι)) : Prop where
  calibration : env.sCalibration = sCalibration
  reads : ∀ n sensorId result, (readsDone tr)[n]? = some (sensorId, result) →
    sensorProtocolRead (env.hal n) sensorId = result
  times : ∀ n tickMs, (timesStored tr)[n]? = some tickMs →
    rtosGetTickMs env.cfg (env.ticks n) = tickMs

@[simp] theorem readsDone_append (tr evs : List (SensorEvent ι)) :
    readsDone (tr ++ evs) = readsDone tr ++ readsDone evs := by
  simp [readsDone]

@[simp] theorem timesStored_append (tr evs : List (SensorEvent ι)) :
    timesStored (tr ++ evs) = timesStored tr ++ timesStored evs := by
  simp [timesStored]

theorem Observes.of_append {env : PollEnv} {tr evs : List (SensorEvent ι)}
    (h : Observes env (tr ++ evs)) : Observes env tr := by
  refine ⟨h.calibration, fun n sensorId result hn => ?_, fun n tickMs hn => ?_⟩
  · refine h.reads n sensorId result ?_
    rw [readsDone_append]
    exact List.getElem?_append_left (List.getElem?_eq_some_iff.1 hn).1 |>.trans hn
  · refine h.times n tickMs ?_
    rw [timesStored_append]
    exact List.getElem?_append_left (List.getElem?_eq_some_iff.1 hn).1 |>.trans hn

/-- Events that a poll does not depend on. -/
def SensorEvent.isReader : SensorEvent ι → Bool
  | gotCached .. => true
  | getCachedFailed .. => true
  | gotCacheSnapshot .. => true
  | _ => false

theorem readsDone_quiet {evs : List (SensorEvent ι)} (h : ∀ e ∈ evs, e.isReader = true) :
    readsDone evs = [] :=
  Trace.filterMap_quiet (fun e he => by cases e <;> simp_all [SensorEvent.isReader]) h

theorem timesStored_quiet {evs : List (SensorEvent ι)} (h : ∀ e ∈ evs, e.isReader = true) :
    timesStored evs = [] :=
  Trace.filterMap_quiet (fun e he => by cases e <;> simp_all [SensorEvent.isReader]) h

/-! ## The plain loop, one sensor at a time -/

variable {env : PollEnv}

theorem plainLoop_snoc {ids : List ℕ} {id : ℕ} {s p p' : PollState}
    {reads reads' : List (UInt8 × Option Int16)}
    (hloop : plainLoop env ids s = ⟨.done (), reads, p⟩)
    (hlast : plainSensor env (UInt8.ofNat id) p = ⟨.done (), reads', p'⟩) :
    plainLoop env (ids ++ [id]) s = ⟨.done (), reads ++ reads', p'⟩ := by
  induction ids generalizing s reads with
  | nil =>
    obtain ⟨-, rfl, rfl⟩ := Outcome.mk.inj hloop
    rw [List.nil_append, List.nil_append, plainLoop, bind_done (congrArg Outcome.ret hlast), hlast]
    simp [plainLoop, pure]
  | cons first ids ih =>
    rw [plainLoop] at hloop
    obtain ⟨⟨⟩, hfirst, -⟩ := ret_bind_eq_done.1 (congrArg Outcome.ret hloop)
    rw [bind_done hfirst] at hloop
    obtain ⟨hret, htrace, hworld⟩ := Outcome.mk.inj hloop
    have hrest : plainLoop env (ids ++ [id]) (plainSensor env (UInt8.ofNat first) s).world =
        ⟨.done (), (plainLoop env ids (plainSensor env (UInt8.ofNat first) s).world).trace ++ reads',
          p'⟩ :=
      ih (by rw [← hret, ← hworld])
    rw [List.cons_append, plainLoop, bind_done hfirst, hrest, ← htrace, List.append_assoc]

/-- A sensor that does not answer. -/
theorem plainSensor_none {p : PollState} {sensorId : UInt8}
    (hread : sensorProtocolRead (env.hal p.reads) sensorId = none) :
    plainSensor env sensorId p = ⟨.done (), [(sensorId, none)], { p with reads := p.reads + 1 }⟩ := by
  simp [plainSensor, hread]

/-- The record of a reading, after all its fields have been written. -/
def Reading.stored (reading : Reading) (state : UInt8) (tickMs : UInt32) (rec : SensorRecord) :
    SensorRecord :=
  { rec with rawValue := reading.raw, scaledValue := reading.scaled, state, timestampMs := tickMs }

theorem sensorCacheStore_eq (sCache : SensorCache) {i : ℕ} (h : i < maxSensors) (rec : SensorRecord) :
    sensorCacheStore sCache ⟨i, h⟩ rec =
      { sCache with records := sCache.records.setIfInBounds i rec } := by
  have hset : sCache.records.set i rec h = sCache.records.setIfInBounds i rec :=
    Vector.ext fun j hj => by rw [Vector.getElem_set, Vector.getElem_setIfInBounds]
  rw [sensorCacheStore, hset]

/-- A sensor that answers. -/
theorem plainSensor_some {p : PollState} {reading : Reading} {state : UInt8} {rec : SensorRecord}
    (hcalibration : env.sCalibration = sCalibration)
    (hread : sensorProtocolRead (env.hal p.reads) reading.sensorId = some reading.raw)
    (hcal : applyCalibration reading.sensorId reading.raw = .ok reading.scaled)
    (hstate : checkThresholds reading.sensorId reading.scaled = .ok state)
    (hrec : p.sCache.records[reading.sensorId.toNat]? = some rec) :
    plainSensor env reading.sensorId p = ⟨.done (), [(reading.sensorId, some reading.raw)],
      { p with
        sCache :=
          { p.sCache with
            records := p.sCache.records.setIfInBounds reading.sensorId.toNat
              (reading.stored state (rtosGetTickMs env.cfg (env.ticks p.clocks)) rec) }
        reads := p.reads + 1
        clocks := p.clocks + 1 }⟩ := by
  have hlt : reading.sensorId.toNat < maxSensors := sensorProtocolRead_lt hread
  have hentry : sCalibration[reading.sensorId.toNat]? = some sCalibration[reading.sensorId.toNat] :=
    Vector.getElem?_eq_getElem hlt
  have hof : calibrationOf reading.sensorId = .ok sCalibration[reading.sensorId.toNat] := by
    rw [calibrationOf, hentry]
  have hscaled : sCalibration[reading.sensorId.toNat].applyCalibration reading.raw =
      .ok reading.scaled := by
    rw [applyCalibration, hof] at hcal
    exact hcal
  have hthresholds : sCalibration[reading.sensorId.toNat].checkThresholds reading.scaled = state := by
    rw [checkThresholds, hof] at hstate
    exact Except.ok.inj hstate
  obtain rfl : p.sCache.records[reading.sensorId.toNat] = rec :=
    Option.some.inj ((Vector.getElem?_eq_getElem hlt).symm.trans hrec)
  simp only [plainSensor, hread, dif_pos hlt, hcalibration, hscaled, hthresholds, sensorCacheStore_eq]
  rfl

/-! ## The poll of the sensor thread -/

/-- The record of a reading, with the fields that are written before this point of the block. -/
def Reading.written (reading : Reading) (state : UInt8) (tickMs : UInt32) (rec : SensorRecord) :
    StoreStep → SensorRecord
  | .take | .rawValue => rec
  | .scaledValue => { rec with rawValue := reading.raw }
  | .state => { rec with rawValue := reading.raw, scaledValue := reading.scaled }
  | .timestampMs => { rec with rawValue := reading.raw, scaledValue := reading.scaled, state }
  | .give => reading.stored state tickMs rec

/-- Where the sensor thread and the cache are, measured against a poll of the cache `c₀` that runs
alone: it has not started, it is between two sensors, it is storing a reading, or it is over. -/
inductive PollsAlong (env : PollEnv) (c₀ : SensorCache) (task : SensorTaskPhase) (c : SensorCache)
    (reads : List (UInt8 × Option Int16)) (times : List UInt32) (starts : ℕ) : Prop
  | before (htask : task = .idle) (hcache : c = c₀) (hreads : reads = []) (htimes : times = [])
      (hstarts : starts = 0)
  | between (done rest : List ℕ) (p : PollState) (htask : task = .poll (rest.map UInt8.ofNat))
      (hcache : c = p.sCache) (horder : List.range c₀.count.toNat = done ++ rest)
      (hloop : plainLoop env done (pollStart c₀) = ⟨.done (), reads, p⟩)
      (hreads : p.reads = reads.length) (htimes : p.clocks = times.length) (hstarts : starts ≠ 0)
  | storing (done rest : List ℕ) (id : ℕ) (p : PollState) (step : StoreStep) (reading : Reading)
      (state : UInt8) (tickMs : UInt32) (rec : SensorRecord)
      (before : List (UInt8 × Option Int16)) (earlier : List UInt32)
      (htask : task = .store step reading (rest.map UInt8.ofNat))
      (hcache : c = { p.sCache with
        records := p.sCache.records.setIfInBounds reading.sensorId.toNat
          (reading.written state tickMs rec step) })
      (horder : List.range c₀.count.toNat = done ++ id :: rest)
      (hid : UInt8.ofNat id = reading.sensorId)
      (hloop : plainLoop env done (pollStart c₀) = ⟨.done (), before, p⟩)
      (hreads : p.reads = before.length) (htimes : p.clocks = earlier.length)
      (hbefore : reads = before ++ [(reading.sensorId, some reading.raw)])
      (hearlier : times = earlier ++ if step = .give then [tickMs] else [])
      (hstate : checkThresholds reading.sensorId reading.scaled = .ok state)
      (hrec : p.sCache.records[reading.sensorId.toNat]? = some rec) (hstarts : starts ≠ 0)
  | after (p : PollState) (htask : task = .idle) (hcache : c = p.sCache)
      (hloop : plainLoop env (List.range c₀.count.toNat) (pollStart c₀) = ⟨.done (), reads, p⟩)
      (hstarts : starts ≠ 0)

variable {c₀ c : SensorCache} {reads : List (UInt8 × Option Int16)} {times : List UInt32} {starts : ℕ}

/-- Writing the element that is there already. -/
theorem setIfInBounds_self {α : Type*} {n i : ℕ} {xs : Vector α n} {x : α} (h : xs[i]? = some x) :
    xs.setIfInBounds i x = xs := by
  refine Vector.ext fun j hj => ?_
  rw [Vector.getElem_setIfInBounds]
  split
  · rename_i heq
    subst heq
    rw [Vector.getElem?_eq_getElem hj] at h
    exact (Option.some.inj h).symm
  · rfl

namespace PollsAlong

theorem start (h : PollsAlong env c₀ .idle c reads times 0) :
    PollsAlong env c₀ (.poll (pollOrder c.count)) c reads times 1 := by
  cases h with
  | before htask hcache hreads htimes hstarts =>
    subst hcache hreads htimes
    refine .between [] (List.range c.count.toNat) (pollStart c) ?_ rfl rfl rfl rfl rfl Nat.one_ne_zero
    rw [pollOrder_eq]
  | between done rest p htask => cases htask
  | storing done rest id p step reading state tickMs rec before earlier htask => cases htask
  | after p htask hcache hloop hstarts => exact absurd rfl hstarts

theorem finish (h : PollsAlong env c₀ (.poll []) c reads times starts) :
    PollsAlong env c₀ .idle c reads times starts := by
  cases h with
  | before htask | after p htask => cases htask
  | storing done rest id p step reading state tickMs rec before earlier htask => cases htask
  | between done rest p htask hcache horder hloop hreads htimes hstarts =>
    obtain rfl : rest = [] := by simpa using (SensorTaskPhase.poll.inj htask).symm
    rw [List.append_nil] at horder
    exact .after p rfl hcache (horder ▸ hloop) hstarts

theorem readFailed {sensorId : UInt8} {todo : List UInt8}
    (h : PollsAlong env c₀ (.poll (sensorId :: todo)) c reads times starts)
    (hread : sensorProtocolRead (env.hal reads.length) sensorId = none) :
    PollsAlong env c₀ (.poll todo) c (reads ++ [(sensorId, none)]) times starts := by
  cases h with
  | before htask | after p htask => cases htask
  | storing done rest id p step reading state tickMs rec before earlier htask => cases htask
  | between done rest p htask hcache horder hloop hreads htimes hstarts =>
    obtain ⟨id, rest, rfl, rfl, rfl⟩ := List.map_eq_cons_iff.1 (SensorTaskPhase.poll.inj htask).symm
    rw [← hreads] at hread
    refine .between (done ++ [id]) rest { p with reads := p.reads + 1 } rfl hcache ?_
      (plainLoop_snoc hloop (plainSensor_none hread)) ?_ htimes hstarts
    · rw [horder, List.append_assoc]
      rfl
    · simp [hreads]

theorem readOk {reading : Reading} {todo : List UInt8}
    (h : PollsAlong env c₀ (.poll (reading.sensorId :: todo)) c reads times starts)
    (hlt : reading.sensorId < sensorMgrInit.count) :
    PollsAlong env c₀ (.store .take reading todo) c
      (reads ++ [(reading.sensorId, some reading.raw)]) times starts := by
  cases h with
  | before htask | after p htask => cases htask
  | storing done rest id p step reading state tickMs rec before earlier htask => cases htask
  | between done rest p htask hcache horder hloop hreads htimes hstarts =>
    obtain ⟨id, rest, rfl, hid, rfl⟩ := List.map_eq_cons_iff.1 (SensorTaskPhase.poll.inj htask).symm
    obtain ⟨state, hstate⟩ : ∃ state, checkThresholds reading.sensorId reading.scaled = .ok state := by
      rcases checkThresholds_of_lt hlt reading.scaled with h | h
      · exact ⟨_, h⟩
      · exact ⟨_, h⟩
    obtain ⟨rec, hrec⟩ := exists_record p.sCache hlt
    refine .storing done rest id p .take reading state 0 rec reads times rfl ?_ horder hid hloop hreads
      htimes rfl (by simp) hstate hrec hstarts
    rw [hcache, Reading.written, setIfInBounds_self hrec]

theorem lock {reading : Reading} {todo : List UInt8}
    (h : PollsAlong env c₀ (.store .take reading todo) c reads times starts) :
    PollsAlong env c₀ (.store .rawValue reading todo) c reads times starts := by
  cases h with
  | before htask | after p htask | between done rest p htask => cases htask
  | storing done rest id p step r state tickMs rec before earlier htask hcache horder hid hloop hreads
      htimes hbefore hearlier hstate hrec hstarts =>
    obtain ⟨rfl, rfl, rfl⟩ := SensorTaskPhase.store.inj htask
    exact .storing done rest id p .rawValue reading state tickMs rec before earlier rfl hcache horder hid
      hloop hreads htimes hbefore hearlier hstate hrec hstarts

/-- An assignment to a field. -/
theorem write {step next : StoreStep} {reading : Reading} {todo : List UInt8} {cfg : TickConfig}
    {ticks : ℕ} {f : SensorRecord → SensorRecord} {evs : List (SensorEvent ι)} {rec' : SensorRecord}
    (h : PollsAlong env c₀ (.store step reading todo) c reads times starts)
    (hw : FieldWrite cfg ticks reading step f next evs)
    (hrec' : c.records[reading.sensorId.toNat]? = some rec') :
    PollsAlong env c₀ (.store next reading todo)
      { c with records := c.records.setIfInBounds reading.sensorId.toNat (f rec') } reads
      (times ++ timesStored evs) starts := by
  cases h with
  | before htask | after p htask | between done rest p htask => cases htask
  | storing done rest id p step' r state tickMs rec before earlier htask hcache horder hid hloop hreads
      htimes hbefore hearlier hstate hrec hstarts =>
    obtain ⟨rfl, rfl, rfl⟩ := SensorTaskPhase.store.inj htask
    subst hcache
    have hlt : reading.sensorId.toNat < maxSensors := (Vector.getElem?_eq_some_iff.1 hrec).1
    obtain rfl : reading.written state tickMs rec step = rec' := by simpa [hlt] using hrec'
    simp only [Vector.setIfInBounds_setIfInBounds]
    cases hw with
    | rawValue | scaledValue =>
      exact .storing done rest id p _ reading state tickMs rec before earlier rfl rfl horder hid
        hloop hreads htimes hbefore (by simpa [timesStored] using hearlier) hstate hrec hstarts
    | state state' hstate' =>
      obtain rfl : state = state' := Except.ok.inj (hstate.symm.trans hstate')
      exact .storing done rest id p _ reading state tickMs rec before earlier rfl rfl horder hid
        hloop hreads htimes hbefore (by simpa [timesStored] using hearlier) hstate hrec hstarts
    | timestampMs =>
      exact .storing done rest id p _ reading state (rtosGetTickMs cfg ticks) rec before earlier rfl rfl
        horder hid hloop hreads htimes hbefore (by simpa [timesStored] using hearlier) hstate hrec hstarts

theorem unlock {reading : Reading} {todo : List UInt8}
    (h : PollsAlong env c₀ (.store .give reading todo) c reads times starts)
    (hcalibration : env.sCalibration = sCalibration)
    (hread : ∀ n sensorId result, reads[n]? = some (sensorId, result) →
      sensorProtocolRead (env.hal n) sensorId = result)
    (htime : ∀ n tickMs, times[n]? = some tickMs → rtosGetTickMs env.cfg (env.ticks n) = tickMs)
    (hcal : applyCalibration reading.sensorId reading.raw = .ok reading.scaled) :
    PollsAlong env c₀ (.poll todo) c reads times starts := by
  cases h with
  | before htask | after p htask | between done rest p htask => cases htask
  | storing done rest id p step r state tickMs rec before earlier htask hcache horder hid hloop hreads
      htimes hbefore hearlier hstate hrec hstarts =>
    obtain ⟨rfl, rfl, rfl⟩ := SensorTaskPhase.store.inj htask
    rw [if_pos rfl] at hearlier
    have hthis := hread p.reads reading.sensorId (some reading.raw) (by simp [hbefore, hreads])
    have hnow := htime p.clocks tickMs (by simp [hearlier, htimes])
    have hlast := plainSensor_some hcalibration hthis hcal hstate hrec
    rw [← hid] at hlast
    refine .between (done ++ [id]) rest _ rfl ?_ ?_ (hbefore ▸ hid ▸ plainLoop_snoc hloop hlast) ?_ ?_
      hstarts
    · rw [hcache, hnow]
      rfl
    · rw [horder, List.append_assoc]
      rfl
    · simp [hbefore, hreads]
    · simp [hearlier, htimes]

end PollsAlong

variable {cfg : TickConfig} {s s' : SensorThreads ι} {tr evs : List (SensorEvent ι)}

/-- The sensor thread after the trace `tr`, measured against a poll of `c₀` that runs alone. -/
def PollsAlongTrace (env : PollEnv) (c₀ : SensorCache) (s : SensorThreads ι)
    (tr : List (SensorEvent ι)) : Prop :=
  PollsAlong env c₀ s.task s.sCache (readsDone tr) (timesStored tr) (tr.countP SensorEvent.startsPoll)

/-- A step of the other threads. -/
theorem PollsAlongTrace.others (h : PollsAlongTrace env c₀ s tr) (htask : s'.task = s.task)
    (hcache : s'.sCache = s.sCache) (hevs : ∀ e ∈ evs, e.isReader = true) :
    PollsAlongTrace env c₀ s' (tr ++ evs) := by
  have hstarts : (tr ++ evs).countP SensorEvent.startsPoll = tr.countP SensorEvent.startsPoll :=
    Trace.countP_quiet tr fun e he => by
      have := hevs e he
      cases e <;> simp_all [SensorEvent.isReader, SensorEvent.startsPoll]
  unfold PollsAlongTrace
  rw [htask, hcache, readsDone_append, timesStored_append, readsDone_quiet hevs, timesStored_quiet hevs,
    hstarts, List.append_nil, List.append_nil]
  exact h

variable [DecidableEq ι] {a : SensorAction ι}

theorem PollsAlongTrace.step (h : PollsAlongTrace env c₀ s tr) (hfits : s.task.Fits)
    (hobs : Observes env (tr ++ evs)) (hone : (tr ++ evs).countP SensorEvent.startsPoll ≤ 1)
    (hs : SensorStep cfg s a s' evs) : PollsAlongTrace env c₀ s' (tr ++ evs) := by
  have halong := h
  unfold PollsAlongTrace at halong
  cases hs with
  | pollStart hal ht =>
    have hnone : tr.countP SensorEvent.startsPoll = 0 := by
      have hthis : [(SensorEvent.pollStarted : SensorEvent ι)].countP SensorEvent.startsPoll = 1 := rfl
      rw [List.countP_append, hthis] at hone
      omega
    rw [ht, hnone] at halong
    simpa [PollsAlongTrace, readsDone, timesStored, SensorEvent.startsPoll, hnone] using halong.start
  | pollEnd hal ht =>
    rw [ht] at halong
    simpa [PollsAlongTrace, readsDone, timesStored, SensorEvent.startsPoll] using halong.finish
  | readFailed hal sensorId todo ht =>
    rw [ht] at halong
    have hread := hobs.reads (readsDone tr).length sensorId none (by simp [readsDone])
    simpa [PollsAlongTrace, readsDone, timesStored, SensorEvent.startsPoll] using halong.readFailed hread
  | readOk hal reading todo ht hcal =>
    rw [ht] at halong hfits
    have hlt := hfits reading.sensorId (by simp)
    simpa [PollsAlongTrace, readsDone, timesStored, SensorEvent.startsPoll] using halong.readOk hlt
  | lock hal reading todo ht hfree =>
    rw [ht] at halong
    simpa [PollsAlongTrace] using halong.lock
  | write hal step next reading todo f rec evs ht hw hrec =>
    rw [ht] at halong
    have hnew := halong.write hw hrec
    have hreads : readsDone evs = [] := by cases hw <;> rfl
    have hstarts : evs.countP SensorEvent.startsPoll = 0 := by cases hw <;> rfl
    unfold PollsAlongTrace
    rw [readsDone_append, timesStored_append, List.countP_append, hreads, hstarts, List.append_nil,
      Nat.add_zero]
    exact hnew
  | unlock hal reading todo ht =>
    rw [ht] at halong hfits
    rw [List.append_nil] at hobs ⊢
    exact halong.unlock hobs.calibration hobs.reads hobs.times hfits.2.1
  | readerReturn i e hr =>
    refine h.others rfl rfl ?_
    generalize s.reader i = old at hr
    cases hr <;> simp [SensorEvent.isReader]
  | _ => exact h.others rfl rfl (by simp [SensorEvent.isReader])

/-- Take any run that is between two polls, and go on with any run that starts one poll and finishes it,
while readers lock and copy the cache and the clock runs. `poll_all_sensors` alone, on the cache from
before, comes to its end when it is shown the values and the times that the threads saw; it makes the
same reads, and leaves the cache that the threads have left. -/
theorem sensorThreads_pollsAlone (ι : Type) [DecidableEq ι] (cfg : TickConfig) (ticks : ℕ)
    (acts acts' : List (SensorAction ι)) (s s' : SensorThreads ι) (tr tr' : List (SensorEvent ι))
    (hrun : (sensorThreads ι cfg).exec (sensorThreadsInit ι ticks) acts = some (s, tr))
    (hidle : s.task = .idle) (hrun' : (sensorThreads ι cfg).exec s acts' = some (s', tr'))
    (hidle' : s'.task = .idle) (hone : tr'.countP SensorEvent.startsPoll = 1) (env : PollEnv)
    (hobs : Observes env tr') (turns : ℕ) (hturns : 256 ≤ turns) :
    let o := pollAllSensors env turns (pollStart s.sCache)
    o.ret = .done () ∧ pollReads o.trace = readsDone tr' ∧ o.world.sCache = s'.sCache := by
  have hinv : CacheInv s' (tr ++ tr') ∧ (Observes env tr' → tr'.countP SensorEvent.startsPoll ≤ 1 →
      PollsAlongTrace env s.sCache s' tr') := by
    refine Machine.invariant (I := fun s₁ t => CacheInv s₁ (tr ++ t) ∧ (Observes env t →
      t.countP SensorEvent.startsPoll ≤ 1 → PollsAlongTrace env s.sCache s₁ t)) ?_ ?_ hrun'
    · refine ⟨?_, fun _ _ => .before hidle rfl rfl rfl rfl⟩
      rw [List.append_nil]
      exact (sensorInv_of_exec hrun).1
    · rintro s₁ t a s₂ evs ⟨hcache, halong⟩ hs
      have hstep := sensorThreads_step_cases hcache.task hcache.reader hs
      refine ⟨?_, fun hobs hone => ?_⟩
      · rw [← List.append_assoc]
        exact hcache.step hstep
      · have hone' : t.countP SensorEvent.startsPoll ≤ 1 := by
          rw [List.countP_append] at hone
          omega
        exact (halong hobs.of_append hone').step hcache.task hobs hone hstep
  have halong := hinv.2 hobs (Nat.le_of_eq hone)
  have halike := pollAllSensors_alike env (pollStart s.sCache) hturns
  rw [plainPoll_apply] at halike
  cases halong with
  | before htask hcache hreads htimes hstarts =>
    rw [hone] at hstarts
    cases hstarts
  | between done rest p htask =>
    rw [hidle'] at htask
    cases htask
  | storing done rest id p step reading state tickMs rec before earlier htask =>
    rw [hidle'] at htask
    cases htask
  | after p htask hcache hloop hstarts =>
    have hplain : plainLoop env (List.range (pollStart s.sCache).sCache.count.toNat)
        (pollStart s.sCache) = ⟨.done (), readsDone tr', p⟩ := hloop
    rw [hplain] at halike
    exact ⟨halike.ret, halike.trace.reads, hcache ▸ congrArg PollState.sCache halike.world⟩

/-- A poll in which a reader takes the mutex before the first reading is stored, and the clock runs. -/
def disturbedPoll : List (SensorAction ℕ) :=
  List.replicate 2 (.sensorMgrTask firstSensorHal) ++
    [.getCached 0 0 ⟨0, 0, 0, 0, 0, 0, Vector.replicate _ 0, 0⟩, .readerStep 0, .clock 5, .readerStep 0,
      .readerStep 0] ++
    List.replicate 8 (.sensorMgrTask firstSensorHal)

/-- The first sensor answers, at the fifth tick. -/
def disturbedEnv : PollEnv where
  sCalibration := sCalibration
  cfg := ⟨10, 100⟩
  hal := fun _ => firstSensorHal
  ticks := fun _ => 5

theorem sensorThreads_pollsAlone_disturbed :
    ∃ s tr, (sensorThreads ℕ ⟨10, 100⟩).exec (sensorThreadsInit ℕ 0) disturbedPoll = some (s, tr) ∧
      (pollAllSensors disturbedEnv 256 (pollStart sensorMgrInit)).world.sCache = s.sCache ∧
      pollReads (pollAllSensors disturbedEnv 256 (pollStart sensorMgrInit)).trace =
        [(0, some 400), (1, none)] := by
  have heval : ((sensorThreads ℕ ⟨10, 100⟩).exec (sensorThreadsInit ℕ 0) disturbedPoll).any
      (fun r : SensorThreads ℕ × List (SensorEvent ℕ) => decide (r.1.task = .idle ∧
        r.2.countP SensorEvent.startsPoll = 1 ∧ readsDone r.2 = [(0, some 400), (1, none)] ∧
        timesStored r.2 = [50])) = true := by
    decide +kernel
  obtain ⟨s, tr, hrun, hidle, hone, hreads, htimes⟩ := Machine.exists_of_any heval
  have hobs : Observes disturbedEnv tr := by
    refine ⟨rfl, fun n sensorId result hn => ?_, fun n tickMs hn => ?_⟩
    · rw [hreads] at hn
      match n, hn with
      | 0, hn =>
        obtain ⟨rfl, rfl⟩ := Prod.mk.inj (Option.some.inj hn)
        decide
      | 1, hn =>
        obtain ⟨rfl, rfl⟩ := Prod.mk.inj (Option.some.inj hn)
        decide
    · rw [htimes] at hn
      match n, hn with
      | 0, hn =>
        obtain rfl := Option.some.inj hn
        decide
  obtain ⟨-, hsame, hcache⟩ := sensorThreads_pollsAlone ℕ ⟨10, 100⟩ 0 [] disturbedPoll
    (sensorThreadsInit ℕ 0) s [] tr rfl rfl hrun hidle hone disturbedEnv hobs 256 (by decide)
  exact ⟨s, tr, hrun, hcache, hsame.trans hreads⟩

end NicObFw
