import NicObFw.Proofs.SensorCacheProofs

/-!
# Proofs: what the cache says about a dead sensor

A failed read writes nothing, so the record of a sensor stays what the last successful read made of it,
or all zero, which is `SENSOR_STATE_OK`; no record ever says that a sensor failed or is unavailable. After
a completed poll the cache is right about exactly the sensors that it read
(`sensorMgr_okMeansRead_iff`).
-/

namespace NicObFw

variable {ι : Type} {s : SensorThreads ι} {tr : List (SensorEvent ι)} {sensorId : UInt8}

theorem ReadsInv.lastStored_eq (h : ReadsInv s tr) (hidle : s.task = .idle) (sensorId : UInt8) :
    (lastStored tr sensorId).map Prod.fst = (successfulReads tr sensorId).getLast? := by
  rw [h.stored, hidle, unstored_idle, List.append_nil, List.getLast?_map, lastStored]

theorem ReadsInv.reads_of_poll (h : ReadsInv s tr) (hidle : s.task = .idle) (sensorId : UInt8)
    {poll : List (UInt8 × Option Int16)} (hpoll : poll ∈ (completedPolls tr).getLast?) :
    ∃ earlier, successfulReads tr sensorId = earlier ++ goodReads sensorId poll := by
  obtain ⟨polls, hpolls⟩ := List.getLast?_eq_some_iff.1 hpoll
  refine ⟨goodReads sensorId polls.flatten, ?_⟩
  rw [successfulReads_eq, h.between hidle, hpolls]
  simp [goodReads]

/-- A poll that read the sensor: its last read is the one that the record shows. -/
theorem shows_poll {last : Option (Int16 × UInt32)} {rec : SensorRecord} {earlier : List Int16}
    {poll : List (UInt8 × Option Int16)} (hcur : Current sensorId last rec)
    (hlast : last.map Prod.fst = (earlier ++ goodReads sensorId poll).getLast?)
    (hread : ∃ raw, (sensorId, some raw) ∈ poll) :
    ∃ raw, (sensorId, some raw) ∈ poll ∧ rec.rawValue = raw ∧
      applyCalibration sensorId raw = .ok rec.scaledValue := by
  obtain ⟨raw, hmem⟩ := hread
  have hne : goodReads sensorId poll ≠ [] := List.ne_nil_of_mem (mem_goodReads.2 hmem)
  rw [List.getLast?_append_of_ne_nil _ hne, List.getLast?_eq_getLast_of_ne_nil hne,
    Option.map_eq_some_iff] at hlast
  obtain ⟨⟨raw', tickMs⟩, rfl, hraw'⟩ := hlast
  obtain ⟨hraw, hcal, -, -⟩ := hcur
  refine ⟨raw', mem_goodReads.1 ?_, hraw, hcal⟩
  rw [show raw' = _ from hraw']
  exact List.getLast_mem hne

/-- The states that the code gives to a sensor. -/
theorem state_of_current {last : Option (Int16 × UInt32)} {rec : SensorRecord}
    (hlt : sensorId < sensorMgrInit.count) (hcur : Current sensorId last rec) :
    rec.state = sensorStateOk ∨ rec.state = sensorStateCritical := by
  cases last with
  | none =>
    obtain rfl := hcur
    exact Or.inl rfl
  | some last =>
    obtain ⟨-, -, hstate, -⟩ := hcur
    rcases checkThresholds_of_lt hlt rec.scaledValue with hcritical | hok
    · exact Or.inr (Except.ok.inj (hstate.symm.trans hcritical))
    · exact Or.inl (Except.ok.inj (hstate.symm.trans hok))

theorem not_failed_or_unavailable {state : UInt8}
    (h : state = sensorStateOk ∨ state = sensorStateCritical) :
    ¬ (state = sensorStateFailed ∨ state = sensorStateUnavailable) := by
  rcases h with rfl | rfl <;> decide

/-- Between two polls, for every sensor below the count: that a record which says `SENSOR_STATE_OK` comes
from the last poll, and one that does not come from it says that the sensor failed or is unavailable,
holds if and only if this poll read the sensor. -/
theorem sensorMgr_okMeansRead_iff (ι : Type) [DecidableEq ι] (cfg : TickConfig) (ticks : ℕ)
    (acts : List (SensorAction ι)) (s : SensorThreads ι) (tr : List (SensorEvent ι))
    (hrun : (sensorThreads ι cfg).exec (sensorThreadsInit ι ticks) acts = some (s, tr))
    (hidle : s.task = .idle) (sensorId : UInt8) (hlt : sensorId < s.sCache.count) :
    OkMeansRead s tr sensorId ↔ ReadByLastPoll tr sensorId := by
  obtain ⟨hcache, hreads⟩ := sensorInv_of_exec hrun
  rw [hcache.count] at hlt
  obtain ⟨rec, hrec⟩ := exists_record s.sCache hlt
  have hget := (hcache.getCached_eq hlt).trans hrec
  have hcur : Current sensorId (lastStored tr sensorId) rec := by
    have hshows := hcache.records sensorId rec hrec
    rwa [hidle] at hshows
  have hlast := hreads.lastStored_eq hidle sensorId
  refine forall₂_congr fun poll hpoll => ?_
  obtain ⟨earlier, hearlier⟩ := hreads.reads_of_poll hidle sensorId hpoll
  simp only [hget, Option.mem_some_iff, forall_eq']
  by_cases hread : ∃ raw, (sensorId, some raw) ∈ poll
  · have hshow := shows_poll hcur (hlast.trans (congrArg _ hearlier)) hread
    exact iff_of_true ⟨fun _ => hshow, fun hno => absurd hread hno⟩ hread
  · refine iff_of_false (fun ⟨_, hfailed⟩ => ?_) hread
    exact not_failed_or_unavailable (state_of_current hlt hcur) (hfailed hread)

/-- A poll that reads the first sensor. -/
def firstSensorRun : List (SensorAction ℕ) := List.replicate 10 (.sensorMgrTask firstSensorHal)

theorem sensorMgr_okMeansRead_firstSensor :
    ∃ s tr, (sensorThreads ℕ ⟨10, 100⟩).exec (sensorThreadsInit ℕ 0) firstSensorRun = some (s, tr) ∧
      s.task = .idle ∧ completedPolls tr = [[(0, some 400), (1, none)]] ∧ OkMeansRead s tr 0 := by
  have heval : ((sensorThreads ℕ ⟨10, 100⟩).exec (sensorThreadsInit ℕ 0) firstSensorRun).any (fun r =>
      r.1.task = .idle ∧ 0 < r.1.sCache.count ∧
        completedPolls r.2 = [[(0, some 400), (1, none)]]) = true := by
    decide +kernel
  obtain ⟨s, tr, hrun, hidle, hlt, hpolls⟩ := Machine.exists_of_any heval
  refine ⟨s, tr, hrun, hidle, hpolls, ?_⟩
  refine (sensorMgr_okMeansRead_iff ℕ ⟨10, 100⟩ 0 _ s tr hrun hidle 0 hlt).2 fun poll hpoll => ?_
  rw [hpolls] at hpoll
  obtain rfl : [(0, some 400), (1, none)] = poll := Option.some.inj hpoll
  exact ⟨400, by decide⟩

/-- Then a poll in which no sensor answers. -/
def deadSensorRun : List (SensorAction ℕ) :=
  firstSensorRun ++ List.replicate 4 (.sensorMgrTask fun _ _ => none)

/-- Both sensors are dead in the last poll, and both are reported healthy: one with the value of the poll
before, the other although it was never read. -/
theorem dead_sensors_ok :
    ∃ s tr, (sensorThreads ℕ ⟨10, 100⟩).exec (sensorThreadsInit ℕ 0) deadSensorRun = some (s, tr) ∧
      s.task = .idle ∧ 1 < s.sCache.count ∧
      completedPolls tr = [[(0, some 400), (1, none)], [(0, none), (1, none)]] ∧
      (sensorMgrGetCached s.sCache 0).map (fun rec => (rec.state, rec.scaledValue)) =
        some (sensorStateOk, 25) ∧
      (sensorMgrGetCached s.sCache 1).map (fun rec => (rec.state, rec.scaledValue)) =
        some (sensorStateOk, 0) ∧
      ¬ OkMeansRead s tr 0 ∧ ¬ OkMeansRead s tr 1 := by
  have heval : ((sensorThreads ℕ ⟨10, 100⟩).exec (sensorThreadsInit ℕ 0) deadSensorRun).any (fun r =>
      r.1.task = .idle ∧ 1 < r.1.sCache.count ∧
        completedPolls r.2 = [[(0, some 400), (1, none)], [(0, none), (1, none)]] ∧
        (sensorMgrGetCached r.1.sCache 0).map (fun rec => (rec.state, rec.scaledValue)) =
          some (sensorStateOk, 25) ∧
        (sensorMgrGetCached r.1.sCache 1).map (fun rec => (rec.state, rec.scaledValue)) =
          some (sensorStateOk, 0)) = true := by
    decide +kernel
  obtain ⟨s, tr, hrun, hidle, hlt, hpolls, hfirst, hsecond⟩ := Machine.exists_of_any heval
  have hdead : ∀ sensorId scaled, (sensorMgrGetCached s.sCache sensorId).map
      (fun rec => (rec.state, rec.scaledValue)) = some (sensorStateOk, scaled) →
      ¬ OkMeansRead s tr sensorId := by
    intro sensorId scaled hget h
    obtain ⟨rec, hrec, hshown⟩ := Option.map_eq_some_iff.1 hget
    obtain ⟨raw, hmem, -⟩ := (h _ (by rw [hpolls]; rfl) rec hrec).1 (congrArg Prod.fst hshown)
    simp at hmem
  exact ⟨s, tr, hrun, hidle, hlt, hpolls, hfirst, hsecond, hdead 0 25 hfirst, hdead 1 0 hsecond⟩

end NicObFw
