import NicObFw.PollAllSensors
import NicObFw.Proofs.SensorMgrProofs

/-!
# Proofs: the unrolled poll

Each copy of the block in `poll_all_sensors` does what a round of the plain loop does
(`pollSensor_alike`), and the two loops take the blocks in the order of the plain loop for every count
that eight bits can hold (`pollAllSensors_alike`). So the poll can only stop early where the plain loop
does: at a product that overflows (`pollAllSensors_pollsAll_iff`). With the table of the source this does
not happen (`pollAllSensors_init`).
-/

namespace NicObFw

open Traced Memory

variable {env : PollEnv} {s : PollState}

/-! ## Traces -/

theorem sameReads_append (tr : List PollEvent) (reads : List (UInt8 × Option Int16))
    (tr' : List PollEvent) (reads' : List (UInt8 × Option Int16)) (h : SameReads tr reads)
    (h' : SameReads tr' reads') : SameReads (tr ++ tr') (reads ++ reads') := by
  refine ⟨?_, ?_⟩
  · unfold pollReads
    rw [List.filterMap_append]
    exact congrArg₂ _ h.reads h'.reads
  · unfold pollAccesses
    rw [List.filterMap_append, allInBounds_append]
    exact ⟨h.inBounds, h'.inBounds⟩

/-! ## One sensor -/

/-- An index that a `uint8_t` can hold is not changed on its way into a call. -/
theorem toNat_ofNat_index {index : ℕ} (h : index < 256) : (UInt8.ofNat index).toNat = index :=
  UInt8.toNat_ofNat_of_lt' h

theorem sensorProtocolRead_lt {hal : SensorHal} {sensorId : UInt8} {raw : Int16}
    (h : sensorProtocolRead hal sensorId = some raw) : sensorId.toNat < maxSensors := by
  by_contra hge
  have hnone : sSensorMap[sensorId.toNat]? = none := Vector.getElem?_eq_none (Nat.le_of_not_lt hge)
  simp [sensorProtocolRead, hnone] at h

/-- Accesses to the element of a sensor. -/
theorem allInBounds_index {index : ℕ} (h : index < maxSensors) (arrays : List PollArray) :
    AllInBounds (fun _ => maxSensors) (arrays.map fun array => ⟨array, index, 1⟩) := by
  intro a ha
  obtain ⟨array, -, rfl⟩ := List.mem_map.1 ha
  exact h

theorem pollCalibration_apply {sensorId : UInt8} (h : sensorId.toNat < maxSensors) :
    pollCalibration env sensorId s =
      ⟨.done env.sCalibration[sensorId.toNat], [.access ⟨.sCalibration, sensorId.toNat, 1⟩], s⟩ := by
  unfold pollCalibration
  rw [Vector.getElem?_eq_getElem h]

theorem pollWrite_apply {index : ℕ} (h : index < maxSensors) (f : SensorRecord → SensorRecord) :
    pollWrite index f s = ⟨.done (), [.access ⟨.records, index, 1⟩],
      { s with sCache := sensorCacheStore s.sCache ⟨index, h⟩ (f s.sCache.records[index]) }⟩ :=
  dif_pos h

/-- A read that fails changes nothing. -/
theorem pollSensor_failed {index : ℕ}
    (hread : sensorProtocolRead (env.hal s.reads) (UInt8.ofNat index) = none) :
    Alike SameReads (pollSensor env index s) (plainSensor env (UInt8.ofNat index) s) := by
  by_cases hlarge : (UInt8.ofNat index).toNat ≥ maxSensors
  · simp only [pollSensor, plainSensor, Bind.bind, Traced.bind, pollRead, hread, if_pos hlarge, pure]
    exact ⟨rfl, ⟨rfl, allInBounds_nil _⟩, rfl⟩
  · simp only [pollSensor, plainSensor, Bind.bind, Traced.bind, pollRead, hread, if_neg hlarge, pure]
    exact ⟨rfl, ⟨rfl, allInBounds_index (Nat.lt_of_not_le hlarge) [.sSensorMap]⟩, rfl⟩

/-- A block of the poll does what a round of the plain loop does. -/
theorem pollSensor_alike (env : PollEnv) (s : PollState) {index : ℕ} (hindex : index < 256) :
    Alike SameReads (pollSensor env index s) (plainSensor env (UInt8.ofNat index) s) := by
  cases hread : sensorProtocolRead (env.hal s.reads) (UInt8.ofNat index) with
  | none => exact pollSensor_failed hread
  | some raw =>
    have hid : (UInt8.ofNat index).toNat = index := toNat_ofNat_index hindex
    have hlt : index < maxSensors := hid ▸ sensorProtocolRead_lt hread
    have hsmall : ¬ index ≥ maxSensors := Nat.not_le.2 hlt
    have hcal : ∀ s', pollCalibration env (UInt8.ofNat index) s' =
        ⟨.done env.sCalibration[index], [.access ⟨.sCalibration, index, 1⟩], s'⟩ := by
      intro s'
      rw [pollCalibration_apply (by rw [hid]; exact hlt)]
      simp only [hid]
    cases hscaled : env.sCalibration[index].applyCalibration raw with
    | error fault =>
      simp only [pollSensor, plainSensor, Bind.bind, Traced.bind, pollRead, hread, hid, hsmall, hlt,
        pollApplyCalibration, hcal, hscaled, fail, if_false, dif_pos, List.nil_append, List.cons_append]
      exact ⟨rfl, ⟨rfl, allInBounds_index hlt [.sSensorMap, .sCalibration]⟩, rfl⟩
    | ok scaled =>
      simp only [pollSensor, plainSensor, Bind.bind, Traced.bind, pollRead, hread, hid, hsmall, hlt,
        pollApplyCalibration, hcal, hscaled, emit, pollWrite_apply hlt, pollCheckThresholds, pollTickMs,
        act, pure, if_false, dif_pos, List.nil_append, List.cons_append, sensorCacheStore,
        Vector.getElem_set_self, Vector.set_set]
      exact ⟨rfl, ⟨rfl, allInBounds_index hlt [.sSensorMap, .sCalibration, .records, .records,
        .sCalibration, .records, .records]⟩, rfl⟩

/-! ## The loops -/

theorem alike_pure : Alike SameReads ((pure () : Traced PollState PollEvent SensorFault Unit) s)
    ((pure () : Traced PollState (UInt8 × Option Int16) SensorFault Unit) s) :=
  ⟨rfl, ⟨rfl, allInBounds_nil _⟩, rfl⟩

/-- A block, and what comes after it. -/
theorem pollSensor_then {index : ℕ} {ids : List ℕ}
    {rest : Traced PollState PollEvent SensorFault Unit} (hindex : index < 256)
    (hrest : ∀ s, Alike SameReads (rest s) (plainLoop env ids s)) (s : PollState) :
    Alike SameReads ((pollSensor env index >>= fun _ => rest) s) (plainLoop env (index :: ids) s) :=
  Alike.bind sameReads_append (pollSensor_alike env s hindex) fun _ => hrest

theorem toNat_add_of_le {i : UInt8} (bound : UInt8) (d : ℕ) (hle : i.toNat + d ≤ bound.toNat) :
    (i + UInt8.ofNat d).toNat = i.toNat + d := by
  have hlt := bound.toNat_lt
  rw [UInt8.toNat_add, toNat_ofNat_index (by omega)]
  exact Nat.mod_eq_of_lt (by omega)

/-- The second loop reads the sensors from `i` on. -/
theorem pollRemaining_alike (count : UInt8) {k turns : ℕ} {i : UInt8}
    (hi : i.toNat + k = count.toNat) (hturns : k < turns) (s : PollState) :
    Alike SameReads (pollRemaining env count turns i s)
      (plainLoop env (List.range' i.toNat k) s) := by
  induction k generalizing turns i s with
  | zero =>
    obtain ⟨t, rfl⟩ := Nat.exists_eq_add_of_lt hturns
    have hend : ¬ i < count := by
      rw [UInt8.lt_iff_toNat_lt]
      omega
    rw [Nat.zero_add, pollRemaining, if_neg hend]
    exact alike_pure
  | succ k ih =>
    obtain ⟨t, rfl⟩ := Nat.exists_eq_add_of_lt hturns
    have hlt : i < count := by
      rw [UInt8.lt_iff_toNat_lt]
      omega
    have hnext : (i + 1).toNat = i.toNat + 1 := toNat_add_of_le count 1 (by omega)
    rw [pollRemaining, if_pos hlt, List.range'_succ]
    refine pollSensor_then i.toNat_lt (fun s => ?_) s
    rw [← hnext]
    exact ih (by omega) (by omega) s

/-- Both loops together do so, if the first one ends at `unrolled`. -/
theorem pollUnrolled_alike (env : PollEnv) {count unrolled : UInt8} (hle : unrolled.toNat ≤ count.toNat)
    {k turns turns' : ℕ} {i : UInt8} (hi : i.toNat + 4 * k = unrolled.toNat) (hturns : k < turns)
    (hturns' : count.toNat - unrolled.toNat < turns') (s : PollState) :
    Alike SameReads
      ((pollUnrolled env unrolled turns i >>= fun i => pollRemaining env count turns' i) s)
      (plainLoop env (List.range' i.toNat (count.toNat - i.toNat)) s) := by
  induction k generalizing turns i s with
  | zero =>
    obtain ⟨t, rfl⟩ := Nat.exists_eq_add_of_lt hturns
    have hend : ¬ i < unrolled := by
      rw [UInt8.lt_iff_toNat_lt]
      omega
    rw [Nat.zero_add, pollUnrolled, if_neg hend, pure_bind]
    exact pollRemaining_alike count (by omega) (by omega) s
  | succ k ih =>
    obtain ⟨t, rfl⟩ := Nat.exists_eq_add_of_lt hturns
    have hcount := count.toNat_lt
    have hlt : i < unrolled := by
      rw [UInt8.lt_iff_toNat_lt]
      omega
    have hnext : (i + 4).toNat = i.toNat + 4 := toNat_add_of_le unrolled 4 (by omega)
    have hids : List.range' i.toNat (count.toNat - i.toNat) = i.toNat :: (i.toNat + 1) ::
        (i.toNat + 2) :: (i.toNat + 3) ::
          List.range' (i + 4).toNat (count.toNat - (i + 4).toNat) := by
      rw [hnext]
      obtain ⟨r, hr⟩ : ∃ r, count.toNat - i.toNat = r + 4 := ⟨count.toNat - i.toNat - 4, by omega⟩
      rw [hr, show count.toNat - (i.toNat + 4) = r by omega]
      rfl
    rw [pollUnrolled, if_pos hlt, hids]
    simp only [bind_assoc]
    refine pollSensor_then (by omega) (pollSensor_then (by omega) (pollSensor_then (by omega)
      (pollSensor_then (by omega) fun s => ?_))) s
    exact ih (by omega) (by omega) s

/-- The mask rounds down to a multiple of four. -/
theorem toNat_promoted_unrolled (count : UInt8) :
    (count.toUInt32 &&& ~~~(3 : UInt32)).toUInt8.toNat = 4 * (count.toNat / 4) := by
  have hcut : (count.toUInt32 &&& ~~~(3 : UInt32)).toUInt8 = count &&& ~~~3 := by
    rw [UInt32.toUInt8_and, UInt32.toUInt8_not, UInt8.toUInt8_toUInt32]
    rfl
  rw [hcut, toNat_unrolled]

/-- The unrolled poll is the plain one. No loop takes more than 256 turns. -/
theorem pollAllSensors_alike (env : PollEnv) (s : PollState) {turns : ℕ} (hturns : 256 ≤ turns) :
    Alike SameReads (pollAllSensors env turns s) (plainPoll env s) := by
  unfold pollAllSensors plainPoll
  refine Alike.bind sameReads_append ⟨rfl, ⟨rfl, allInBounds_nil _⟩, rfl⟩ fun count s => ?_
  have hcount := count.toNat_lt
  have hunrolled := toNat_promoted_unrolled count
  have hfirst : (0 : UInt8).toNat + 4 * (count.toNat / 4) =
      (count.toUInt32 &&& ~~~(3 : UInt32)).toUInt8.toNat := by
    rw [hunrolled]
    exact Nat.zero_add _
  have hblocks : count.toNat / 4 < turns := by omega
  have hrest : count.toNat - (count.toUInt32 &&& ~~~(3 : UInt32)).toUInt8.toNat < turns := by omega
  have halike := pollUnrolled_alike env (by omega) hfirst hblocks hrest s
  rwa [UInt8.toNat_zero, Nat.sub_zero, ← List.range_eq_range'] at halike

/-! ## The plain loop -/

/-- If the sensor `id` is read, its value can be scaled. -/
def Scales (env : PollEnv) (id : ℕ) : Prop :=
  ∀ raw ∈ sensorProtocolRead (env.hal id) (UInt8.ofNat id),
    ∃ cal ∈ env.sCalibration[id]?, ∃ scaled, cal.applyCalibration raw = .ok scaled

/-- A round of the plain loop comes to an end if the value of its sensor can be scaled. -/
theorem plainSensor_done_iff {id : ℕ} (hid : id < 256) (hreads : s.reads = id) :
    (plainSensor env (UInt8.ofNat id) s).ret = .done () ↔ Scales env id := by
  have hnat : (UInt8.ofNat id).toNat = id := toNat_ofNat_index hid
  subst hreads
  unfold Scales
  cases hread : sensorProtocolRead (env.hal s.reads) (UInt8.ofNat s.reads) with
  | none => simp [plainSensor, hread]
  | some raw =>
    have hlt : s.reads < maxSensors := hnat ▸ sensorProtocolRead_lt hread
    cases hscaled : env.sCalibration[s.reads].applyCalibration raw with
    | error fault => simp [plainSensor, hread, hnat, hlt, hscaled]
    | ok scaled => simp [plainSensor, hread, hnat, hlt, hscaled]

/-- In any case it reads this sensor, and no other. -/
theorem plainSensor_reads (env : PollEnv) (s : PollState) (sensorId : UInt8) :
    (plainSensor env sensorId s).trace.map Prod.fst = [sensorId] ∧
      (plainSensor env sensorId s).world.reads = s.reads + 1 := by
  unfold plainSensor
  dsimp only
  split
  · exact ⟨rfl, rfl⟩
  · split
    · split <;> exact ⟨rfl, rfl⟩
    · exact ⟨rfl, rfl⟩

theorem plainSensor_ends (env : PollEnv) (s : PollState) (sensorId : UInt8) :
    (plainSensor env sensorId s).ret ≠ .running := by
  unfold plainSensor
  dsimp only
  split
  · exact nofun
  · split
    · split <;> exact nofun
    · exact nofun

theorem plainLoop_done_iff (env : PollEnv) (s : PollState) {k : ℕ} (hk : s.reads + k ≤ 256) :
    (plainLoop env (List.range' s.reads k) s).ret = .done () ↔
      ∀ id, s.reads ≤ id → id < s.reads + k → Scales env id := by
  induction k generalizing s with
  | zero =>
    refine iff_of_true rfl fun id hlo hhi => ?_
    omega
  | succ k ih =>
    have hworld := (plainSensor_reads env s (UInt8.ofNat s.reads)).2
    have hrest := ih (plainSensor env (UInt8.ofNat s.reads) s).world (by rw [hworld]; omega)
    rw [hworld] at hrest
    rw [List.range'_succ, plainLoop, ret_bind_eq_done]
    constructor
    · rintro ⟨⟨⟩, hfirst, hlater⟩ id hlo hhi
      rcases Nat.eq_or_lt_of_le hlo with rfl | hgt
      · exact (plainSensor_done_iff (by omega) rfl).1 hfirst
      · exact hrest.1 hlater id hgt (by omega)
    · intro h
      refine ⟨(), (plainSensor_done_iff (by omega) rfl).2 (h s.reads (Nat.le_refl _) (by omega)), ?_⟩
      exact hrest.2 fun id hlo hhi => h id (by omega) (by omega)

/-- A plain loop is not left running. -/
theorem plainLoop_ends (env : PollEnv) (ids : List ℕ) (s : PollState) :
    (plainLoop env ids s).ret ≠ .running := by
  induction ids generalizing s with
  | nil => exact nofun
  | cons id ids ih =>
    rw [plainLoop]
    cases hfirst : (plainSensor env (UInt8.ofNat id) s).ret with
    | done u =>
      rw [bind_done hfirst]
      exact ih _
    | error fault =>
      rw [bind_error hfirst]
      exact nofun
    | running =>
      exact absurd hfirst (plainSensor_ends env s _)

/-- A plain loop that comes to its end has read all its sensors. -/
theorem plainLoop_reads {ids : List ℕ} {s : PollState} (hdone : (plainLoop env ids s).ret = .done ()) :
    (plainLoop env ids s).trace.map Prod.fst = ids.map UInt8.ofNat := by
  induction ids generalizing s with
  | nil => rfl
  | cons id ids ih =>
    rw [plainLoop] at hdone
    obtain ⟨⟨⟩, hfirst, hlater⟩ := ret_bind_eq_done.1 hdone
    rw [plainLoop, bind_done hfirst, List.map_append, (plainSensor_reads env s _).1, ih hlater]
    rfl

/-! ## The poll -/

theorem plainPoll_apply (env : PollEnv) (s : PollState) :
    plainPoll env s = plainLoop env (List.range s.sCache.count.toNat) s := by
  unfold plainPoll
  rw [bind_done (by rfl)]
  rfl

/-- The poll terminates, with undefined behaviour or without. -/
theorem pollAllSensors_ends (env : PollEnv) (s : PollState) {turns : ℕ} (hturns : 256 ≤ turns) :
    (pollAllSensors env turns s).ret ≠ .running := by
  rw [(pollAllSensors_alike env s hturns).ret, plainPoll_apply]
  exact plainLoop_ends env _ s

theorem productsFit_iff {sCache : SensorCache} (hden : Divides env sCache) :
    ProductsFit env sCache ↔ ∀ id, id < sCache.count.toNat → Scales env id := by
  refine forall₂_congr fun id hid => forall₂_congr fun raw hraw => ?_
  have hlt := sCache.count.toNat_lt
  have hsmall : id < maxSensors := by
    have hnat : (UInt8.ofNat id).toNat = id := toNat_ofNat_index (Nat.lt_trans hid hlt)
    exact hnat ▸ sensorProtocolRead_lt hraw
  have hentry : env.sCalibration[id]? = some env.sCalibration[id] := Vector.getElem?_eq_getElem hsmall
  have hnonzero := hden id (Nat.lt_min.2 ⟨hid, hsmall⟩) _ hentry
  rw [hentry]
  simp only [Option.mem_some_iff, forall_eq', exists_eq_left', SensorCal.applyCalibration_ok_iff hnonzero]

/-- The calibration that the source uses: the factor is one, so the product fits. -/
theorem divides_productsFit (env : PollEnv) (sCache : SensorCache)
    (hcal : ∀ id, id < sCache.count.toNat → env.sCalibration[id]? = some ⟨0, 1, 16, 85, -40⟩) :
    Divides env sCache ∧ ProductsFit env sCache := by
  constructor
  · intro id hid cal hentry
    rw [hcal id (Nat.lt_of_lt_of_le hid (Nat.min_le_left _ _))] at hentry
    obtain rfl := Option.some.inj hentry
    decide
  · intro id hid raw _ cal hentry
    rw [hcal id hid] at hentry
    obtain rfl := Option.some.inj hentry
    exact SensorCal.fitsInt_unscaled raw

theorem pollsAll_iff {sCache : SensorCache} {turns : ℕ} (hturns : 256 ≤ turns)
    (hden : Divides env sCache) :
    PollsAll env sCache (pollAllSensors env turns (pollStart sCache)) ↔ ProductsFit env sCache := by
  have halike := pollAllSensors_alike env (pollStart sCache) hturns
  have hplain : (plainPoll env (pollStart sCache)).ret = .done () ↔ ProductsFit env sCache := by
    have hcount : 0 + sCache.count.toNat ≤ 256 := by
      have := sCache.count.toNat_lt
      omega
    have hiff := plainLoop_done_iff env (pollStart sCache) hcount
    rw [productsFit_iff hden, plainPoll_apply, List.range_eq_range']
    refine hiff.trans (forall_congr' fun id => ?_)
    rw [show (pollStart sCache).reads = 0 from rfl, Nat.zero_add]
    exact ⟨fun h => h (Nat.zero_le id), fun h _ => h⟩
  rw [← hplain]
  constructor
  · intro h
    rw [← halike.ret]
    exact h.done
  · intro h
    refine ⟨halike.ret.trans h, ?_, by rw [halike.world], halike.trace.inBounds⟩
    rw [halike.trace.reads]
    rw [plainPoll_apply] at h ⊢
    exact plainLoop_reads h

/-- `poll_all_sensors` does what the plain loop does, whatever this is. It polls all sensors if and only
if no product overflows. -/
theorem pollAllSensors_pollsAll_iff (env : PollEnv) (sCache : SensorCache) (turns : ℕ)
    (hturns : 256 ≤ turns) (hden : Divides env sCache) :
    (PollsAll env sCache (pollAllSensors env turns (pollStart sCache)) ↔ ProductsFit env sCache) ∧
      Alike SameReads (pollAllSensors env turns (pollStart sCache))
        (plainPoll env (pollStart sCache)) :=
  ⟨pollsAll_iff hturns hden, pollAllSensors_alike env (pollStart sCache) hturns⟩

/-- Six sensors, every other one failing. -/
def alternatingEnv : PollEnv where
  sCalibration := Vector.replicate _ ⟨0, 1, 16, 85, -40⟩
  cfg := ⟨10, 100⟩
  hal n _ _ := if n % 2 = 0 then some (0x01, 0x90) else none
  ticks n := n

theorem pollAllSensors_pollsAll_six :
    PollsAll alternatingEnv { sensorMgrInit with count := 6 }
      (pollAllSensors alternatingEnv 256 (pollStart { sensorMgrInit with count := 6 })) := by
  obtain ⟨hden, hfit⟩ := divides_productsFit alternatingEnv { sensorMgrInit with count := 6 }
    (by decide)
  exact (pollAllSensors_pollsAll_iff alternatingEnv _ 256 (by decide) hden).1.2 hfit

/-- One sensor, whose calibration makes the largest product of its largest value. -/
def overflowEnv : PollEnv where
  sCalibration := Vector.replicate _ ⟨32767, 65535, 1, 85, -40⟩
  cfg := ⟨10, 100⟩
  hal _ _ _ := some (0x7F, 0xFF)
  ticks n := n

/-- The poll runs into undefined behaviour at its first sensor. -/
theorem poll_overflows :
    Divides overflowEnv { sensorMgrInit with count := 1 } ∧
      (pollAllSensors overflowEnv 256 (pollStart { sensorMgrInit with count := 1 })).ret =
        .error .overflow ∧
      ¬ PollsAll overflowEnv { sensorMgrInit with count := 1 }
        (pollAllSensors overflowEnv 256 (pollStart { sensorMgrInit with count := 1 })) := by
  have hret : (pollAllSensors overflowEnv 256 (pollStart { sensorMgrInit with count := 1 })).ret =
      .error .overflow := by
    rw [(pollAllSensors_alike overflowEnv _ (Nat.le_refl 256)).ret]
    decide
  refine ⟨by decide +kernel, hret, fun h => ?_⟩
  have hdone := h.done
  rw [hret] at hdone
  exact absurd hdone (by simp)

/-! ## The program's own table -/

/-- The sensors are read in the order that `sensorThreads` takes them in. -/
theorem PollsAll.order {sCache : SensorCache} {o : Outcome PollState PollEvent SensorFault Unit}
    (h : PollsAll env sCache o) : (pollReads o.trace).map Prod.fst = pollOrder sCache.count := by
  rw [pollOrder_eq]
  exact h.reads

/-- On the table of the source the call is `applyCalibration`. -/
theorem pollApplyCalibration_own (henv : env.sCalibration = sCalibration) (sensorId : UInt8)
    (raw : Int16) : (pollApplyCalibration env sensorId raw s).ret =
      match applyCalibration sensorId raw with
      | .ok scaled => .done scaled
      | .error fault => .error fault := by
  unfold pollApplyCalibration applyCalibration calibrationOf
  cases hentry : sCalibration[sensorId.toNat]? with
  | none =>
    have hcal : (pollCalibration env sensorId s).ret = .error .index := by
      simp only [pollCalibration, henv, hentry]
    rw [bind_error hcal]
    rfl
  | some cal =>
    have hcal : (pollCalibration env sensorId s).ret = .done cal := by
      simp only [pollCalibration, henv, hentry]
    rw [bind_done hcal]
    show _ = match cal.applyCalibration raw with
      | .ok scaled => Ret.done scaled
      | .error fault => Ret.error fault
    cases cal.applyCalibration raw <;> rfl

/-- After `sensor_mgr_init` a poll always comes to its end, whatever the sensors answer. -/
theorem pollAllSensors_init (hal : ℕ → SensorHal) (ticks : ℕ → ℕ) (cfg : TickConfig) (turns : ℕ)
    (hturns : 256 ≤ turns) :
    PollsAll ⟨sCalibration, cfg, hal, ticks⟩ sensorMgrInit
      (pollAllSensors ⟨sCalibration, cfg, hal, ticks⟩ turns (pollStart sensorMgrInit)) := by
  have hcal : ∀ id, id < sensorMgrInit.count.toNat →
      sCalibration[id]? = some ⟨0, 1, 16, 85, -40⟩ := by decide
  obtain ⟨hden, hfit⟩ := divides_productsFit ⟨sCalibration, cfg, hal, ticks⟩ sensorMgrInit hcal
  exact (pollsAll_iff hturns hden).2 hfit

end NicObFw
