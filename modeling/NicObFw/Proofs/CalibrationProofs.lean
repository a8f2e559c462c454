import NicObFw.Lib.Narrowing
import NicObFw.SensorMgr

/-!
# Proofs: calibration and the thresholds

`apply_calibration` computes the quotient in an `int` and returns its low 16 bits. The verdict of
`check_thresholds` on them is that on the quotient unless the product overflows, or the quotient lies
between the limits when it is moved by a multiple of 65536 other than zero.
-/

namespace NicObFw

open Narrowing

namespace SensorCal

/-! ## The arithmetic of `int` -/

theorem toInt_adjusted (cal : SensorCal) (raw : Int16) :
    (raw.toInt32 + cal.offset.toInt32).toInt = raw.toInt + cal.offset.toInt := by
  have hraw := raw.toInt_lt
  have hraw' := raw.le_toInt
  have hoff := cal.offset.toInt_lt
  have hoff' := cal.offset.le_toInt
  rw [Int32.toInt_add, Int16.toInt_toInt32, Int16.toInt_toInt32]
  exact Int.bmod_eq_of_le (by omega) (by omega)

/-- A `uint16_t` keeps its value when it is promoted to `int`. -/
theorem toInt_promoted (x : UInt16) : x.toUInt32.toInt32.toInt = x.toNat := by
  have hlt := x.toNat_lt
  rw [← Int32.toInt_toBitVec, BitVec.toInt_eq_toNat_of_lt] <;>
    simp only [UInt32.toBitVec_toInt32, UInt32.toNat_toBitVec, UInt16.toNat_toUInt32]
  omega

/-- A product that overflows is undefined. -/
theorem applyCalibration_overflow {cal : SensorCal} {raw : Int16} (h : ¬ FitsInt (cal.product raw)) :
    cal.applyCalibration raw = .error .overflow := by
  rw [product, ← toInt_adjusted] at h
  exact if_pos h

/-- Otherwise the result is the quotient modulo 65536. -/
theorem applyCalibration_eq {cal : SensorCal} {raw : Int16} (hden : cal.scaleDen ≠ 0)
    (h : FitsInt (cal.product raw)) :
    ∃ scaled, cal.applyCalibration raw = .ok scaled ∧
      scaled.toInt = (cal.quotient raw).bmod 65536 := by
  have hfits : FitsInt ((raw.toInt32 + cal.offset.toInt32).toInt * cal.scaleNum.toNat) := by
    rwa [toInt_adjusted]
  have hproduct : ((raw.toInt32 + cal.offset.toInt32) * cal.scaleNum.toUInt32.toInt32).toInt =
      cal.product raw := by
    rw [Int32.toInt_mul, toInt_promoted, toInt_adjusted, ← product]
    obtain ⟨hlow, hhigh⟩ := h
    exact Int.bmod_eq_of_le (by omega) (by omega)
  -- a divisor that is not negative cannot make the quotient overflow
  have hdiv : cal.scaleDen.toUInt32.toInt32 ≠ -1 := by
    intro heq
    have hval := toInt_promoted cal.scaleDen
    rw [heq, show (-1 : Int32).toInt = -1 from rfl] at hval
    omega
  refine ⟨_, (if_neg (not_not_intro hfits)).trans (if_neg hden), ?_⟩
  rw [Int32.toInt_toInt16, Int32.toInt_div_of_ne_right _ _ hdiv, hproduct, toInt_promoted, ← quotient]

/-- So a value can be scaled unless the product overflows. -/
theorem applyCalibration_ok_iff {cal : SensorCal} {raw : Int16} (hden : cal.scaleDen ≠ 0) :
    (∃ scaled, cal.applyCalibration raw = .ok scaled) ↔ FitsInt (cal.product raw) := by
  by_cases hfits : FitsInt (cal.product raw)
  · obtain ⟨scaled, hok, -⟩ := applyCalibration_eq hden hfits
    exact iff_of_true ⟨scaled, hok⟩ hfits
  · rw [applyCalibration_overflow hfits]
    exact iff_of_false (by simp) hfits

/-- With factor one and no offset the product is the raw value. -/
theorem product_unscaled (raw : Int16) : product ⟨0, 1, 16, 85, -40⟩ raw = raw.toInt := by
  show (raw.toInt + 0) * 1 = raw.toInt
  omega

theorem fitsInt_unscaled (raw : Int16) : FitsInt (product ⟨0, 1, 16, 85, -40⟩ raw) := by
  have hlow := raw.le_toInt
  have hhigh := raw.toInt_lt
  rw [product_unscaled]
  exact ⟨by omega, by omega⟩

/-! ## The verdict -/

theorem checkThresholds_critical_iff (cal : SensorCal) (scaled : Int16) :
    cal.checkThresholds scaled = sensorStateCritical ↔
      ¬ Within cal.lowerCritical.toInt cal.upperCritical.toInt scaled.toInt := by
  rw [not_within, ← Int16.le_iff_toInt_le, ← Int16.le_iff_toInt_le]
  unfold checkThresholds
  split
  · rename_i hc
    exact iff_of_true rfl hc
  · rename_i hc
    exact iff_of_false (by decide) hc

theorem overLimit_iff (cal : SensorCal) (raw : Int16) :
    cal.OverLimit raw ↔
      ¬ Within cal.lowerCritical.toInt cal.upperCritical.toInt (cal.quotient raw) :=
  not_within.symm

/-- The limits are values of the type that the quotient is cast to. -/
theorem verdict_iff (cal : SensorCal) (raw scaled : Int16)
    (hscaled : scaled.toInt = (cal.quotient raw).bmod 65536) :
    (cal.checkThresholds scaled = sensorStateCritical ↔ cal.OverLimit raw) ↔
      ¬ ∃ k : ℤ, k ≠ 0 ∧
        Within cal.lowerCritical.toInt cal.upperCritical.toInt (cal.quotient raw - 65536 * k) := by
  have hlow := cal.lowerCritical.le_toInt
  have hhigh := cal.upperCritical.toInt_lt
  have hwindow := within_bmod_iff_self (x := cal.quotient raw) (m := 65536) (by decide)
    (show -(((65536 : ℕ) : ℤ) / 2) ≤ cal.lowerCritical.toInt by omega)
    (show cal.upperCritical.toInt ≤ (((65536 : ℕ) : ℤ) + 1) / 2 by omega)
  rw [checkThresholds_critical_iff, overLimit_iff, not_iff_not, hscaled]
  exact hwindow

/-- For every record with a divisor and every raw value: the calibrated value is defined and critical
exactly when the quotient without width limits is at or beyond a limit, if and only if the product fits in
an `int` and the quotient does not lie between the limits when it is moved by a multiple of 65536 other
than zero. -/
theorem applyCalibration_keepsVerdict_iff (cal : SensorCal) (raw : Int16) (hden : cal.scaleDen ≠ 0) :
    (∃ scaled, cal.applyCalibration raw = .ok scaled ∧
      (cal.checkThresholds scaled = sensorStateCritical ↔ cal.OverLimit raw)) ↔
    FitsInt (cal.product raw) ∧ ¬ ∃ k : ℤ, k ≠ 0 ∧
      Within cal.lowerCritical.toInt cal.upperCritical.toInt (cal.quotient raw - 65536 * k) := by
  by_cases hfits : FitsInt (cal.product raw)
  · obtain ⟨scaled, hcal, hscaled⟩ := applyCalibration_eq hden hfits
    rw [hcal, and_iff_right hfits, ← verdict_iff cal raw scaled hscaled]
    constructor
    · rintro ⟨scaled', heq, hverdict⟩
      obtain rfl := Except.ok.inj heq
      exact hverdict
    · intro hverdict
      exact ⟨scaled, rfl, hverdict⟩
  · refine iff_of_false ?_ fun h => hfits h.1
    rintro ⟨scaled, heq, -⟩
    rw [applyCalibration_overflow hfits] at heq
    cases heq

/-- 400 sixteenths are below the limit, and read so. -/
theorem applyCalibration_keepsVerdict_400 :
    ∃ scaled, SensorCal.applyCalibration ⟨0, 1, 16, 85, -40⟩ 400 = .ok scaled ∧
      (SensorCal.checkThresholds ⟨0, 1, 16, 85, -40⟩ scaled = sensorStateCritical ↔
        SensorCal.OverLimit ⟨0, 1, 16, 85, -40⟩ 400) := by
  refine (applyCalibration_keepsVerdict_iff ⟨0, 1, 16, 85, -40⟩ 400 (by decide)).2 ⟨by decide, ?_⟩
  rintro ⟨k, hk, hlow, hhigh⟩
  have hquot : SensorCal.quotient ⟨0, 1, 16, 85, -40⟩ 400 = 25 := by decide
  rw [hquot, show (85 : Int16).toInt = 85 from rfl] at hhigh
  rw [hquot, show (-40 : Int16).toInt = -40 from rfl] at hlow
  omega

/-- A reading of 65534 is cast to -2, and reported as normal. -/
theorem overLimit_hidden :
    SensorCal.applyCalibration ⟨0, 2, 1, 85, -40⟩ 32767 = .ok (-2) ∧
      SensorCal.checkThresholds ⟨0, 2, 1, 85, -40⟩ (-2) = sensorStateOk ∧
      SensorCal.quotient ⟨0, 2, 1, 85, -40⟩ 32767 = 65534 ∧
      SensorCal.OverLimit ⟨0, 2, 1, 85, -40⟩ 32767 := by
  decide

end SensorCal

/-! ## The table -/

/-- The sensors below the count of `sensor_mgr_init` are calibrated. -/
theorem calibrationOf_of_lt {sensorId : UInt8} (h : sensorId < sensorMgrInit.count) :
    calibrationOf sensorId = .ok ⟨0, 1, 16, 85, -40⟩ := by
  have hlt : sensorId.toNat < 2 := UInt8.lt_iff_toNat_lt.1 h
  have hid : sensorId.toNat = 0 ∨ sensorId.toNat = 1 := by omega
  rw [calibrationOf]
  rcases hid with hid | hid <;> rw [hid] <;> rfl

theorem applyCalibration_of_lt {sensorId : UInt8} (h : sensorId < sensorMgrInit.count)
    (raw : Int16) : ∃ scaled, applyCalibration sensorId raw = .ok scaled := by
  rw [applyCalibration, calibrationOf_of_lt h]
  exact (SensorCal.applyCalibration_ok_iff (by decide)).2 (SensorCal.fitsInt_unscaled raw)

/-- A threshold check of such a sensor gives one of two states. -/
theorem checkThresholds_of_lt {sensorId : UInt8} (h : sensorId < sensorMgrInit.count)
    (scaled : Int16) :
    checkThresholds sensorId scaled = .ok sensorStateCritical ∨
      checkThresholds sensorId scaled = .ok sensorStateOk := by
  rw [checkThresholds, calibrationOf_of_lt h]
  by_cases hc : scaled ≥ 85 ∨ scaled ≤ -40
  · exact Or.inl (congrArg Except.ok (if_pos hc))
  · exact Or.inr (congrArg Except.ok (if_neg hc))

/-- The sensors below the count have factor one and divisor 16. The quotient then fits in an `int16_t`,
and the verdict is right for every reading. -/
theorem calibrated_keepsVerdict {sensorId : UInt8} (h : sensorId < sensorMgrInit.count)
    (raw : Int16) :
    ∃ scaled, applyCalibration sensorId raw = .ok scaled ∧
      (checkThresholds sensorId scaled = .ok sensorStateCritical ↔
        SensorCal.OverLimit ⟨0, 1, 16, 85, -40⟩ raw) := by
  have hraw := raw.toInt_lt
  have hraw' := raw.le_toInt
  obtain ⟨scaled, hcal, hscaled⟩ := SensorCal.applyCalibration_eq (by decide) (SensorCal.fitsInt_unscaled raw)
  have hquot : SensorCal.quotient ⟨0, 1, 16, 85, -40⟩ raw = raw.toInt.tdiv 16 := by
    rw [SensorCal.quotient, SensorCal.product_unscaled]
    rfl
  refine ⟨scaled, ?_, ?_⟩
  · rw [applyCalibration, calibrationOf_of_lt h]
    exact hcal
  · rw [checkThresholds, calibrationOf_of_lt h]
    have hok : (Except.ok (SensorCal.checkThresholds ⟨0, 1, 16, 85, -40⟩ scaled) :
        Except SensorFault UInt8) = .ok sensorStateCritical ↔
          SensorCal.checkThresholds ⟨0, 1, 16, 85, -40⟩ scaled = sensorStateCritical :=
      ⟨Except.ok.inj, congrArg Except.ok⟩
    refine hok.trans ((SensorCal.verdict_iff _ raw scaled hscaled).2 ?_)
    rintro ⟨k, hk, hlow, hhigh⟩
    rw [hquot] at hlow hhigh
    have hlow' : -40 < raw.toInt.tdiv 16 - 65536 * k := hlow
    have hhigh' : raw.toInt.tdiv 16 - 65536 * k < 85 := hhigh
    have habs : (raw.toInt.tdiv 16).natAbs ≤ raw.toInt.natAbs := Int.natAbs_tdiv_le_natAbs _ _
    omega

end NicObFw
