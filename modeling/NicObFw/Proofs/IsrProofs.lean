import NicObFw.IsrHandlers
import NicObFw.Lib.Unrolled
import NicObFw.Proofs.MctpProofs

/-!
# Proofs: the receive ISR

The two copy loops of `bmc_i2c_rx_isr` copy the first `min length 32` bytes of the write and stay
inside both arrays (`bmcI2cRxMsg_spec`).
-/

namespace NicObFw

open Memory Reassembly

/-- The bytes of a write that the ISR keeps. -/
def I2cWrite.clamped (w : I2cWrite) : List UInt8 := w.data.take smbMaxBlockSize

/-- After `k` bytes the message holds the first `k` bytes of the write. -/
theorem foldl_isrCopyByte (w : I2cWrite) (buf : Vector UInt8 smbMaxBlockSize) {k : ℕ}
    (hk : k ≤ w.data.length) (h32 : k ≤ smbMaxBlockSize) :
    let s := (List.range k).foldl (isrCopyByte w) (buf, [])
    s.1 = store buf 0 (w.data.take k) ∧ AllInBounds RxArray.size s.2 := by
  induction k with
  | zero => simp
  | succ k ih =>
    obtain ⟨hbuf, hlog⟩ := ih (by omega) (by omega)
    have hlen : (w.data.take k).length = k := by rw [List.length_take]; omega
    have hget : w.data.take k ++ [w.data.getD k 0] = w.data.take (k + 1) := by
      rw [List.getD_eq_getElem?_getD, List.getElem?_eq_getElem (by omega), Option.getD_some,
        List.take_append_getElem]
    rw [List.range_succ, List.foldl_append]
    simp only [List.foldl_cons, List.foldl_nil, isrCopyByte, hbuf, allInBounds_append, hlog, true_and,
      allInBounds_cons, allInBounds_nil, and_true, RxArray.size]
    refine ⟨?_, by omega, h32⟩
    rw [← hget]
    conv_lhs => rw [show store (store buf 0 (w.data.take k)) k [w.data.getD k 0] =
      store (store buf 0 (w.data.take k)) (0 + (w.data.take k).length) [w.data.getD k 0] by
        rw [hlen, Nat.zero_add]]
    exact store_store (by rw [hget, List.length_take]; omega)

theorem toNat_and_not_three {n : ℕ} (h : n ≤ 32) :
    (UInt16.ofNat n &&& ~~~3).toNat = 4 * (n / 4) := by
  have h32 : ∀ n ≤ 32, (UInt16.ofNat n &&& ~~~3).toNat = 4 * (n / 4) := by decide +kernel
  exact h32 n h

/-- The length that the ISR stores is the clamped length of the write. -/
theorem isr_length (w : I2cWrite) :
    (if w.length > 32 then 32 else w.length) = UInt16.ofNat (min w.data.length smbMaxBlockSize) := by
  have hlt := w.length_lt
  have hnat : w.length.toNat = w.data.length := UInt16.toNat_ofNat_of_lt' hlt
  by_cases h : 32 < w.data.length
  · rw [if_pos (UInt16.lt_iff_toNat_lt.2 (by rw [hnat]; exact h)), Nat.min_eq_right (by simp; omega)]
    rfl
  · rw [if_neg (by rw [gt_iff_lt, UInt16.lt_iff_toNat_lt, hnat]; exact h),
      Nat.min_eq_left (by simp; omega), I2cWrite.length]

/-- The message that the ISR builds holds the clamped write, and building it stays inside the
arrays. -/
theorem bmcI2cRxMsg_spec (msgData : Vector UInt8 smbMaxBlockSize) (w : I2cWrite) :
    let r := bmcI2cRxMsg msgData w
    r.1.length.toNat = w.clamped.length ∧ frameOf r.1 = w.clamped ∧ AllInBounds RxArray.size r.2 := by
  have hn32 : min w.data.length smbMaxBlockSize ≤ 32 := Nat.min_le_right _ _
  have hlen : w.clamped.length = min w.data.length smbMaxBlockSize := by
    rw [I2cWrite.clamped, List.length_take, Nat.min_comm]
  have hnat : (UInt16.ofNat (min w.data.length smbMaxBlockSize)).toNat =
      min w.data.length smbMaxBlockSize := UInt16.toNat_ofNat_of_lt' (lt_of_le_of_lt hn32 (by decide))
  set n := min w.data.length smbMaxBlockSize with hn
  have hloops : (List.range' (4 * (n / 4)) (n - 4 * (n / 4))).foldl (isrCopyByte w)
      ((List.range' 0 (4 * (n / 4) / 4) 4).foldl (isrCopy4 w) (msgData, [])) =
      (List.range n).foldl (isrCopyByte w) (msgData, []) := by
    rw [Nat.mul_div_cancel_left _ (by decide)]
    exact Unrolled.foldl_unrolled (fun _ _ => rfl) (Nat.mul_div_le n 4) _
  obtain ⟨hbuf, hlog⟩ := foldl_isrCopyByte w msgData (k := n) (by omega) hn32
  have htake : w.data.take n = w.clamped := by
    rw [hn, I2cWrite.clamped, List.take_eq_take_iff]
    simp [Nat.min_comm]
  simp only [bmcI2cRxMsg, isr_length, ← hn, toNat_and_not_three hn32, hnat, hloops, hbuf, htake]
  refine ⟨hlen.symm, ?_, hlog⟩
  rw [frameOf, hnat, ← hlen]
  exact load_store_zero msgData (by rw [hlen]; exact hn32)

/-- A write holds a whole MCTP header. -/
def I2cWrite.IsPacket (w : I2cWrite) : Prop := 4 ≤ w.data.length

instance (w : I2cWrite) : Decidable w.IsPacket := inferInstanceAs (Decidable (_ ≤ _))

/-- All bytes of the write after the MCTP header, as they were on the wire. -/
def I2cWrite.fullPayload (w : I2cWrite) : List UInt8 := w.data.drop 4

theorem length_clamped (w : I2cWrite) : w.clamped.length = min smbMaxBlockSize w.data.length := by
  rw [I2cWrite.clamped, List.length_take]

theorem bmcI2cRxMsg_isPacket {w : I2cWrite} (h : w.IsPacket)
    (msgData : Vector UInt8 smbMaxBlockSize) : (bmcI2cRxMsg msgData w).1.IsPacket := by
  have hlen := (bmcI2cRxMsg_spec msgData w).1
  rw [length_clamped] at hlen
  simp only [I2cWrite.IsPacket, BmcRxMsg.IsPacket, hlen, smbMaxBlockSize] at h ⊢
  omega

end NicObFw
