import Mathlib.Data.Int.Notation
import Mathlib.Data.Nat.Notation

/-!
# Narrowing an integer and a window

A cast to a narrower signed type keeps an integer modulo the size of the type, as its balanced residue
(`Int.bmod`). Whether the residue lies strictly between two bounds says the same of the integer itself,
unless the integer lies in the window moved by a nonzero multiple of the size.
-/

namespace Narrowing

/-- Strictly between `lo` and `hi`. -/
def Within (lo hi x : ℤ) : Prop := lo < x ∧ x < hi

instance (lo hi x : ℤ) : Decidable (Within lo hi x) := inferInstanceAs (Decidable (_ ∧ _))

theorem not_within {lo hi x : ℤ} : ¬ Within lo hi x ↔ hi ≤ x ∨ x ≤ lo := by
  unfold Within
  omega

variable {m : ℕ} {lo hi x : ℤ}

/-- A window that fits in the type holds one representative of `x` at most, and this is the residue. -/
theorem bmod_eq_of_within (hm : 0 < m) (hlo : -((m : ℤ) / 2) ≤ lo) (hhi : hi ≤ ((m : ℤ) + 1) / 2)
    {k : ℤ} (h : Within lo hi (x - m * k)) : x.bmod m = x - m * k := by
  obtain ⟨hl, hh⟩ := h
  refine (Int.bmod_eq_iff hm).2 ⟨by omega, by omega, -k, ?_⟩
  rw [Int.mul_neg]
  omega

theorem within_bmod_iff (hm : 0 < m) (hlo : -((m : ℤ) / 2) ≤ lo) (hhi : hi ≤ ((m : ℤ) + 1) / 2) :
    Within lo hi (x.bmod m) ↔ ∃ k : ℤ, Within lo hi (x - m * k) := by
  constructor
  · intro h
    refine ⟨x.bdiv m, ?_⟩
    rwa [← Int.bmod_eq_self_sub_mul_bdiv]
  · rintro ⟨k, hk⟩
    rwa [bmod_eq_of_within hm hlo hhi hk]

/-- The residue and the integer agree about the window if and only if the integer is in none of the
windows moved by a nonzero multiple of the size. -/
theorem within_bmod_iff_self (hm : 0 < m) (hlo : -((m : ℤ) / 2) ≤ lo)
    (hhi : hi ≤ ((m : ℤ) + 1) / 2) :
    (Within lo hi (x.bmod m) ↔ Within lo hi x) ↔ ¬ ∃ k : ℤ, k ≠ 0 ∧ Within lo hi (x - m * k) := by
  have hzero : x - m * 0 = x := by omega
  rw [within_bmod_iff hm hlo hhi]
  constructor
  · rintro h ⟨k, hne, hk⟩
    have hself : Within lo hi (x - m * 0) := by
      rw [hzero]
      exact h.1 ⟨k, hk⟩
    -- both representatives are the residue
    have hmul : (m : ℤ) * k = m * 0 := by
      have hresk := bmod_eq_of_within hm hlo hhi hk
      have hres0 := bmod_eq_of_within hm hlo hhi hself
      omega
    exact hne (Int.eq_of_mul_eq_mul_left (by omega) hmul)
  · intro h
    constructor
    · rintro ⟨k, hk⟩
      by_cases hk0 : k = 0
      · rwa [hk0, hzero] at hk
      · exact absurd ⟨k, hk0, hk⟩ h
    · intro hself
      exact ⟨0, hzero.symm ▸ hself⟩

end Narrowing
