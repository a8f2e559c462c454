import Mathlib.Data.Nat.Notation

/-!
# Clocks that wrap

A clock of `m` values shows the time modulo `m`. The difference of two readings, modulo `m` again, is
the time between them modulo `m`, however often the clock has wrapped in between. A limit that it is
compared with is judged rightly, except for a time of the length of the limit after each full turn.
-/

namespace WrappingClock

variable {m limit t₀ t d : ℕ}

/-- What the clock shows at the time `t`. -/
def reading (m t : ℕ) : ℕ := t % m

/-- The difference of two readings. -/
def age (m now seen : ℕ) : ℕ := (m - seen + now) % m

theorem age_reading (hm : 0 < m) (hle : t₀ ≤ t) :
    age m (reading m t) (reading m t₀) = (t - t₀) % m := by
  have hlt : t₀ % m < m := Nat.mod_lt _ hm
  have hdiv : m * (t₀ / m) + t₀ % m = t₀ := Nat.div_add_mod t₀ m
  have hshift : m - t₀ % m + t = t - t₀ + m * (t₀ / m + 1) := by
    rw [Nat.mul_add, Nat.mul_one]
    omega
  unfold age reading
  rw [Nat.add_mod_mod, hshift, Nat.add_mul_mod_self_left]

/-- At least one full turn has passed, and less than `limit` since the last one. -/
def JustWrapped (m limit d : ℕ) : Prop := ∃ n, 1 ≤ n ∧ m * n ≤ d ∧ d < m * n + limit

theorem justWrapped_iff (hle : limit ≤ m) : JustWrapped m limit d ↔ m ≤ d ∧ d % m < limit := by
  constructor
  · rintro ⟨n, hn, hlo, hhi⟩
    obtain ⟨r, rfl⟩ := Nat.exists_eq_add_of_le hlo
    have hturn : m * 1 ≤ m * n := Nat.mul_le_mul_left m hn
    have hmod : (m * n + r) % m = r := by
      rw [Nat.mul_add_mod, Nat.mod_eq_of_lt (by omega)]
    exact ⟨by omega, by omega⟩
  · rintro ⟨hturn, hlt⟩
    have hdiv : m * (d / m) + d % m = d := Nat.div_add_mod d m
    have hpos : 0 < m := by omega
    exact ⟨d / m, (Nat.one_le_div_iff hpos).2 hturn, by omega, by omega⟩

/-- Modulo the clock, a time is below the limit exactly if it is so in truth, unless the clock has just
wrapped. -/
theorem mod_lt_iff_self (hle : limit ≤ m) :
    (d % m < limit ↔ d < limit) ↔ ¬ JustWrapped m limit d := by
  rw [justWrapped_iff hle]
  by_cases hturn : m ≤ d
  · have hnot : ¬ d < limit := by omega
    simp only [hturn, hnot, iff_false, true_and]
  · have hself : d % m = d := Nat.mod_eq_of_lt (by omega)
    simp only [hself, hturn, false_and, not_false_eq_true]

/-- A time below the limit is never taken for one above it. -/
theorem mod_lt_of_lt (h : d < limit) : d % m < limit := Nat.lt_of_le_of_lt (Nat.mod_le d m) h

end WrappingClock
