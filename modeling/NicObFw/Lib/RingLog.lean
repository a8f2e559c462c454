import Mathlib.Tactic.Common

/-!
# Ring logs

A log of the last entries in a fixed number of slots. A new entry goes into the slot at the head, and
the head moves on; once all slots are used it takes the place of the oldest entry.
-/

/-- A log in `size` slots. -/
structure RingLog (α : Type*) (size : ℕ) where
  slots : Vector α size
  head : ℕ
  count : ℕ

namespace RingLog

variable {α : Type*} {size : ℕ}

/-- A new entry. -/
def push (r : RingLog α size) (x : α) : RingLog α size where
  slots := r.slots.setIfInBounds r.head x
  head := (r.head + 1) % size
  count := if r.count < size then r.count + 1 else r.count

/-- The log after the entries `history`: as long as fewer than `size` entries came after it, an entry is
in the slot that its number gives. -/
structure Holds (r : RingLog α size) (history : List α) : Prop where
  head : r.head = history.length % size
  count : r.count = min history.length size
  slot : ∀ i, i < history.length → history.length ≤ i + size →
    r.slots[i % size]? = history[i]?

theorem holds_nil {r : RingLog α size} (hhead : r.head = 0) (hcount : r.count = 0) :
    r.Holds [] := by
  refine ⟨?_, ?_, ?_⟩
  · simp [hhead]
  · simp [hcount]
  · intro i hi
    simp at hi

variable {r : RingLog α size} {history : List α}

/-- Two numbers less than `size` apart have different slots. -/
theorem mod_ne_mod {i n : ℕ} (hlt : i < n) (hle : n < i + size) : i % size ≠ n % size := by
  intro h
  have hdvd := Nat.dvd_of_mod_eq_zero (Nat.sub_mod_eq_zero_of_mod_eq h.symm)
  have hle' := Nat.le_of_dvd (by omega) hdvd
  omega

theorem Holds.push (h : r.Holds history) (hsize : 0 < size) (x : α) :
    (r.push x).Holds (history ++ [x]) := by
  have hlen : (history ++ [x]).length = history.length + 1 := by simp
  refine ⟨?_, ?_, fun i hi hle => ?_⟩
  · rw [RingLog.push, hlen, h.head, Nat.mod_add_mod]
  · rw [RingLog.push, hlen, h.count]
    simp only
    split <;> omega
  · rw [hlen] at hi hle
    show (r.slots.setIfInBounds r.head x)[i % size]? = _
    rw [Vector.getElem?_setIfInBounds, h.head]
    by_cases hlast : i = history.length
    · subst hlast
      simp [Nat.mod_lt _ hsize]
    · have hlt : i < history.length := by omega
      rw [if_neg (Ne.symm (mod_ne_mod hlt (by omega))), h.slot i hlt (by omega),
        List.getElem?_append_left hlt]

/-- The entry that `k` entries came after. -/
theorem Holds.recent (h : r.Holds history) {k : ℕ} (hk : k < history.length) (hks : k < size) :
    r.slots[(r.head + (size - 1) - k) % size]? = history[history.length - 1 - k]? := by
  have hslot := h.slot (history.length - 1 - k) (by omega) (by omega)
  have hmod : (r.head + (size - 1) - k) % size = (history.length - 1 - k) % size := by
    rw [h.head]
    calc (history.length % size + (size - 1) - k) % size
        = (history.length % size + (size - 1 - k)) % size := by congr 1; omega
      _ = (history.length + (size - 1 - k)) % size := Nat.mod_add_mod _ _ _
      _ = (history.length - 1 - k + size) % size := by congr 1; omega
      _ = (history.length - 1 - k) % size := Nat.add_mod_right _ _
  rw [hmod, hslot]

end RingLog
