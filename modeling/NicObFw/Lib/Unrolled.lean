import Mathlib.Tactic.Common

/-!
# Unrolled loops

A loop over the indices below `n` that takes four at a time for as long as four are left, and then the
remaining ones one by one.
-/

namespace Unrolled

/-- Blocks of four indices. -/
theorem flatMap_four (k : ℕ) :
    (List.range' 0 k 4).flatMap (fun i => [i, i + 1, i + 2, i + 3]) = List.range (4 * k) := by
  induction k with
  | zero => rfl
  | succ k ih =>
    rw [List.range'_concat, List.flatMap_append, ih, Nat.mul_succ, List.range_add]
    simp [List.range_succ]

/-- The blocks and the remaining indices are all indices, in order. -/
theorem flatMap_four_append {k n : ℕ} (hle : 4 * k ≤ n) :
    (List.range' 0 k 4).flatMap (fun i => [i, i + 1, i + 2, i + 3]) ++
      List.range' (4 * k) (n - 4 * k) = List.range n := by
  have happend := @List.range'_append_1 0 (4 * k) (n - 4 * k)
  rw [Nat.zero_add, Nat.add_sub_cancel' hle] at happend
  rw [flatMap_four, List.range_eq_range', happend, List.range_eq_range']

variable {σ : Type*}

/-- If the unrolled body does four iterations, the two loops together do all of them. -/
theorem foldl_unrolled {body body4 : σ → ℕ → σ}
    (hbody : ∀ s i, body4 s i = body (body (body (body s i) (i + 1)) (i + 2)) (i + 3)) {k n : ℕ}
    (hle : 4 * k ≤ n) (s : σ) :
    (List.range' (4 * k) (n - 4 * k)).foldl body ((List.range' 0 k 4).foldl body4 s) =
      (List.range n).foldl body s := by
  have hfour : (List.range' 0 k 4).foldl body4 s =
      ((List.range' 0 k 4).flatMap fun i => [i, i + 1, i + 2, i + 3]).foldl body s := by
    rw [List.foldl_flatMap]
    exact congrArg (fun f => List.foldl f s _) (funext₂ hbody)
  rw [hfour, ← List.foldl_append, flatMap_four_append hle]

/-- The same of bodies that can fail. -/
theorem foldlM_unrolled {body body4 : σ → ℕ → Option σ}
    (hbody : ∀ s i, body4 s i = (body s i).bind fun s => (body s (i + 1)).bind fun s =>
      (body s (i + 2)).bind fun s => body s (i + 3)) {k n : ℕ} (hle : 4 * k ≤ n) (s : σ) :
    (((List.range' 0 k 4).foldlM body4 s).bind fun s =>
      (List.range' (4 * k) (n - 4 * k)).foldlM body s) = (List.range n).foldlM body s := by
  have hfour : ∀ (is : List ℕ) (s : σ), is.foldlM body4 s =
      (is.flatMap fun i => [i, i + 1, i + 2, i + 3]).foldlM body s := by
    intro is
    induction is with
    | nil => exact fun s => rfl
    | cons i is ih =>
      intro s
      rw [List.foldlM_cons, hbody, List.flatMap_cons, List.foldlM_append]
      simp only [List.foldlM_cons, List.foldlM_nil, ih, Option.bind_eq_bind, Option.bind_assoc,
        Option.pure_def, Option.bind_fun_some]
  rw [hfour, ← flatMap_four_append hle, List.foldlM_append]
  rfl

end Unrolled
