import Mathlib.Data.List.Basic
import Mathlib.Tactic.Common

/-!
# Array objects and the accesses made to them

An array object of `n` elements is a `Vector α n`. `load` and `store` are the block copies of a C
program, cut off at the end of the object; every copy is reported as an `Access`, and a program
stays inside its objects if all its accesses are `InBounds`.
-/

namespace Memory

/-- An access to `len` elements of the array `object`, starting at `off`. -/
structure Access (ι : Type*) where
  object : ι
  off : ℕ
  len : ℕ
deriving DecidableEq, Repr

variable {ι : Type*}

/-- The access stays inside its object, `size` giving the number of elements of every object. -/
def Access.InBounds (size : ι → ℕ) (a : Access ι) : Prop := a.off + a.len ≤ size a.object

instance (size : ι → ℕ) (a : Access ι) : Decidable (a.InBounds size) :=
  inferInstanceAs (Decidable (_ ≤ _))

/-- Every access of the list stays inside its object. -/
def AllInBounds (size : ι → ℕ) (log : List (Access ι)) : Prop := ∀ a ∈ log, a.InBounds size

instance (size : ι → ℕ) (log : List (Access ι)) : Decidable (AllInBounds size log) :=
  inferInstanceAs (Decidable (∀ a ∈ log, _))

@[simp] theorem allInBounds_nil (size : ι → ℕ) : AllInBounds size [] := by simp [AllInBounds]

@[simp] theorem allInBounds_cons (size : ι → ℕ) (a : Access ι) (log : List (Access ι)) :
    AllInBounds size (a :: log) ↔ a.off + a.len ≤ size a.object ∧ AllInBounds size log := by
  simp [AllInBounds, Access.InBounds]

@[simp] theorem allInBounds_append (size : ι → ℕ) (log₁ log₂ : List (Access ι)) :
    AllInBounds size (log₁ ++ log₂) ↔ AllInBounds size log₁ ∧ AllInBounds size log₂ := by
  simp [AllInBounds, or_imp, forall_and]

variable {α : Type*} {n : ℕ}

theorem getD_toList (v : Vector α n) {i : ℕ} (hi : i < n) (d : α) : v.toList.getD i d = v[i] := by
  have hlt : i < v.toList.length := by simpa using hi
  rw [List.getD_eq_getElem?_getD, List.getElem?_eq_getElem hlt]
  simp

/-- The `len` elements of `src` from `off` on, as far as they lie inside the object. -/
def load (src : Vector α n) (off len : ℕ) : List α := (src.toList.drop off).take len

/-- `dst` with the elements `src` copied to `off`. Elements that would land past the end are outside
the object and leave no trace in it. -/
def store (dst : Vector α n) (off : ℕ) (src : List α) : Vector α n :=
  ⟨((dst.toList.take off ++ src ++ dst.toList.drop (off + src.length)).take n).toArray, by
    simp only [List.size_toArray, List.length_take, List.length_append, List.length_drop,
      Vector.length_toList]
    omega⟩

theorem toList_store (dst : Vector α n) (off : ℕ) (src : List α) :
    (store dst off src).toList =
      (dst.toList.take off ++ src ++ dst.toList.drop (off + src.length)).take n := by
  simp [store, Vector.toList]

@[simp] theorem load_zero (src : Vector α n) (off : ℕ) : load src off 0 = [] := by simp [load]

@[simp] theorem length_load (src : Vector α n) (off len : ℕ) :
    (load src off len).length = min len (n - off) := by
  simp [load]

@[simp] theorem store_nil (dst : Vector α n) (off : ℕ) : store dst off [] = dst := by
  rw [← Vector.toList_inj, toList_store, List.append_nil, List.length_nil, Nat.add_zero,
    List.take_append_drop]
  exact List.take_of_length_le (Nat.le_of_eq Vector.length_toList)

/-- A store that fits replaces exactly its part of the object. -/
theorem toList_store_of_le {dst : Vector α n} {off : ℕ} {src : List α} (h : off + src.length ≤ n) :
    (store dst off src).toList = dst.toList.take off ++ src ++ dst.toList.drop (off + src.length) := by
  rw [toList_store]
  refine List.take_of_length_le ?_
  simp only [List.length_append, List.length_take, List.length_drop, Vector.length_toList]
  omega

/-- What was stored is read back. -/
theorem load_store (dst : Vector α n) {off : ℕ} {src : List α} (h : off + src.length ≤ n) :
    load (store dst off src) off src.length = src := by
  have hoff : (dst.toList.take off).length = off := by
    rw [List.length_take, Vector.length_toList]; omega
  rw [load, toList_store_of_le h, List.append_assoc, List.drop_left' hoff, List.take_left]

theorem load_store_zero (dst : Vector α n) {src : List α} (h : src.length ≤ n) :
    load (store dst 0 src) 0 src.length = src :=
  load_store dst (by rwa [Nat.zero_add])

/-- Storing at `off` keeps the elements before `off` and appends to them. -/
theorem load_store_append (dst : Vector α n) {off : ℕ} {src : List α}
    (h : off + src.length ≤ n) :
    load (store dst off src) 0 (off + src.length) = load dst 0 off ++ src := by
  have hoff : (dst.toList.take off ++ src).length = off + src.length := by
    rw [List.length_append, List.length_take, Vector.length_toList]; omega
  rw [load, toList_store_of_le h, List.drop_zero, List.take_left' hoff, load, List.drop_zero]

/-- Storing directly behind what was just stored. -/
theorem store_store {dst : Vector α n} {off : ℕ} {src₁ src₂ : List α}
    (h : off + (src₁ ++ src₂).length ≤ n) :
    store (store dst off src₁) (off + src₁.length) src₂ = store dst off (src₁ ++ src₂) := by
  rw [List.length_append] at h
  have hoff : (dst.toList.take off ++ src₁).length = off + src₁.length := by
    rw [List.length_append, List.length_take, Vector.length_toList]; omega
  have hdrop : (dst.toList.take off ++ src₁ ++ dst.toList.drop (off + src₁.length)).drop
      (off + src₁.length + src₂.length) = dst.toList.drop (off + (src₁.length + src₂.length)) := by
    rw [← hoff, List.drop_length_add_append, hoff, List.drop_drop, Nat.add_assoc]
  rw [← Vector.toList_inj, toList_store_of_le (by omega), toList_store_of_le (by omega),
    toList_store_of_le (by rw [List.length_append]; omega), List.take_left' hoff, hdrop,
    List.length_append, List.append_assoc _ src₁ src₂]

/-- Reading on from where the last read stopped. -/
theorem load_add (src : Vector α n) (off len₁ len₂ : ℕ) :
    load src off (len₁ + len₂) = load src off len₁ ++ load src (off + len₁) len₂ := by
  simp only [load]
  rw [List.take_add, List.drop_drop]

end Memory
