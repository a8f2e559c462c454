import Mathlib.Data.List.Induction
import Mathlib.Tactic.Common

/-!
# Traces

A trace is the list of what a program did, oldest first. A safety property of a trace says of every
entry what must hold of the entries before it.
-/

namespace Trace

variable {ε : Type*}

/-- Every entry of the trace is allowed by the entries before it. -/
def EachGiven (allowed : List ε → ε → Prop) (tr : List ε) : Prop :=
  ∀ pre e post, tr = pre ++ e :: post → allowed pre e

variable {allowed : List ε → ε → Prop}

@[simp] theorem eachGiven_nil : EachGiven allowed [] := by
  intro pre e post h
  simp at h

theorem EachGiven.of_append {tr evs : List ε} (h : EachGiven allowed (tr ++ evs)) :
    EachGiven allowed tr := by
  rintro pre e post rfl
  exact h pre e (post ++ evs) (by simp)

/-- A trace is extended by one allowed entry at a time. -/
theorem eachGiven_snoc {tr : List ε} {e : ε} :
    EachGiven allowed (tr ++ [e]) ↔ EachGiven allowed tr ∧ allowed tr e := by
  constructor
  · intro h
    exact ⟨h.of_append, h tr e [] rfl⟩
  · rintro ⟨htr, he⟩ pre e' post hsplit
    rcases List.eq_nil_or_concat post with rfl | ⟨post', x, rfl⟩
    · obtain ⟨rfl, h⟩ := List.append_inj' hsplit rfl
      obtain rfl : e = e' := by simpa using h
      exact he
    · rw [List.concat_eq_append, ← List.cons_append, ← List.append_assoc] at hsplit
      exact htr pre e' post' (List.append_inj' hsplit rfl).1

theorem eachGiven_singleton {e : ε} : EachGiven allowed [e] ↔ allowed [] e :=
  (@eachGiven_snoc _ allowed [] e).trans (and_iff_right eachGiven_nil)

/-- A trace is extended by a list of entries, each allowed by the trace and the entries of the list
before it. -/
theorem eachGiven_append {tr evs : List ε} :
    EachGiven allowed (tr ++ evs) ↔
      EachGiven allowed tr ∧ EachGiven (fun pre e => allowed (tr ++ pre) e) evs := by
  induction evs using List.reverseRecOn with
  | nil => simp
  | append_singleton evs e ih =>
    rw [← List.append_assoc, eachGiven_snoc, eachGiven_snoc, ih, and_assoc]

theorem eachGiven_iff_take {tr : List ε} :
    EachGiven allowed tr ↔ ∀ i : Fin tr.length, allowed (tr.take i) (tr.get i) := by
  constructor
  · intro h i
    exact h (tr.take i) (tr.get i) (tr.drop (i + 1)) (by simp)
  · rintro h pre e post rfl
    have he := h ⟨pre.length, by simp⟩
    simpa using he

instance [∀ pre e, Decidable (allowed pre e)] (tr : List ε) : Decidable (EachGiven allowed tr) :=
  decidable_of_iff' _ eachGiven_iff_take

/-- A view of a trace shows nothing of entries that it leaves out. -/
theorem filterMap_quiet {β : Type*} {view : ε → Option β} {quiet : ε → Prop} {evs : List ε}
    (hview : ∀ e, quiet e → view e = none) (h : ∀ e ∈ evs, quiet e) : evs.filterMap view = [] :=
  List.filterMap_eq_nil_iff.2 fun e he => hview e (h e he)

/-- Entries that are not counted. -/
theorem countP_quiet {p : ε → Bool} {evs : List ε} (tr : List ε) (h : ∀ e ∈ evs, p e = false) :
    (tr ++ evs).countP p = tr.countP p := by
  have hevs : evs.countP p = 0 := List.countP_eq_zero.2 fun e he => by simp [h e he]
  rw [List.countP_append, hevs, Nat.add_zero]

/-! ## Requests that have not been met -/

/-- Some entry of the trace asks for something that no later entry gives. -/
def Due (asks gives : ε → Bool) (tr : List ε) : Prop :=
  ∃ pre e post, tr = pre ++ e :: post ∧ asks e = true ∧ ∀ x ∈ post, gives x = false

variable {asks gives : ε → Bool} {tr evs : List ε}

theorem not_due_nil : ¬ Due asks gives [] := by
  rintro ⟨pre, e, post, h, -⟩
  simp at h

/-- What is due after more entries was due before, and none of them gave it, or one of them asks. -/
theorem Due.of_append (h : Due asks gives (tr ++ evs)) :
    (Due asks gives tr ∧ ∀ e ∈ evs, gives e = false) ∨ ∃ e ∈ evs, asks e = true := by
  obtain ⟨pre, e, post, heq, hasks, hpost⟩ := h
  rcases List.append_eq_append_iff.1 heq with ⟨mid, -, hevs⟩ | ⟨mid, htr, hmid⟩
  · exact Or.inr ⟨e, by rw [hevs]; simp, hasks⟩
  · cases mid with
    | nil => exact Or.inr ⟨e, by rw [List.nil_append] at hmid; rw [← hmid]; simp, hasks⟩
    | cons e' mid =>
      obtain ⟨rfl, rfl⟩ := List.cons.inj hmid
      exact Or.inl ⟨⟨pre, e, mid, htr, hasks, fun x hx => hpost x (List.mem_append_left _ hx)⟩,
        fun x hx => hpost x (List.mem_append_right _ hx)⟩

end Trace
