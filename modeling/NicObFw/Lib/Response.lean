import NicObFw.Lib.Machine

/-!
# Bounded response

How many steps one party of a machine can take before something happens, whatever the others do in
between. A measure is made smaller by every step of the party, and is made larger, by one, only by the
steps that delay it; so it bounds the steps that the party takes while it has not happened. A queue that
the party empties is a case of this.
-/

namespace Machine

variable {σ α ε : Type*} {M : Machine σ α ε}

variable (M) in
/-- The condition holds in every state that the run goes through, the first and the last included. The
condition sees the trace since the start of the run. -/
def Throughout (C : σ → List ε → Prop) (s : σ) (acts : List α) : Prop :=
  ∀ pre post s' tr, acts = pre ++ post → M.exec s pre = some (s', tr) → C s' tr

theorem Throughout.of_append {C : σ → List ε → Prop} {s : σ} {acts acts' : List α}
    (h : M.Throughout C s (acts ++ acts')) : M.Throughout C s acts := by
  rintro pre post s' tr rfl he
  exact h pre (post ++ acts') s' tr (by simp) he

theorem Throughout.last {C : σ → List ε → Prop} {s s' : σ} {acts : List α} {tr : List ε}
    (h : M.Throughout C s acts) (he : M.exec s acts = some (s', tr)) : C s' tr :=
  h acts [] s' tr (by simp) he

/-- While the condition holds, the steps of the party are paid for by the measure at the start and by
the steps that delay it. -/
theorem Throughout.measure_le {C : σ → List ε → Prop} (μ : σ → List ε → ℕ) (own delays : α → Bool)
    (hstep : ∀ s tr a s' evs, C s tr → C s' (tr ++ evs) → M.step s a = some (s', evs) →
      μ s' (tr ++ evs) + (own a).toNat ≤ μ s tr + (delays a).toNat)
    {s₀ s : σ} {acts : List α} {tr : List ε} (hC : M.Throughout C s₀ acts)
    (h : M.exec s₀ acts = some (s, tr)) :
    μ s tr + acts.countP own ≤ μ s₀ [] + acts.countP delays := by
  have hcount : ∀ (p : α → Bool) a, [a].countP p = (p a).toNat := by
    intro p a
    cases ha : p a <;> simp [ha]
  induction acts using List.reverseRecOn generalizing s tr with
  | nil =>
    obtain ⟨rfl, rfl⟩ : s₀ = s ∧ [] = tr := by simpa using h
    simp
  | append_singleton acts a ih =>
    obtain ⟨s', tr', evs, he, hs, rfl⟩ := exec_snoc.1 h
    have hbefore := ih hC.of_append he
    have hlast := hstep s' tr' a s evs (hC.of_append.last he) (hC.last h) hs
    rw [List.countP_append, List.countP_append, hcount, hcount]
    omega

/-- Something that stays has happened, once the party has taken as many steps as the measure at the
start and the steps that delay it. -/
theorem responds (I goal : σ → List ε → Prop) (μ : σ → List ε → ℕ) (own delays : α → Bool) {s₀ s : σ}
    (h0 : I s₀ []) (hinv : ∀ s tr a s' evs, I s tr → M.step s a = some (s', evs) → I s' (tr ++ evs))
    (hstay : ∀ s tr a s' evs, goal s tr → M.step s a = some (s', evs) → goal s' (tr ++ evs))
    (hpos : ∀ s tr, I s tr → ¬ goal s tr → 0 < μ s tr)
    (hstep : ∀ s tr a s' evs, I s tr → ¬ goal s tr → ¬ goal s' (tr ++ evs) →
      M.step s a = some (s', evs) → μ s' (tr ++ evs) + (own a).toNat ≤ μ s tr + (delays a).toNat)
    {acts : List α} {tr : List ε} (h : M.exec s₀ acts = some (s, tr))
    (hown : μ s₀ [] + acts.countP delays ≤ acts.countP own) : goal s tr := by
  by_contra hno
  have hC : M.Throughout (fun s tr => I s tr ∧ ¬ goal s tr) s₀ acts := by
    rintro pre post s' tr' rfl he
    refine ⟨invariant h0 hinv he, fun hgoal => hno ?_⟩
    obtain ⟨s₁, tr₁, tr₂, hpre, hpost, rfl⟩ := exec_append.1 h
    obtain ⟨rfl, rfl⟩ : s₁ = s' ∧ tr₁ = tr' := by simpa using hpre.symm.trans he
    refine invariant (I := fun s tr => goal s (tr₁ ++ tr)) (by simpa using hgoal) ?_ hpost
    intro s tr a s' evs hs hstep'
    rw [← List.append_assoc]
    exact hstay s _ a s' evs hs hstep'
  have hpaid := hC.measure_le μ own delays
    (fun s tr a s' evs hs hs' => hstep s tr a s' evs hs.1 hs.2 hs'.2) h
  have hlast := hC.last h
  have := hpos s tr hlast.1 hlast.2
  omega

end Machine
