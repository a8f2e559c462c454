import NicObFw.Lib.Trace

/-!
# Machines

A machine takes actions, one at a time and in any order. An action that is not enabled in a state
is not taken; one that is leads to a new state and reports what happened as events. Parties that run
concurrently are one machine whose actions are the steps of all parties, so a property of all its
runs is a property of every interleaving.
-/

/-- A machine with states `σ`, actions `α` and events `ε`. -/
structure Machine (σ α ε : Type*) where
  step : σ → α → Option (σ × List ε)

namespace Machine

variable {σ α ε : Type*} (M : Machine σ α ε)

/-- The state and the trace after the actions, taken in order from the state `s`. -/
def exec (s : σ) : List α → Option (σ × List ε)
  | [] => some (s, [])
  | a :: acts =>
    (M.step s a).bind fun r => (exec r.1 acts).map fun q => (q.1, r.2 ++ q.2)

variable {M}

@[simp] theorem exec_nil (s : σ) : M.exec s [] = some (s, []) := rfl

theorem exec_cons {s s'' : σ} {a : α} {acts : List α} {tr : List ε} :
    M.exec s (a :: acts) = some (s'', tr) ↔
      ∃ s' evs tr', M.step s a = some (s', evs) ∧ M.exec s' acts = some (s'', tr') ∧
        tr = evs ++ tr' := by
  rw [exec, Option.bind_eq_some_iff]
  simp only [Option.map_eq_some_iff, Prod.exists, Prod.mk.injEq]
  constructor
  · rintro ⟨s', evs, hs, s₁, tr', he, rfl, rfl⟩
    exact ⟨s', evs, tr', hs, he, rfl⟩
  · rintro ⟨s', evs, tr', hs, he, rfl⟩
    exact ⟨s', evs, hs, s'', tr', he, rfl, rfl⟩

theorem exec_append {s s'' : σ} {acts₁ acts₂ : List α} {tr : List ε} :
    M.exec s (acts₁ ++ acts₂) = some (s'', tr) ↔
      ∃ s' tr₁ tr₂, M.exec s acts₁ = some (s', tr₁) ∧ M.exec s' acts₂ = some (s'', tr₂) ∧
        tr = tr₁ ++ tr₂ := by
  induction acts₁ generalizing s tr with
  | nil => simp [eq_comm]
  | cons a acts₁ ih =>
    rw [List.cons_append, exec_cons]
    constructor
    · rintro ⟨s₁, evs, tr', hs, he, rfl⟩
      obtain ⟨s', tr₁, tr₂, h₁, h₂, rfl⟩ := ih.1 he
      exact ⟨s', evs ++ tr₁, tr₂, exec_cons.2 ⟨s₁, evs, tr₁, hs, h₁, rfl⟩, h₂, by simp⟩
    · rintro ⟨s', tr₁, tr₂, h₁, h₂, rfl⟩
      obtain ⟨s₁, evs, tr', hs, he, rfl⟩ := exec_cons.1 h₁
      exact ⟨s₁, evs, tr' ++ tr₂, hs, ih.2 ⟨s', tr', tr₂, he, h₂, rfl⟩, by simp⟩

/-- A run on fixed actions, by computation. -/
theorem exists_of_any {s : σ} {acts : List α} {p : σ × List ε → Prop} [DecidablePred p]
    (h : (M.exec s acts).any (fun r => decide (p r)) = true) :
    ∃ s' tr, M.exec s acts = some (s', tr) ∧ p (s', tr) := by
  obtain ⟨⟨s', tr⟩, hrun, hp⟩ := (Option.any_eq_true _ _).1 h
  exact ⟨s', tr, hrun, of_decide_eq_true hp⟩

theorem exec_singleton {s s' : σ} {a : α} {tr : List ε} :
    M.exec s [a] = some (s', tr) ↔ M.step s a = some (s', tr) := by
  rw [exec_cons]
  constructor
  · rintro ⟨s₁, evs, tr', hs, he, rfl⟩
    obtain ⟨rfl, rfl⟩ : s₁ = s' ∧ [] = tr' := by simpa using he
    simpa using hs
  · intro h
    exact ⟨s', tr, [], h, rfl, by simp⟩

theorem exec_snoc {s s'' : σ} {acts : List α} {a : α} {tr : List ε} :
    M.exec s (acts ++ [a]) = some (s'', tr) ↔
      ∃ s' tr' evs, M.exec s acts = some (s', tr') ∧ M.step s' a = some (s'', evs) ∧
        tr = tr' ++ evs := by
  simp only [exec_append, exec_singleton]

/-- A run through one of its actions. -/
theorem exec_through {s s'' : σ} {pre post : List α} {a : α} {tr : List ε} :
    M.exec s (pre ++ a :: post) = some (s'', tr) ↔
      ∃ s₁ tr₁ s₂ evs tr₂, M.exec s pre = some (s₁, tr₁) ∧ M.step s₁ a = some (s₂, evs) ∧
        M.exec s₂ post = some (s'', tr₂) ∧ tr = tr₁ ++ (evs ++ tr₂) := by
  simp only [exec_append, exec_cons]
  constructor
  · rintro ⟨s₁, tr₁, _, hpre, ⟨s₂, evs, tr₂, hs, hpost, rfl⟩, rfl⟩
    exact ⟨s₁, tr₁, s₂, evs, tr₂, hpre, hs, hpost, rfl⟩
  · rintro ⟨s₁, tr₁, s₂, evs, tr₂, hpre, hs, hpost, rfl⟩
    exact ⟨s₁, tr₁, evs ++ tr₂, hpre, ⟨s₂, evs, tr₂, hs, hpost, rfl⟩, rfl⟩

variable (M) in
/-- Every action of the run is taken in a state, and after a trace, where it meets the condition `C`. -/
def AllSteps (C : σ → List ε → α → Prop) (s : σ) (acts : List α) : Prop :=
  ∀ pre a post s' tr, acts = pre ++ a :: post → M.exec s pre = some (s', tr) → C s' tr a

theorem AllSteps.of_append {C : σ → List ε → α → Prop} {s : σ} {acts acts' : List α}
    (h : M.AllSteps C s (acts ++ acts')) : M.AllSteps C s acts := by
  rintro pre a post s' tr rfl he
  exact h pre a (post ++ acts') s' tr (by simp) he

@[simp] theorem allSteps_nil {C : σ → List ε → α → Prop} {s : σ} : M.AllSteps C s [] := by
  intro pre a post s' tr hsplit
  simp at hsplit

theorem allSteps_snoc {C : σ → List ε → α → Prop} {s : σ} {a : α} {acts : List α} :
    M.AllSteps C s (acts ++ [a]) ↔
      M.AllSteps C s acts ∧ ∀ s' tr, M.exec s acts = some (s', tr) → C s' tr a := by
  constructor
  · exact fun h => ⟨h.of_append, fun s' tr he => h acts a [] s' tr rfl he⟩
  · rintro ⟨h, hlast⟩ pre b post s' tr hsplit he
    rcases List.eq_nil_or_concat post with rfl | ⟨post', x, rfl⟩
    · obtain ⟨rfl, hb⟩ := List.append_inj' hsplit rfl
      obtain rfl : a = b := by simpa using hb
      exact hlast s' tr he
    · rw [List.concat_eq_append, ← List.cons_append, ← List.append_assoc] at hsplit
      exact h pre b post' s' tr (List.append_inj' hsplit rfl).1 he

/-- What holds at first, and is preserved by every step that meets `C`, holds after every run whose
steps all meet `C`. -/
theorem invariant_of_allSteps {C : σ → List ε → α → Prop} {I : σ → List ε → Prop} {s₀ : σ}
    (h0 : I s₀ [])
    (hstep : ∀ s tr a s' evs, I s tr → C s tr a → M.step s a = some (s', evs) → I s' (tr ++ evs))
    {acts : List α} {s : σ} {tr : List ε} (hC : M.AllSteps C s₀ acts)
    (h : M.exec s₀ acts = some (s, tr)) : I s tr := by
  induction acts using List.reverseRecOn generalizing s tr with
  | nil =>
    obtain ⟨rfl, rfl⟩ : s₀ = s ∧ [] = tr := by simpa using h
    exact h0
  | append_singleton acts a ih =>
    obtain ⟨s', tr', evs, he, hs, rfl⟩ := exec_snoc.1 h
    exact hstep s' tr' a s evs (ih hC.of_append he) (hC acts a [] s' tr' rfl he) hs

/-- What holds at first, and is preserved by every step, holds after every run. -/
theorem invariant {I : σ → List ε → Prop} {s₀ : σ} (h0 : I s₀ [])
    (hstep : ∀ s tr a s' evs, I s tr → M.step s a = some (s', evs) → I s' (tr ++ evs))
    {acts : List α} {s : σ} {tr : List ε} (h : M.exec s₀ acts = some (s, tr)) : I s tr :=
  invariant_of_allSteps (C := fun _ _ _ => True) h0
    (fun s tr a s' evs hI _ hs => hstep s tr a s' evs hI hs)
    (fun _ _ _ _ _ _ _ => trivial) h

/-- Two conditions on steps that agree as long as all steps so far have met the second are met by the
same runs. `I` is what the second condition keeps up. -/
theorem allSteps_iff {C D : σ → List ε → α → Prop} {I : σ → List ε → Prop} {s₀ : σ}
    (h0 : I s₀ [])
    (hstep : ∀ s tr a s' evs, I s tr → D s tr a → M.step s a = some (s', evs) → I s' (tr ++ evs))
    (hCD : ∀ s tr a, I s tr → (C s tr a ↔ D s tr a)) (acts : List α) :
    M.AllSteps C s₀ acts ↔ M.AllSteps D s₀ acts := by
  induction acts using List.reverseRecOn with
  | nil => exact iff_of_true allSteps_nil allSteps_nil
  | append_singleton acts a ih =>
    rw [allSteps_snoc, allSteps_snoc, ih]
    refine and_congr_right fun hD => forall_congr' fun s => forall_congr' fun tr => ?_
    exact imp_congr_right fun he => hCD s tr a (invariant_of_allSteps h0 hstep hD he)

/-- A safety property of the trace as a condition on the steps: it holds if every step meets the
condition that decides the property for the events of this step. -/
theorem eachGiven_iff_allSteps {P : List ε → ε → Prop} {C : σ → List ε → α → Prop}
    {I : σ → List ε → Prop} {s₀ : σ} (h0 : I s₀ [])
    (hI : ∀ s tr a s' evs, I s tr → M.step s a = some (s', evs) → I s' (tr ++ evs))
    (hstep : ∀ s tr a s' evs, I s tr → M.step s a = some (s', evs) →
      (Trace.EachGiven (fun pre e => P (tr ++ pre) e) evs ↔ C s tr a))
    {acts : List α} {s : σ} {tr : List ε} (h : M.exec s₀ acts = some (s, tr)) :
    Trace.EachGiven P tr ↔ M.AllSteps C s₀ acts := by
  induction acts using List.reverseRecOn generalizing s tr with
  | nil =>
    obtain ⟨-, rfl⟩ : s₀ = s ∧ [] = tr := by simpa using h
    exact iff_of_true Trace.eachGiven_nil allSteps_nil
  | append_singleton acts a ih =>
    obtain ⟨s', tr', evs, he, hs, rfl⟩ := exec_snoc.1 h
    rw [Trace.eachGiven_append, allSteps_snoc, ih he, hstep s' tr' a s evs (invariant h0 hI he) hs]
    simp [he]

/-! ## Two runs -/

/-- As long as the first trace keeps `G`, a second run can follow the first one action for action and
keep the relation `R`. -/
theorem lockstep {A : α → α → Prop} (G : List ε → Prop) (R : σ → List ε → σ → List ε → Prop)
    (hG : ∀ tr evs, G (tr ++ evs) → G tr)
    (hstep : ∀ s tr t ur a b s' evs, R s tr t ur → A a b → M.step s a = some (s', evs) →
      G (tr ++ evs) → ∃ t' evs', M.step t b = some (t', evs') ∧ R s' (tr ++ evs) t' (ur ++ evs'))
    {acts acts' : List α} (hA : List.Forall₂ A acts acts') {s s' t : σ} {tr ur evs : List ε}
    (hR : R s tr t ur) (h : M.exec s acts = some (s', evs)) (hg : G (tr ++ evs)) :
    ∃ t' evs', M.exec t acts' = some (t', evs') ∧ R s' (tr ++ evs) t' (ur ++ evs') := by
  induction hA generalizing s t tr ur evs with
  | nil =>
    obtain ⟨rfl, rfl⟩ : s = s' ∧ [] = evs := by simpa using h
    exact ⟨t, [], rfl, by simpa using hR⟩
  | @cons a b acts acts' hab _ ih =>
    obtain ⟨s₁, evs₁, evs₂, hs, he, rfl⟩ := exec_cons.1 h
    rw [← List.append_assoc] at hg
    obtain ⟨t₁, evs₁', ht, hR₁⟩ := hstep s tr t ur a b s₁ evs₁ hR hab hs (hG _ _ hg)
    obtain ⟨t', evs₂', he', hR'⟩ := ih hR₁ he hg
    refine ⟨t', evs₁' ++ evs₂', exec_cons.2 ⟨t₁, evs₁', evs₂', ht, he', rfl⟩, ?_⟩
    rwa [← List.append_assoc, ← List.append_assoc]

/-- If every step of `M` can be followed by some run of `N` that keeps the relation `R`, every run
can. -/
theorem simulated_by {σ' α' ε' : Type*} {N : Machine σ' α' ε'} (R : σ → List ε → σ' → List ε' → Prop)
    (hstep : ∀ s tr t ur a s' evs, R s tr t ur → M.step s a = some (s', evs) →
      ∃ bs t' evs', N.exec t bs = some (t', evs') ∧ R s' (tr ++ evs) t' (ur ++ evs'))
    {s₀ s : σ} {t₀ : σ'} {acts : List α} {tr : List ε} (h0 : R s₀ [] t₀ [])
    (h : M.exec s₀ acts = some (s, tr)) : ∃ bs t ur, N.exec t₀ bs = some (t, ur) ∧ R s tr t ur := by
  induction acts using List.reverseRecOn generalizing s tr with
  | nil =>
    obtain ⟨rfl, rfl⟩ : s₀ = s ∧ [] = tr := by simpa using h
    exact ⟨[], t₀, [], rfl, h0⟩
  | append_singleton acts a ih =>
    obtain ⟨s', tr', evs, he, hs, rfl⟩ := exec_snoc.1 h
    obtain ⟨bs, t, ur, hN, hR⟩ := ih he
    obtain ⟨bs', t', evs', hN', hR'⟩ := hstep s' tr' t ur a s evs hR hs
    exact ⟨bs ++ bs', t', ur ++ evs', exec_append.2 ⟨t, ur, evs', hN, hN', rfl⟩, hR'⟩

/-! ## Observations -/

variable {β : Type*}

variable (M) in
/-- What `f` makes of the steps of a run. It sees the state before a step, the action and the events
of the step. -/
def observe (f : σ → α → List ε → List β) (s : σ) : List α → List β
  | [] => []
  | a :: acts => (M.step s a).elim [] fun r => f s a r.2 ++ observe f r.1 acts

theorem observe_append {f : σ → α → List ε → List β} {s s' : σ} {acts : List α} {tr : List ε}
    (h : M.exec s acts = some (s', tr)) (acts' : List α) :
    M.observe f s (acts ++ acts') = M.observe f s acts ++ M.observe f s' acts' := by
  induction acts generalizing s tr with
  | nil =>
    obtain ⟨rfl, -⟩ : s = s' ∧ [] = tr := by simpa using h
    rfl
  | cons b acts ih =>
    obtain ⟨s₁, evs₁, tr', hb, he, rfl⟩ := exec_cons.1 h
    rw [List.cons_append, observe, observe, hb, Option.elim_some, Option.elim_some, ih he,
      List.append_assoc]

theorem observe_singleton {f : σ → α → List ε → List β} {s s' : σ} {a : α} {evs : List ε}
    (hs : M.step s a = some (s', evs)) : M.observe f s [a] = f s a evs := by
  simp [observe, hs]

theorem observe_snoc {f : σ → α → List ε → List β} {s s' s'' : σ} {acts : List α} {a : α}
    {tr evs : List ε} (h : M.exec s acts = some (s', tr)) (hs : M.step s' a = some (s'', evs)) :
    M.observe f s (acts ++ [a]) = M.observe f s acts ++ f s' a evs := by
  rw [observe_append h, observe_singleton hs]

/-- Observing in two stages. -/
theorem observe_map {γ : Type*} (f : σ → α → List ε → List β) (g : β → γ) (s : σ) (acts : List α) :
    M.observe (fun s a evs => (f s a evs).map g) s acts = (M.observe f s acts).map g := by
  induction acts generalizing s with
  | nil => rfl
  | cons a acts ih =>
    rw [observe, observe]
    cases M.step s a with
    | none => rfl
    | some r => rw [Option.elim_some, Option.elim_some, ih, List.map_append]

/-- What holds at first, and is preserved by every step together with what is observed of it, holds
after every run. -/
theorem invariant_observe {f : σ → α → List ε → List β} {I : σ → List ε → List β → Prop} {s₀ : σ}
    (h0 : I s₀ [] [])
    (hstep : ∀ s tr obs a s' evs, I s tr obs → M.step s a = some (s', evs) →
      I s' (tr ++ evs) (obs ++ f s a evs))
    {acts : List α} {s : σ} {tr : List ε} (h : M.exec s₀ acts = some (s, tr)) :
    I s tr (M.observe f s₀ acts) := by
  induction acts using List.reverseRecOn generalizing s tr with
  | nil =>
    obtain ⟨rfl, rfl⟩ : s₀ = s ∧ [] = tr := by simpa using h
    exact h0
  | append_singleton acts a ih =>
    obtain ⟨s', tr', evs, he, hs, rfl⟩ := exec_snoc.1 h
    rw [observe_snoc he hs]
    exact hstep s' tr' _ a s evs (ih he) hs

end Machine
