import NicObFw.Lib.Machine

/-!
# Programs among other parties

A sequential program that shares its state with other parties, which may take steps between any two of
its own. What the other parties do to the state is bounded by a relation, the rely; what the program
does to it by another one, the guarantee. A program that keeps its guarantee under this rely does so in
every run among parties that keep to the rely, whatever the interleaving.
-/

/-- The rest of a sequential program over states `σ`: finished with a value, or about to take an atomic
step. A step is given an answer `ω` from outside, and hands a result to what follows. -/
inductive Thread (ω σ : Type) (α : Type) : Type 1 where
  | ret (a : α)
  | atomic {ρ : Type} (f : ω → σ → σ × ρ) (k : ρ → Thread ω σ α)

namespace Thread

variable {ω σ α β ρ ε : Type}

/-- Run `t`, then `k` on its value. -/
def bind (t : Thread ω σ α) (k : α → Thread ω σ β) : Thread ω σ β :=
  match t with
  | ret a => k a
  | atomic f k' => atomic f fun r => bind (k' r) k

instance : Monad (Thread ω σ) where
  pure := ret
  bind := bind

@[simp] theorem pure_eq (a : α) : (pure a : Thread ω σ α) = ret a := rfl

@[simp] theorem ret_bind (a : α) (k : α → Thread ω σ β) : ret a >>= k = k a := rfl

@[simp] theorem atomic_bind (f : ω → σ → σ × ρ) (k : ρ → Thread ω σ α) (k' : α → Thread ω σ β) :
    atomic f k >>= k' = atomic f fun r => k r >>= k' := rfl

/-- One atomic step. -/
def act (f : ω → σ → σ × ρ) : Thread ω σ ρ := atomic f ret

@[simp] theorem act_bind (f : ω → σ → σ × ρ) (k : ρ → Thread ω σ β) : act f >>= k = atomic f k := rfl

/-! ## Rely and guarantee -/

variable {A : ω → Prop} {R G : σ → σ → Prop} {Q Q' : α → σ → Prop}

variable (A R G) in
/-- From the state `s` on, as long as the answers are in `A` and the steps of the other parties are in
the rely `R`, every step of the program is in the guarantee `G`, and its value and the state when it
has finished are in `Q`. -/
def Meets (Q : α → σ → Prop) : Thread ω σ α → σ → Prop
  | ret a, s => ∀ s', R s s' → Q a s'
  | atomic f k, s => ∀ s', R s s' → ∀ answer, A answer →
      G s' (f answer s').1 ∧ (k (f answer s').2).Meets Q (f answer s').1

/-- Steps of the other parties do not matter. -/
theorem Meets.stable (htrans : ∀ s s' s'', R s s' → R s' s'' → R s s'') {t : Thread ω σ α} {s s' : σ}
    (h : t.Meets A R G Q s) (hs : R s s') : t.Meets A R G Q s' := by
  cases t with
  | ret a => exact fun s'' hs' => h s'' (htrans _ _ _ hs hs')
  | atomic f k => exact fun s'' hs' => h s'' (htrans _ _ _ hs hs')

theorem Meets.mono {t : Thread ω σ α} {s : σ} (h : t.Meets A R G Q s)
    (hQ : ∀ a s', Q a s' → Q' a s') : t.Meets A R G Q' s := by
  induction t generalizing s with
  | ret a => exact fun s' hs => hQ a s' (h s' hs)
  | atomic f k ih =>
    intro s' hs answer ha
    obtain ⟨hG, hk⟩ := h s' hs answer ha
    exact ⟨hG, ih _ hk⟩

/-- Sequencing. -/
theorem Meets.bind (hrefl : ∀ s, R s s) {P : β → σ → Prop} {t : Thread ω σ α}
    {k : α → Thread ω σ β} {s : σ} (h : t.Meets A R G Q s)
    (hk : ∀ a s', Q a s' → (k a).Meets A R G P s') : (t >>= k).Meets A R G P s := by
  induction t generalizing s with
  | ret a => exact hk a s (h s (hrefl s))
  | atomic f k' ih =>
    intro s' hs answer ha
    obtain ⟨hG, hk'⟩ := h s' hs answer ha
    exact ⟨hG, ih _ hk'⟩

/-- A value, where what is known of the state is stable. -/
theorem Meets.ret {P : σ → Prop} (hP : ∀ s s', P s → R s s' → P s') {a : α} {s : σ} (hs : P s)
    (hQ : ∀ s', P s' → Q a s') : (Thread.ret a : Thread ω σ α).Meets A R G Q s :=
  fun s' hR => hQ s' (hP s s' hs hR)

/-- A step, where what is known of the state is stable. -/
theorem Meets.atomic {P : σ → Prop} (hP : ∀ s s', P s → R s s' → P s') {f : ω → σ → σ × ρ}
    {k : ρ → Thread ω σ α} {s : σ} (hs : P s)
    (hf : ∀ s' answer, P s' → A answer →
      G s' (f answer s').1 ∧ (k (f answer s').2).Meets A R G Q (f answer s').1) :
    (Thread.atomic f k).Meets A R G Q s :=
  fun s' hR answer ha => hf s' answer (hP s s' hs hR) ha

/-! ## Runs -/

/-- The program takes its next step, with this answer. -/
def step (t : Thread ω σ α) (answer : ω) (s : σ) : Option (Thread ω σ α × σ) :=
  match t with
  | Thread.ret _ => none
  | Thread.atomic f k => some (k (f answer s).2, (f answer s).1)

/-- The program among the parties of the machine `M`. An action is a step of the program, with the
answer that it is given, or one of the other parties. -/
def among {γ : Type} (M : Machine σ γ ε) : Machine (Thread ω σ α × σ) (ω ⊕ γ) ε where
  step s
    | .inl answer => (s.1.step answer s.2).map fun r => (r, [])
    | .inr a => (M.step s.2 a).map fun r => ((s.1, r.1), r.2)

variable {γ : Type} {M : Machine σ γ ε} {I : σ → List ε → Prop}

/-- The answers that the program was given. -/
def answers (acts : List (ω ⊕ γ)) : List ω := acts.filterMap Sum.getLeft?

/-- The program keeps its guarantee and the other parties the rely, in every run. -/
theorem Meets.invariant (htrans : ∀ s s' s'', R s s' → R s' s'' → R s s'') (hrefl : ∀ s, R s s)
    (hrely : ∀ s tr a s' evs, I s tr → M.step s a = some (s', evs) → R s s' ∧ I s' (tr ++ evs))
    (hguar : ∀ s tr s', I s tr → G s s' → I s' tr) {t₀ t : Thread ω σ α} {s₀ s : σ}
    {acts : List (ω ⊕ γ)} {tr : List ε} (h0 : I s₀ []) (hmeets : t₀.Meets A R G Q s₀)
    (hA : ∀ answer ∈ answers acts, A answer)
    (h : (among M).exec (t₀, s₀) acts = some ((t, s), tr)) : t.Meets A R G Q s ∧ I s tr := by
  induction acts using List.reverseRecOn generalizing t s tr with
  | nil =>
    obtain ⟨⟨rfl, rfl⟩, rfl⟩ : (t₀ = t ∧ s₀ = s) ∧ [] = tr := by simpa using h
    exact ⟨hmeets, h0⟩
  | append_singleton acts a ih =>
    obtain ⟨⟨t', s'⟩, tr', evs, he, hs, rfl⟩ := Machine.exec_snoc.1 h
    have hA' : ∀ answer ∈ answers acts, A answer := fun answer ha =>
      hA answer (by simp [answers] at ha ⊢; exact Or.inl ha)
    obtain ⟨hm, hI⟩ := ih hA' he
    cases a with
    | inl answer =>
      have ha : A answer := hA answer (by simp [answers])
      cases t' with
      | ret b => simp [among, step] at hs
      | atomic f k =>
        obtain ⟨⟨rfl, rfl⟩, rfl⟩ :
            (k (f answer s').2 = t ∧ (f answer s').1 = s) ∧ [] = evs := by
          simpa [among, step] using hs
        obtain ⟨hG, hk⟩ := hm s' (hrefl s') answer ha
        exact ⟨hk, by rw [List.append_nil]; exact hguar _ _ _ hI hG⟩
    | inr a =>
      obtain ⟨⟨s'', evs'⟩, hM, heq⟩ := Option.map_eq_some_iff.1 hs
      obtain ⟨⟨rfl, rfl⟩, rfl⟩ : (t' = t ∧ s'' = s) ∧ evs' = evs := by simpa using heq
      obtain ⟨hR, hI'⟩ := hrely _ _ _ _ _ hI hM
      exact ⟨hm.stable htrans hR, hI'⟩

theorem Meets.of_ret (hrefl : ∀ s, R s s) {a : α} {s : σ}
    (h : (Thread.ret a : Thread ω σ α).Meets A R G Q s) : Q a s :=
  h s (hrefl s)

/-! ## Length -/

/-- The program has finished after at most `n` steps, whatever the answers and the other parties. -/
def Within : ℕ → Thread ω σ α → Prop
  | _, ret _ => True
  | 0, atomic _ _ => False
  | n + 1, atomic _ k => ∀ r, (k r).Within n

theorem Within.mono {n m : ℕ} {t : Thread ω σ α} (h : t.Within n) (hnm : n ≤ m) : t.Within m := by
  induction t generalizing n m with
  | ret a => cases m <;> exact trivial
  | atomic f k ih =>
    cases n with
    | zero => exact h.elim
    | succ n =>
      cases m with
      | zero => omega
      | succ m => exact fun r => ih r (h r) (by omega)

theorem Within.bind {n m : ℕ} {t : Thread ω σ α} {k : α → Thread ω σ β} (h : t.Within n)
    (hk : ∀ a, (k a).Within m) : (t >>= k).Within (n + m) := by
  induction t generalizing n with
  | ret a => exact (hk a).mono (by omega)
  | atomic f k' ih =>
    cases n with
    | zero => exact h.elim
    | succ n =>
      rw [atomic_bind, Nat.succ_add]
      exact fun r => ih r (h r)

theorem within_step {n : ℕ} {t t' : Thread ω σ α} {answer : ω} {s s' : σ} (h : t.Within (n + 1))
    (hs : t.step answer s = some (t', s')) : t'.Within n := by
  cases t with
  | ret a => simp [step] at hs
  | atomic f k =>
    obtain ⟨rfl, -⟩ : k (f answer s).2 = t' ∧ _ := by simpa [step] using hs
    exact h _

/-- The steps that a run leaves to a program. -/
theorem Within.run {n : ℕ} {t₀ t : Thread ω σ α} {s₀ s : σ} {acts : List (ω ⊕ γ)} {tr : List ε}
    (h : t₀.Within n) (hrun : (among M).exec (t₀, s₀) acts = some ((t, s), tr)) :
    (answers acts).length ≤ n ∧ t.Within (n - (answers acts).length) := by
  induction acts using List.reverseRecOn generalizing t s tr with
  | nil =>
    obtain ⟨⟨rfl, -⟩, -⟩ : (t₀ = t ∧ s₀ = s) ∧ [] = tr := by simpa using hrun
    exact ⟨Nat.zero_le _, h⟩
  | append_singleton acts a ih =>
    obtain ⟨⟨t', s'⟩, tr', evs, he, hs, rfl⟩ := Machine.exec_snoc.1 hrun
    obtain ⟨hlen, hw⟩ := ih he
    cases a with
    | inl answer =>
      have happ : (answers (acts ++ [Sum.inl answer]) : List ω).length = (answers acts).length + 1 := by
        simp [answers]
      obtain ⟨r, hr, heq⟩ := Option.map_eq_some_iff.1 hs
      obtain ⟨rfl, -⟩ : r = (t, s) ∧ [] = evs := by simpa using heq
      rw [happ]
      cases hn : n - (answers acts).length with
      | zero =>
        rw [hn] at hw
        cases t' with
        | ret b => simp [step] at hr
        | atomic f k => exact hw.elim
      | succ m =>
        rw [hn] at hw
        have := within_step hw hr
        exact ⟨by omega, by rwa [show n - ((answers acts).length + 1) = m by omega]⟩
    | inr a =>
      have happ : (answers (acts ++ [Sum.inr a]) : List ω) = answers acts := by simp [answers]
      obtain ⟨r, -, heq⟩ := Option.map_eq_some_iff.1 hs
      obtain ⟨⟨rfl, -⟩, -⟩ : (t' = t ∧ r.1 = s) ∧ r.2 = evs := by simpa using heq
      rw [happ]
      exact ⟨hlen, hw⟩

end Thread
