import NicObFw.Lib.Trace

/-!
# Programs that act on a world and leave a trace

A `Traced` program runs in a world it does not control, reports what it does, and ends with a value or
an error, or is still running when it has used up the turns it was given. A `Triple` relates the trace
and the world before a program to those after it; it speaks of programs that are still running as
well, so a safety property of the trace can be proved for every point of a run.
-/

universe u

/-- How far a program has come. -/
inductive Ret (ε α : Type*) where
  | done (a : α)
  | error (e : ε)
  | running
deriving DecidableEq

/-- What a run of a program leaves behind. -/
structure Outcome (W τ ε α : Type*) where
  ret : Ret ε α
  trace : List τ
  world : W

/-- A program with results `α` and errors `ε` that acts on a world `W` and reports entries `τ`. -/
def Traced (W τ ε α : Type*) := W → Outcome W τ ε α

namespace Traced

variable {W τ ε ε' : Type*} {α β : Type u}

/-- Run `m`, then `f` on its result. -/
def bind (m : Traced W τ ε α) (f : α → Traced W τ ε β) : Traced W τ ε β := fun w =>
  let o := m w
  match o.ret with
  | .done a => let o' := f a o.world; ⟨o'.ret, o.trace ++ o'.trace, o'.world⟩
  | .error e => ⟨.error e, o.trace, o.world⟩
  | .running => ⟨.running, o.trace, o.world⟩

instance : Monad (Traced W τ ε) where
  pure a := fun w => ⟨.done a, [], w⟩
  bind := bind

/-- End with an error. -/
def fail (e : ε) : Traced W τ ε α := fun w => ⟨.error e, [], w⟩

/-- Be still running. -/
def running : Traced W τ ε α := fun w => ⟨.running, [], w⟩

/-- Act on the world. -/
def act (f : W → α × W) : Traced W τ ε α := fun w => ⟨.done (f w).1, [], (f w).2⟩

/-- Report an entry. -/
def emit (e : τ) : Traced W τ ε Unit := fun w => ⟨.done (), [e], w⟩

/-- Run `m` and report how it ended. -/
def reported (g : Ret ε α → τ) (m : Traced W τ ε α) : Traced W τ ε α := fun w =>
  let o := m w
  ⟨o.ret, o.trace ++ [g o.ret], o.world⟩

/-- Run `m` and hand its error to what follows. -/
def attempt (m : Traced W τ ε α) : Traced W τ ε' (Except ε α) := fun w =>
  let o := m w
  match o.ret with
  | .done a => ⟨.done (.ok a), o.trace, o.world⟩
  | .error e => ⟨.done (.error e), o.trace, o.world⟩
  | .running => ⟨.running, o.trace, o.world⟩

/-- After a trace and in a world that satisfy `P`, the program leads to a result, a trace and a world
that satisfy `Q`. -/
def Triple (P : List τ → W → Prop) (m : Traced W τ ε α) (Q : Ret ε α → List τ → W → Prop) : Prop :=
  ∀ tr w, P tr w → Q (m w).ret (tr ++ (m w).trace) (m w).world

variable {P : List τ → W → Prop} {Q Q' R : Ret ε α → List τ → W → Prop}
  {S : Ret ε β → List τ → W → Prop}

/-- A program that starts in one world, with nothing reported yet. -/
theorem triple_from_start {m : Traced W τ ε α} {w : W} :
    Triple (fun tr w' => tr = [] ∧ w' = w) m Q ↔ Q (m w).ret (m w).trace (m w).world := by
  constructor
  · exact fun h => h [] w ⟨rfl, rfl⟩
  · rintro h _ _ ⟨rfl, rfl⟩
    exact h

theorem Triple.post {m : Traced W τ ε α} (h : Triple P m Q)
    (hQ : ∀ r tr w, Q r tr w → Q' r tr w) : Triple P m Q' :=
  fun tr w hp => hQ _ _ _ (h tr w hp)

/-- A premise that does not speak of trace and world can be assumed. -/
theorem triple_of_imp {m : Traced W τ ε α} {φ : Prop} (h : φ → Triple P m Q) :
    Triple (fun tr w => φ ∧ P tr w) m Q :=
  fun tr w hp => h hp.1 tr w hp.2

theorem triple_pure {a : α} (h : ∀ tr w, P tr w → Q (.done a) tr w) :
    Triple P (pure a : Traced W τ ε α) Q := by
  intro tr w hp
  show Q (.done a) (tr ++ []) w
  rw [List.append_nil]
  exact h tr w hp

theorem triple_fail {e : ε} (h : ∀ tr w, P tr w → Q (.error e) tr w) :
    Triple P (fail e : Traced W τ ε α) Q := by
  intro tr w hp
  show Q (.error e) (tr ++ []) w
  rw [List.append_nil]
  exact h tr w hp

theorem triple_running (h : ∀ tr w, P tr w → Q .running tr w) :
    Triple P (running : Traced W τ ε α) Q := by
  intro tr w hp
  show Q .running (tr ++ []) w
  rw [List.append_nil]
  exact h tr w hp

theorem triple_act {f : W → α × W} (h : ∀ tr w, P tr w → Q (.done (f w).1) tr (f w).2) :
    Triple P (act f : Traced W τ ε α) Q := by
  intro tr w hp
  show Q (.done (f w).1) (tr ++ []) (f w).2
  rw [List.append_nil]
  exact h tr w hp

/-- Sequencing: errors and unfinished runs of the first program are those of the whole. -/
theorem triple_bind {m : Traced W τ ε α} {f : α → Traced W τ ε β} (hm : Triple P m R)
    (hf : ∀ a, Triple (R (.done a)) (f a) S)
    (herr : ∀ e tr w, R (.error e) tr w → S (.error e) tr w)
    (hrun : ∀ tr w, R .running tr w → S .running tr w) : Triple P (m >>= f) S := by
  intro tr w hp
  have h := hm tr w hp
  show S (bind m f w).ret (tr ++ (bind m f w).trace) (bind m f w).world
  cases hr : (m w).ret with
  | done a =>
    rw [hr] at h
    have hfa := hf a _ _ h
    rw [List.append_assoc] at hfa
    simpa only [bind, hr] using hfa
  | error e =>
    rw [hr] at h
    simpa only [bind, hr] using herr e _ _ h
  | running =>
    rw [hr] at h
    simpa only [bind, hr] using hrun _ _ h

/-- What `Q` says of a program that ends early, and `M` of one that comes to a result. -/
def Ends (M : α → List τ → W → Prop) (Q : Ret ε β → List τ → W → Prop) :
    Ret ε α → List τ → W → Prop
  | .done a => M a
  | .error e => Q (.error e)
  | .running => Q .running

/-- Sequencing, with what holds in between. -/
theorem triple_seq {m : Traced W τ ε α} {f : α → Traced W τ ε β} {M : α → List τ → W → Prop}
    (hm : Triple P m (Ends M S)) (hf : ∀ a, Triple (M a) (f a) S) : Triple P (m >>= f) S :=
  triple_bind hm hf (fun _ _ _ h => h) (fun _ _ h => h)

/-- What holds however a program ends is used in a sequence. -/
theorem Triple.ends_of {m : Traced W τ ε α} {N : List τ → W → Prop} {M : α → List τ → W → Prop}
    (h : Triple P m fun _ => N) (hM : ∀ a tr w, N tr w → M a tr w)
    (hS : ∀ r tr w, N tr w → S r tr w) : Triple P m (Ends M S) := by
  refine h.post fun r tr w hn => ?_
  cases r with
  | done a => exact hM a tr w hn
  | error e => exact hS (.error e) tr w hn
  | running => exact hS .running tr w hn

theorem Triple.done_imp {m : Traced W τ ε α} {M M' : α → List τ → W → Prop}
    (h : Triple P m (Ends M S)) (hM : ∀ a tr w, M a tr w → M' a tr w) : Triple P m (Ends M' S) := by
  refine h.post fun r tr w hr => ?_
  cases r with
  | done a => exact hM a tr w hr
  | error e => exact hr
  | running => exact hr

theorem Triple.ends {m : Traced W τ ε α} {N : List τ → W → Prop} (h : Triple P m fun _ => N) :
    Triple P m (Ends (fun _ => N) (fun _ => N : Ret ε β → List τ → W → Prop)) :=
  h.ends_of (fun _ _ _ hn => hn) (fun _ _ _ hn => hn)

/-- No program mends a trace with an entry that was not allowed. -/
theorem triple_of_not_eachGiven {allowed : List τ → τ → Prop} (m : Traced W τ ε α) :
    Triple (fun tr _ => ¬ Trace.EachGiven allowed tr) m fun _ tr _ =>
      ¬ Trace.EachGiven allowed tr :=
  fun _ _ hno h => hno h.of_append

theorem triple_reported {g : Ret ε α → τ} {m : Traced W τ ε α} (h : Triple P m R)
    (hQ : ∀ r tr w, R r tr w → Q r (tr ++ [g r]) w) : Triple P (reported g m) Q := by
  intro tr w hp
  show Q (m w).ret (tr ++ ((m w).trace ++ [g (m w).ret])) (m w).world
  rw [← List.append_assoc]
  exact hQ _ _ _ (h tr w hp)

/-! ## Laws -/

theorem bind_done {m : Traced W τ ε α} {f : α → Traced W τ ε β} {w : W} {a : α}
    (h : (m w).ret = .done a) :
    (m >>= f) w = ⟨(f a (m w).world).ret, (m w).trace ++ (f a (m w).world).trace,
      (f a (m w).world).world⟩ := by
  show bind m f w = _
  simp only [bind, h]

theorem bind_error {m : Traced W τ ε α} {f : α → Traced W τ ε β} {w : W} {e : ε}
    (h : (m w).ret = .error e) : (m >>= f) w = ⟨.error e, (m w).trace, (m w).world⟩ := by
  show bind m f w = _
  simp only [bind, h]

theorem bind_running {m : Traced W τ ε α} {f : α → Traced W τ ε β} {w : W}
    (h : (m w).ret = .running) : (m >>= f) w = ⟨.running, (m w).trace, (m w).world⟩ := by
  show bind m f w = _
  simp only [bind, h]

/-- A sequence has a result if both programs have. -/
theorem ret_bind_eq_done {m : Traced W τ ε α} {f : α → Traced W τ ε β} {w : W} {b : β} :
    ((m >>= f) w).ret = .done b ↔
      ∃ a, (m w).ret = .done a ∧ (f a (m w).world).ret = .done b := by
  cases hr : (m w).ret with
  | done a => simp [bind_done hr]
  | error e => simp [bind_error hr]
  | running => simp [bind_running hr]

instance : LawfulMonad (Traced W τ ε) := LawfulMonad.mk' _
  (by
    intro α m
    funext w
    show bind m pure w = m w
    rcases hm : m w with ⟨r, tr, w'⟩
    cases r <;> simp [bind, hm, pure])
  (by
    intro α β a f
    funext w
    show bind (pure a) f w = f a w
    simp [bind, pure])
  (by
    intro α β γ m f g
    funext w
    show bind (bind m f) g w = bind m (fun a => bind (f a) g) w
    rcases hm : m w with ⟨r, tr, w'⟩
    cases r with
    | error e => simp [bind, hm]
    | running => simp [bind, hm]
    | done a =>
      rcases hf : f a w' with ⟨r', tr', w''⟩
      cases r' <;> simp [bind, hm, hf])

/-! ## Programs that do one thing after the other -/

variable {ι : Type*}

/-- What it leaves behind to do everything on a list, up to the first thing that does not come to a
result, if doing `i` can leave what `O i` says. -/
inductive InTurn (O : ι → Ret ε Unit → List τ → Prop) : List ι → Ret ε Unit → List τ → Prop
  | finished : InTurn O [] (.done ()) []
  | next (i : ι) (is : List ι) (ret : Ret ε Unit) (tr tr' : List τ) (hi : O i (.done ()) tr)
      (his : InTurn O is ret tr') : InTurn O (i :: is) ret (tr ++ tr')
  | stopped (i : ι) (is : List ι) (ret : Ret ε Unit) (tr : List τ) (hi : O i ret tr)
      (hret : ret ≠ .done ()) : InTurn O (i :: is) ret tr

theorem forM_inTurn {O : ι → Ret ε Unit → List τ → Prop} {f : ι → Traced W τ ε Unit}
    (h : ∀ i w, O i (f i w).ret (f i w).trace) (is : List ι) (w : W) :
    InTurn O is (forM is f w).ret (forM is f w).trace := by
  induction is generalizing w with
  | nil => exact .finished
  | cons i is ih =>
    have hi := h i w
    rw [List.forM_cons]
    cases hr : (f i w).ret with
    | done u =>
      rw [hr] at hi
      rw [bind_done hr]
      exact .next i is _ _ _ hi (ih _)
    | error e =>
      rw [hr] at hi
      rw [bind_error hr]
      exact .stopped i is _ _ hi (by simp)
    | running =>
      rw [hr] at hi
      rw [bind_running hr]
      exact .stopped i is _ _ hi (by simp)

/-- What is seen of such a trace is a prefix of what is to be seen of the list, and all of it if
everything is done. -/
theorem InTurn.observed {O : ι → Ret ε Unit → List τ → Prop} {γ : Type*} {g : List τ → List γ}
    {expected : ι → List γ} (happend : ∀ tr tr', g (tr ++ tr') = g tr ++ g tr') {is : List ι}
    (hdone : ∀ i ∈ is, ∀ tr, O i (.done ()) tr → g tr = expected i)
    (hstop : ∀ i ∈ is, ∀ ret tr, O i ret tr → g tr <+: expected i) {ret : Ret ε Unit} {tr : List τ}
    (h : InTurn O is ret tr) :
    g tr <+: is.flatMap expected ∧ (ret = .done () → g tr = is.flatMap expected) := by
  induction h with
  | finished =>
    have hnil : g [] = [] := by simpa using happend [] []
    exact ⟨by rw [hnil]; exact List.nil_prefix, fun _ => hnil⟩
  | next i is ret tr tr' hi his ih =>
    obtain ⟨hpre, hall⟩ := ih (fun j hj => hdone j (List.mem_cons_of_mem _ hj))
      fun j hj => hstop j (List.mem_cons_of_mem _ hj)
    rw [happend, hdone i List.mem_cons_self tr hi, List.flatMap_cons]
    exact ⟨(List.prefix_append_right_inj _).2 hpre, fun hret => by rw [hall hret]⟩
  | stopped i is ret tr hi hret =>
    rw [List.flatMap_cons]
    exact ⟨(hstop i List.mem_cons_self ret tr hi).trans (List.prefix_append _ _),
      fun hdone => absurd hdone hret⟩

/-! ## Two programs -/

/-- The outcomes agree in what they end with and in the world, and `R` relates their traces. -/
structure Alike {τ' : Type*} (R : List τ → List τ' → Prop) (o : Outcome W τ ε α)
    (o' : Outcome W τ' ε α) : Prop where
  ret : o.ret = o'.ret
  trace : R o.trace o'.trace
  world : o.world = o'.world

/-- Programs that do alike step by step do so in sequence. -/
theorem Alike.bind {τ' : Type*} {R : List τ → List τ' → Prop}
    (happend : ∀ tr tr' ur ur', R tr tr' → R ur ur' → R (tr ++ ur) (tr' ++ ur'))
    {m : Traced W τ ε α} {m' : Traced W τ' ε α} {f : α → Traced W τ ε β} {f' : α → Traced W τ' ε β}
    {w : W} (hm : Alike R (m w) (m' w)) (hf : ∀ a w, Alike R (f a w) (f' a w)) :
    Alike R ((m >>= f) w) ((m' >>= f') w) := by
  have hret := hm.ret
  cases hr : (m w).ret with
  | done a =>
    rw [hr] at hret
    rw [bind_done hr, bind_done hret.symm, hm.world]
    have hfa := hf a (m' w).world
    exact ⟨hfa.ret, happend _ _ _ _ hm.trace hfa.trace, hfa.world⟩
  | error e =>
    rw [hr] at hret
    rw [bind_error hr, bind_error hret.symm]
    exact ⟨rfl, hm.trace, hm.world⟩
  | running =>
    rw [hr] at hret
    rw [bind_running hr, bind_running hret.symm]
    exact ⟨rfl, hm.trace, hm.world⟩

/-! ## Programs that are given a number of turns -/

/-- From every world the program comes to an end, which is the same for every number of turns that is
large enough. -/
def Terminates (m : ℕ → Traced W τ ε α) : Prop :=
  ∀ w, ∃ o : Outcome W τ ε α, o.ret ≠ .running ∧ ∃ n, ∀ n', n ≤ n' → m n' w = o

theorem Terminates.exists_bound {m : ℕ → Traced W τ ε α} (h : Terminates m) (w : W) :
    ∃ n, ∀ n', n ≤ n' → (m n' w).ret ≠ .running := by
  obtain ⟨o, ho, n, hn⟩ := h w
  refine ⟨n, fun n' hle => ?_⟩
  rw [hn n' hle]
  exact ho

/-- A program that does not depend on the turns, and does end. -/
theorem terminates_const {m : Traced W τ ε α} (h : ∀ w, (m w).ret ≠ .running) :
    Terminates fun _ => m :=
  fun w => ⟨m w, h w, 0, fun _ _ => rfl⟩

theorem terminates_bind {m : ℕ → Traced W τ ε α} {f : ℕ → α → Traced W τ ε β} (hm : Terminates m)
    (hf : ∀ a, Terminates fun n => f n a) : Terminates fun n => m n >>= f n := by
  intro w
  obtain ⟨o, ho, n, hn⟩ := hm w
  cases hr : o.ret with
  | done a =>
    obtain ⟨o', ho', n', hn'⟩ := hf a o.world
    refine ⟨⟨o'.ret, o.trace ++ o'.trace, o'.world⟩, ho', max n n', fun k hk => ?_⟩
    show bind (m k) (f k) w = _
    simp only [bind, hn k (Nat.le_trans (Nat.le_max_left n n') hk), hr,
      hn' k (Nat.le_trans (Nat.le_max_right n n') hk)]
  | error e =>
    refine ⟨⟨.error e, o.trace, o.world⟩, by simp, n, fun k hk => ?_⟩
    show bind (m k) (f k) w = _
    simp only [bind, hn k hk, hr]
  | running => exact absurd hr ho

end Traced
