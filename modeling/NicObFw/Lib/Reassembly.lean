import Mathlib.Data.List.Chain
import Mathlib.Data.Nat.ModEq
import Mathlib.Tactic.Common

/-!
# Reassembly of fragmented messages

A message travels as a sequence of fragments. The first is marked `som`, the last `eom`, and the
sequence numbers of neighbouring fragments are consecutive modulo a fixed modulus. A receiver with
one reassembly context of bounded capacity keeps the fragments of the message being assembled (its
*open run*), restarts it on every `som`, and drops it on a gap or an overflow.

The results here say which suffixes of the received history the receiver holds and delivers
(`openRun_holds`, `delivered_iff`), when a delivered run is one of the messages that were sent
(`block_is_message`), and what a lossy channel can do to it (`contiguous_of_chain`).
-/

namespace Reassembly

/-- How the fragments `φ` of a message with payload elements `β` are marked. -/
structure Framing (φ β : Type*) where
  /-- The fragment starts a message. -/
  som : φ → Bool
  /-- The fragment ends a message. -/
  eom : φ → Bool
  /-- The sequence number of the fragment. -/
  seq : φ → ℕ
  /-- Sequence numbers count modulo this number. -/
  modulus : ℕ
  /-- The payload carried by the fragment. -/
  payload : φ → List β

variable {φ β : Type*} (F : Framing φ β) (cap : ℕ)

/-- `b` can stand directly after `a` inside one message. -/
def Follows (a b : φ) : Prop :=
  F.eom a = false ∧ F.som b = false ∧ F.seq b = (F.seq a + 1) % F.modulus

instance (a b : φ) : Decidable (Follows F a b) :=
  inferInstanceAs (Decidable (_ ∧ _ ∧ _))

/-- A message: the first fragment starts it, each fragment is followed by the one that continues it,
and the last fragment ends it. -/
structure WellFormed (m : List φ) : Prop where
  first : ∃ a ∈ m.head?, F.som a = true
  chain : m.IsChain (Follows F)
  last : ∃ z ∈ m.getLast?, F.eom z = true

instance (m : List φ) : Decidable (WellFormed F m) :=
  decidable_of_iff ((∃ a ∈ m.head?, F.som a = true) ∧ m.IsChain (Follows F) ∧
      ∃ z ∈ m.getLast?, F.eom z = true)
    ⟨fun ⟨hfirst, hchain, hlast⟩ => ⟨hfirst, hchain, hlast⟩, fun h => ⟨h.first, h.chain, h.last⟩⟩

/-- The payloads of the fragments `m`, joined in order. -/
def joined (m : List φ) : List β := m.flatMap F.payload

/-- The beginning of a message that fits the capacity: it starts with a `som` fragment, and each
fragment is followed by the one that continues it. -/
structure Started (m : List φ) : Prop where
  first : ∃ a ∈ m.head?, F.som a = true
  chain : m.IsChain (Follows F)
  fits : (joined F m).length ≤ cap

/-- A whole message that fits the capacity. -/
structure Message (m : List φ) : Prop extends Started F cap m where
  last : ∃ z ∈ m.getLast?, F.eom z = true

/-! ## The receiver -/

/-- The open run with the fragment `p` added, `[]` when `p` cannot be added to a run. -/
def accept (run : List φ) (p : φ) : List φ :=
  if F.som p then
    if (joined F [p]).length ≤ cap then [p] else []
  else
    match run.getLast? with
    | none => []
    | some a =>
      if F.seq p = (F.seq a + 1) % F.modulus ∧ (joined F (run ++ [p])).length ≤ cap then run ++ [p]
      else []

/-- The open run after the fragment `p`: a run that `p` completes is handed over. -/
def step (run : List φ) (p : φ) : List φ := if F.eom p then [] else accept F cap run p

/-- The message that the fragment `p` completes, if any. -/
def delivered (run : List φ) (p : φ) : Option (List φ) :=
  if F.eom p = true ∧ accept F cap run p ≠ [] then some (accept F cap run p) else none

/-- The open run after the history `h`. -/
def openRun (h : List φ) : List φ := h.foldl (step F cap) []

@[simp] theorem joined_nil : joined F [] = [] := rfl

@[simp] theorem joined_append (m₁ m₂ : List φ) : joined F (m₁ ++ m₂) = joined F m₁ ++ joined F m₂ := by
  simp [joined]

@[simp] theorem joined_singleton (p : φ) : joined F [p] = F.payload p := by simp [joined]

@[simp] theorem openRun_nil : openRun F cap [] = [] := rfl

@[simp] theorem openRun_snoc (h : List φ) (p : φ) :
    openRun F cap (h ++ [p]) = step F cap (openRun F cap h) p := by
  simp [openRun]

variable {F cap}

theorem Started.ne_nil {m : List φ} (h : Started F cap m) : m ≠ [] := by
  rintro rfl
  obtain ⟨a, ha, -⟩ := h.first
  simp at ha

/-- A run with something after its first fragment is a shorter run and a fragment that follows it. -/
theorem Started.of_snoc {m : List φ} {p : φ} (h : Started F cap (m ++ [p])) (hm : m ≠ []) :
    Started F cap m ∧ ∃ a ∈ m.getLast?, Follows F a p := by
  obtain ⟨a, ha, hsom⟩ := h.first
  obtain ⟨hc, -, hlink⟩ := List.isChain_append.1 h.chain
  obtain ⟨z, hz⟩ : ∃ z, z ∈ m.getLast? := by
    cases hl : m.getLast? with
    | none => exact absurd (List.getLast?_eq_none_iff.1 hl) hm
    | some z => exact ⟨z, rfl⟩
  refine ⟨⟨⟨a, ?_, hsom⟩, hc, ?_⟩, z, hz, hlink z hz p (by simp)⟩
  · rwa [List.head?_append_of_ne_nil _ hm] at ha
  · have := h.fits
    simp only [joined_append, List.length_append] at this
    omega

/-- Adding a fragment that follows the run, when it still fits. -/
theorem Started.snoc {m : List φ} {p : φ} (h : Started F cap m)
    (hp : ∃ a ∈ m.getLast?, Follows F a p) (hfit : (joined F (m ++ [p])).length ≤ cap) :
    Started F cap (m ++ [p]) := by
  obtain ⟨a, ha, hsom⟩ := h.first
  obtain ⟨z, hz, hzp⟩ := hp
  refine ⟨⟨a, ?_, hsom⟩, ?_, hfit⟩
  · rwa [List.head?_append_of_ne_nil _ h.ne_nil]
  · refine List.isChain_append.2 ⟨h.chain, List.isChain_singleton p, fun x hx y hy => ?_⟩
    obtain rfl : x = z := Option.mem_unique hx hz
    obtain rfl : p = y := by simpa using hy
    exact hzp

/-- What `accept` returns: nothing, a fresh run, or the old run extended by one fragment. -/
theorem accept_cases (F : Framing φ β) (cap : ℕ) (run : List φ) (p : φ) :
    accept F cap run p = [] ∨
    (F.som p = true ∧ (joined F [p]).length ≤ cap ∧ accept F cap run p = [p]) ∨
    (F.som p = false ∧ (∃ a ∈ run.getLast?, F.seq p = (F.seq a + 1) % F.modulus) ∧
      (joined F (run ++ [p])).length ≤ cap ∧ accept F cap run p = run ++ [p]) := by
  unfold accept
  cases hs : F.som p with
  | true =>
    by_cases hfit : (joined F [p]).length ≤ cap
    · exact Or.inr (Or.inl ⟨rfl, hfit, by simp only [hfit, if_true]⟩)
    · exact Or.inl (by simp only [hfit, if_true, if_false])
  | false =>
    cases hl : run.getLast? with
    | none => exact Or.inl (by simp)
    | some a =>
      by_cases hc : F.seq p = (F.seq a + 1) % F.modulus ∧ (joined F (run ++ [p])).length ≤ cap
      · refine Or.inr (Or.inr ⟨rfl, ⟨a, rfl, hc.1⟩, hc.2, ?_⟩)
        simp only [Bool.false_eq_true, if_false]
        rw [if_pos hc]
      · refine Or.inl ?_
        simp only [Bool.false_eq_true, if_false]
        rw [if_neg hc]

theorem accept_som {run : List φ} {p : φ} (hs : F.som p = true) (hfit : (joined F [p]).length ≤ cap) :
    accept F cap run p = [p] := by
  unfold accept
  simp only [hs, hfit, if_true]

theorem accept_next {run : List φ} {p a : φ} (ha : a ∈ run.getLast?) (hs : F.som p = false)
    (hseq : F.seq p = (F.seq a + 1) % F.modulus) (hfit : (joined F (run ++ [p])).length ≤ cap) :
    accept F cap run p = run ++ [p] := by
  unfold accept
  rw [Option.mem_def.1 ha]
  simp only [hs, Bool.false_eq_true, if_false]
  rw [if_pos ⟨hseq, hfit⟩]

theorem delivered_eq_some {run m : List φ} {p : φ} (h : delivered F cap run p = some m) :
    F.eom p = true ∧ m ≠ [] ∧ accept F cap run p = m := by
  unfold delivered at h
  split at h
  · rename_i hc
    obtain rfl : accept F cap run p = m := by simpa using h
    exact ⟨hc.1, hc.2, rfl⟩
  · exact absurd h (by simp)

/-- A delivered message fits the capacity. -/
theorem delivered_fits {run m : List φ} {p : φ} (h : delivered F cap run p = some m) :
    (joined F m).length ≤ cap := by
  obtain ⟨-, hne, rfl⟩ := delivered_eq_some h
  rcases accept_cases F cap run p with h0 | ⟨-, hfit, he⟩ | ⟨-, -, hfit, he⟩
  · exact absurd h0 hne
  · rw [he]; exact hfit
  · rw [he]; exact hfit

/-! ## What the receiver holds and delivers -/

/-- The run is the unfinished message at the end of the history `h`, `[]` if there is none. -/
def HoldsSuffix (F : Framing φ β) (cap : ℕ) (h run : List φ) : Prop :=
  ∀ m, m ≠ [] →
    (run = m ↔ m <:+ h ∧ Started F cap m ∧ ∀ z ∈ m.getLast?, F.eom z = false)

/-- If the receiver holds the unfinished message at the end of `h`, then `accept` finds the started
message at the end of `h ++ [p]`. -/
theorem HoldsSuffix.accept_eq_iff {h run m : List φ} {p : φ} (hrun : HoldsSuffix F cap h run)
    (hm : m ≠ []) : accept F cap run p = m ↔ m <:+ h ++ [p] ∧ Started F cap m := by
  constructor
  · rintro rfl
    rcases accept_cases F cap run p with
      h0 | ⟨hs, hfit, he⟩ | ⟨hs, ⟨a, ha, hseq⟩, hfit, he⟩
    · exact absurd h0 hm
    · rw [he]
      exact ⟨List.suffix_append h [p], ⟨p, by simp, hs⟩, List.isChain_singleton p, hfit⟩
    · have hne : run ≠ [] := by rintro rfl; simp at ha
      obtain ⟨hsuf, hst, hopen⟩ := (hrun run hne).1 rfl
      rw [he]
      exact ⟨List.suffix_concat_iff.2 (Or.inr ⟨run, rfl, hsuf⟩),
        hst.snoc ⟨a, ha, hopen a ha, hs, hseq⟩ hfit⟩
  · rintro ⟨hsuf, hst⟩
    obtain ⟨m', rfl, hsuf'⟩ := (List.suffix_concat_iff.1 hsuf).resolve_left hm
    by_cases hm' : m' = []
    · subst hm'
      obtain ⟨a, ha, hsom⟩ := hst.first
      obtain rfl : p = a := by simpa using ha
      exact accept_som hsom hst.fits
    · obtain ⟨hst', a, ha, hf⟩ := hst.of_snoc hm'
      have hopen : ∀ z ∈ m'.getLast?, F.eom z = false := by
        intro z hz
        obtain rfl : z = a := Option.mem_unique hz ha
        exact hf.1
      rw [(hrun m' hm').2 ⟨hsuf', hst', hopen⟩]
      exact accept_next ha hf.2.1 hf.2.2 hst.fits

/-- The receiver holds the run `m` exactly if `m` is a suffix of the history that begins a message
and has not met its `eom`. -/
theorem openRun_holds (F : Framing φ β) (cap : ℕ) (h : List φ) : HoldsSuffix F cap h (openRun F cap h) := by
  induction h using List.reverseRecOn with
  | nil =>
    intro m hm
    rw [openRun_nil]
    exact ⟨fun e => absurd e.symm hm, fun ⟨hs, _⟩ => absurd (List.suffix_nil.1 hs) hm⟩
  | append_singleton h p ih =>
    intro m hm
    rw [openRun_snoc, step]
    cases he : F.eom p with
    | true =>
      -- `p` ends its message, and it is the last fragment of every suffix
      rw [if_pos rfl]
      refine ⟨fun e => absurd e.symm hm, fun ⟨hsuf, _, hlast⟩ => ?_⟩
      obtain ⟨m', rfl, -⟩ := (List.suffix_concat_iff.1 hsuf).resolve_left hm
      exact absurd (hlast p (by simp)) (by simp [he])
    | false =>
      rw [if_neg (by simp), ih.accept_eq_iff hm]
      refine ⟨fun ⟨hsuf, hst⟩ => ⟨hsuf, hst, ?_⟩, fun ⟨hsuf, hst, _⟩ => ⟨hsuf, hst⟩⟩
      obtain ⟨m', rfl, -⟩ := (List.suffix_concat_iff.1 hsuf).resolve_left hm
      simpa using he

/-- After the history `h`, the fragment `p` completes the message `m` exactly if `m` is a suffix of
the history with `p` and is a whole message. -/
theorem delivered_iff {h m : List φ} {p : φ} :
    delivered F cap (openRun F cap h) p = some m ↔ m <:+ h ++ [p] ∧ Message F cap m := by
  have hacc := fun hm => (openRun_holds F cap h).accept_eq_iff (m := m) (p := p) hm
  constructor
  · intro e
    obtain ⟨he, hne, rfl⟩ := delivered_eq_some e
    obtain ⟨hsuf, hst⟩ := (hacc hne).1 rfl
    obtain ⟨m', hm', -⟩ := (List.suffix_concat_iff.1 hsuf).resolve_left hne
    exact ⟨hsuf, hst, p, by rw [hm']; simp, he⟩
  · rintro ⟨hsuf, hmsg⟩
    have he := (hacc hmsg.ne_nil).2 ⟨hsuf, hmsg.toStarted⟩
    obtain ⟨m', hm', -⟩ := (List.suffix_concat_iff.1 hsuf).resolve_left hmsg.ne_nil
    obtain ⟨z, hz, hez⟩ := hmsg.last
    obtain rfl : p = z := by rw [hm'] at hz; simpa using hz
    rw [delivered, he, if_pos ⟨hez, hmsg.ne_nil⟩]

/-! ## The grammar of messages, clause by clause -/

/-- Neighbours satisfy three conditions, the first on the left and the second on the right fragment
alone. -/
theorem isChain_and_iff {P Q : φ → Prop} {R : φ → φ → Prop} (m : List φ) :
    m.IsChain (fun a b => P a ∧ Q b ∧ R a b) ↔
      (∀ a ∈ m.dropLast, P a) ∧ (∀ b ∈ m.tail, Q b) ∧ m.IsChain R := by
  induction m with
  | nil => simp
  | cons a m ih =>
    cases m with
    | nil => simp
    | cons b m =>
      rw [List.isChain_cons_cons, ih, List.isChain_cons_cons, List.dropLast_cons_cons, List.tail_cons,
        List.tail_cons, List.forall_mem_cons, List.forall_mem_cons]
      tauto

/-- A message is what the grammar of fragments says: `som` on the first fragment only, `eom` on the
last only, and consecutive sequence numbers. -/
theorem wellFormed_iff (m : List φ) :
    WellFormed F m ↔
      (∃ a ∈ m.head?, F.som a = true) ∧ (∀ p ∈ m.tail, F.som p = false) ∧
      (∀ p ∈ m.dropLast, F.eom p = false) ∧ (∃ z ∈ m.getLast?, F.eom z = true) ∧
      m.IsChain (fun a b => F.seq b = (F.seq a + 1) % F.modulus) := by
  have hchain := isChain_and_iff (P := fun a => F.eom a = false) (Q := fun b => F.som b = false)
    (R := fun a b => F.seq b = (F.seq a + 1) % F.modulus) m
  constructor
  · intro h
    obtain ⟨heom, hsom, hseq⟩ := hchain.1 h.chain
    exact ⟨h.first, hsom, heom, h.last, hseq⟩
  · rintro ⟨hfirst, hsom, heom, hlast, hseq⟩
    exact ⟨hfirst, hchain.2 ⟨heom, hsom, hseq⟩, hlast⟩

/-- A message that the receiver accepts is one that fits. -/
theorem message_iff (m : List φ) :
    Message F cap m ↔ WellFormed F m ∧ (joined F m).length ≤ cap :=
  ⟨fun h => ⟨⟨h.first, h.chain, h.last⟩, h.fits⟩, fun ⟨h, hfits⟩ => ⟨⟨h.first, h.chain, hfits⟩, h.last⟩⟩

/-- Fragments that carry the same marks and the same payload. -/
def SameMarks {ψ : Type*} (F : Framing φ β) (G : Framing ψ β) (a : φ) (p : ψ) : Prop :=
  F.som a = G.som p ∧ F.eom a = G.eom p ∧ F.seq a = G.seq p ∧ F.payload a = G.payload p

theorem joined_map {ψ : Type*} {G : Framing ψ β} {g : ψ → φ} {m : List ψ}
    (h : ∀ p ∈ m, SameMarks F G (g p) p) : joined F (m.map g) = joined G m := by
  simp only [joined, List.flatMap_map]
  exact List.flatMap_congr fun p hp => (h p hp).2.2.2

/-- Messages correspond when their fragments do. -/
theorem wellFormed_map_iff {ψ : Type*} {G : Framing ψ β} {g : ψ → φ} {m : List ψ}
    (hmod : F.modulus = G.modulus) (h : ∀ p ∈ m, SameMarks F G (g p) p) :
    WellFormed F (m.map g) ↔ WellFormed G m := by
  have hfirst : (∃ a ∈ (m.map g).head?, F.som a = true) ↔ ∃ p ∈ m.head?, G.som p = true := by
    cases m with
    | nil => simp
    | cons p m => simp [(h p (by simp)).1]
  have hlast : (∃ a ∈ (m.map g).getLast?, F.eom a = true) ↔ ∃ p ∈ m.getLast?, G.eom p = true := by
    rw [List.getLast?_map]
    cases hl : m.getLast? with
    | none => simp
    | some p => simp [(h p (List.mem_of_getLast? hl)).2.1]
  have htail : (∀ a ∈ (m.map g).tail, F.som a = false) ↔ ∀ p ∈ m.tail, G.som p = false := by
    rw [← List.map_tail, List.forall_mem_map]
    exact forall₂_congr fun p hp => by rw [(h p (List.mem_of_mem_tail hp)).1]
  have hinit : (∀ a ∈ (m.map g).dropLast, F.eom a = false) ↔ ∀ p ∈ m.dropLast, G.eom p = false := by
    rw [← List.map_dropLast, List.forall_mem_map]
    exact forall₂_congr fun p hp => by rw [(h p ((List.dropLast_sublist m).subset hp)).2.1]
  have hseq : (m.map g).IsChain (fun a b => F.seq b = (F.seq a + 1) % F.modulus) ↔
      m.IsChain fun p q => G.seq q = (G.seq p + 1) % G.modulus := by
    rw [List.isChain_map]
    refine List.IsChain.iff_of_mem_imp fun p q hp hq => ?_
    rw [(h p hp).2.2.1, (h q hq).2.2.1, hmod]
  rw [wellFormed_iff, wellFormed_iff, hfirst, hlast, htail, hinit, hseq]

theorem message_map_iff {ψ : Type*} {G : Framing ψ β} {g : ψ → φ} {m : List ψ}
    (hmod : F.modulus = G.modulus) (h : ∀ p ∈ m, SameMarks F G (g p) p) :
    Message F cap (m.map g) ↔ Message G cap m := by
  rw [message_iff, message_iff, wellFormed_map_iff hmod h, joined_map h]

/-! ## Blocks of a stream of messages -/

theorem WellFormed.ne_nil {m : List φ} (h : WellFormed F m) : m ≠ [] := by
  rintro rfl
  obtain ⟨a, ha, -⟩ := h.first
  simp at ha

/-- Inside a message, a fragment with one before it does not start a message. -/
theorem WellFormed.som_eq_false {l r : List φ} {a : φ} (h : WellFormed F (l ++ a :: r)) (hl : l ≠ []) :
    F.som a = false := by
  obtain ⟨-, -, hlink⟩ := List.isChain_append.1 h.chain
  exact (hlink _ (List.getLast?_eq_some_getLast hl) a (by simp)).2.1

/-- Inside a message, a fragment with one behind it does not end a message. -/
theorem WellFormed.eom_eq_false {l r : List φ} {z : φ} (h : WellFormed F (l ++ z :: r)) (hr : r ≠ []) :
    F.eom z = false := by
  obtain ⟨b, r', rfl⟩ := List.exists_cons_of_ne_nil hr
  obtain ⟨-, hc, -⟩ := List.isChain_append.1 h.chain
  exact (List.isChain_cons_cons.1 hc).1.1

/-- No message is a proper beginning of another. -/
theorem WellFormed.eq_of_prefix {m x : List φ} (hm : WellFormed F m) (hx : WellFormed F x)
    (h : m <+: x) : m = x := by
  obtain ⟨t, rfl⟩ := h
  by_contra hne
  have ht : t ≠ [] := fun e => hne (by simp [e])
  obtain ⟨z, hz, heom⟩ := hm.last
  obtain ⟨m', rfl⟩ := List.getLast?_eq_some_iff.1 hz
  rw [List.append_assoc, List.singleton_append] at hx
  rw [hx.eom_eq_false ht] at heom
  exact absurd heom (by simp)

/-- A message that is a block of a stream of messages is one of them. -/
theorem block_is_message {msgs : List (List φ)} {pre m post : List φ}
    (hmsgs : ∀ x ∈ msgs, WellFormed F x) (hm : WellFormed F m)
    (h : pre ++ (m ++ post) = msgs.flatten) :
    ∃ before after, msgs = before ++ m :: after ∧ pre = before.flatten ∧ post = after.flatten := by
  induction msgs generalizing pre with
  | nil =>
    obtain ⟨-, hnil, -⟩ : pre = [] ∧ m = [] ∧ post = [] := by simpa using h
    exact absurd hnil hm.ne_nil
  | cons x msgs ih =>
    have hx := hmsgs x (by simp)
    have hrest := fun y hy => hmsgs y (List.mem_cons_of_mem x hy)
    rw [List.flatten_cons, List.append_eq_append_iff] at h
    rcases h with ⟨t, hxt, ht⟩ | ⟨pre', rfl, hmp⟩
    · -- the block starts inside `x` or right behind it
      by_cases htn : t = []
      · obtain ⟨before, after, rfl, hb, ha⟩ :=
          ih hrest (show [] ++ (m ++ post) = msgs.flatten by simpa [htn] using ht)
        refine ⟨x :: before, after, rfl, ?_, ha⟩
        rw [List.flatten_cons, ← hb, hxt, htn, List.append_nil, List.append_nil]
      · by_cases hpre : pre = []
        · subst hpre
          obtain rfl : x = t := hxt
          have hmx : m = x := by
            rcases List.append_eq_append_iff.1 ht with ⟨u, rfl, -⟩ | ⟨u, rfl, -⟩
            · exact hm.eq_of_prefix hx (List.prefix_append m u)
            · exact (hx.eq_of_prefix hm (List.prefix_append x u)).symm
          subst hmx
          exact ⟨[], msgs, rfl, rfl, List.append_cancel_left ht⟩
        · -- the first fragment of the block would start a message inside `x`
          obtain ⟨a, t', rfl⟩ := List.exists_cons_of_ne_nil htn
          obtain ⟨b, hb, hsom⟩ := hm.first
          obtain ⟨m', rfl⟩ := List.head?_eq_some_iff.1 hb
          obtain rfl : b = a := by simpa using congrArg List.head? ht
          have hx' : WellFormed F (pre ++ b :: t') := hxt ▸ hx
          rw [hx'.som_eq_false hpre] at hsom
          exact absurd hsom (by simp)
    · obtain ⟨before, after, rfl, rfl, ha⟩ := ih hrest hmp.symm
      exact ⟨x :: before, after, rfl, by simp, ha⟩

/-! ## Lossy channels

A channel that can lose fragments is described by the list of the fragments sent, each with the fact
whether it was kept. -/

/-- The fragments that were kept. -/
def kept (log : List (φ × Bool)) : List φ := log.filterMap fun e => if e.2 then some e.1 else none

/-- Whenever fragments are lost between two kept ones, the marks of the two show it. -/
def LossesShow (F : Framing φ β) (log : List (φ × Bool)) : Prop :=
  ∀ pre a lost b post, log = pre ++ (a, true) :: (lost ++ (b, true) :: post) → lost ≠ [] →
    (∀ e ∈ lost, e.2 = false) → ¬ Follows F a b

@[simp] theorem kept_nil : kept ([] : List (φ × Bool)) = [] := rfl

@[simp] theorem kept_append (log₁ log₂ : List (φ × Bool)) :
    kept (log₁ ++ log₂) = kept log₁ ++ kept log₂ := by simp [kept]

@[simp] theorem kept_cons_true (a : φ) (log : List (φ × Bool)) :
    kept ((a, true) :: log) = a :: kept log := by simp [kept]

@[simp] theorem kept_cons_false (a : φ) (log : List (φ × Bool)) :
    kept ((a, false) :: log) = kept log := by simp [kept]

/-- The place of a kept fragment in the log. -/
theorem kept_eq_cons {log : List (φ × Bool)} {a : φ} {rest : List φ} :
    kept log = a :: rest ↔
      ∃ lost log', log = lost ++ (a, true) :: log' ∧ (∀ e ∈ lost, e.2 = false) ∧ kept log' = rest := by
  rw [kept, List.filterMap_eq_cons_iff]
  constructor
  · rintro ⟨lost, ⟨b, k⟩, log', rfl, hlost, hb, hrest⟩
    have hk : k = true := by
      by_contra hk
      simp [hk] at hb
    obtain rfl : b = a := by simpa [hk] using hb
    refine ⟨lost, log', by rw [hk], fun e he => ?_, hrest⟩
    by_contra hke
    simpa [hke] using hlost e he
  · rintro ⟨lost, log', rfl, hlost, hrest⟩
    exact ⟨lost, (a, true), log', rfl, fun e he => by simp [hlost e he], by simp, hrest⟩

/-- If the losses show, the fragments kept behind `a` that form a chain from it were sent without a
gap. -/
theorem contiguous_from {pre log : List (φ × Bool)} {a : φ} {m post : List φ}
    (hloss : LossesShow F (pre ++ (a, true) :: log)) (hkept : kept log = m ++ post)
    (hchain : (a :: m).IsChain (Follows F)) :
    ∃ log', log = m.map (·, true) ++ log' ∧ kept log' = post := by
  induction m generalizing pre a log with
  | nil => exact ⟨log, rfl, hkept⟩
  | cons b m ih =>
    obtain ⟨hab, hchain'⟩ := List.isChain_cons_cons.1 hchain
    obtain ⟨lost, log', rfl, hlost, hrest⟩ := kept_eq_cons.1 hkept
    have hnil : lost = [] := by
      by_contra hne
      exact hloss pre a lost b log' rfl hne hlost hab
    subst hnil
    have hloss' : LossesShow F ((pre ++ [(a, true)]) ++ (b, true) :: log') := by simpa using hloss
    obtain ⟨log'', rfl, hpost⟩ := ih hloss' hrest hchain'
    exact ⟨log'', rfl, hpost⟩

/-- If the losses show in a stretch of the log whose kept fragments form a chain, these were sent without
a gap. -/
theorem contiguous_of_chain {stretch : List (φ × Bool)} (hloss : LossesShow F stretch)
    (hne : kept stretch ≠ []) (hchain : (kept stretch).IsChain (Follows F)) :
    ∃ lost lost', stretch = lost ++ ((kept stretch).map (·, true) ++ lost') := by
  obtain ⟨a, m, hm⟩ := List.exists_cons_of_ne_nil hne
  rw [hm] at hchain ⊢
  obtain ⟨lost, log, rfl, -, hlog⟩ := kept_eq_cons.1 hm
  obtain ⟨lost', rfl, -⟩ := contiguous_from hloss (by rw [hlog, List.append_nil]) hchain
  exact ⟨lost, lost', rfl⟩

/-- The losses show in a log exactly if they show behind its first fragment and between any two later
ones. -/
theorem lossesShow_cons {e : φ × Bool} {log : List (φ × Bool)} :
    LossesShow F (e :: log) ↔ LossesShow F log ∧ (e.2 = true → ∀ x ∈ log.head?, x.2 = false →
      ∀ b ∈ log.find? Prod.snd, ¬ Follows F e.1 b.1) := by
  constructor
  · intro h
    refine ⟨fun pre a lost b post hlog => h (e :: pre) a lost b post (by rw [hlog]; rfl), ?_⟩
    rintro he x hx hxe ⟨b, k⟩ hb
    obtain ⟨hk, lost, post, rfl, hlost⟩ := List.find?_eq_some_iff_append.1 hb
    obtain rfl : k = true := hk
    refine h [] e.1 lost b post (by rw [← he]; rfl) ?_ (by simpa using hlost)
    rintro rfl
    obtain rfl : (b, true) = x := by simpa using hx
    cases hxe
  · rintro ⟨hlog, hfirst⟩ pre a lost b post heq hne hlost
    cases pre with
    | cons f pre => exact hlog pre a lost b post (List.cons.inj heq).2 hne hlost
    | nil =>
      obtain ⟨rfl, rfl⟩ := List.cons.inj heq
      obtain ⟨x, lost, rfl⟩ := List.exists_cons_of_ne_nil hne
      refine hfirst rfl x rfl (hlost x (by simp)) (b, true) ?_
      exact List.find?_eq_some_iff_append.2 ⟨rfl, x :: lost, post, rfl, by simpa using hlost⟩

instance decidableLossesShow (F : Framing φ β) : (log : List (φ × Bool)) → Decidable (LossesShow F log)
  | [] => isTrue fun pre _ _ _ _ h => by simp at h
  | _ :: log =>
    have := decidableLossesShow F log
    decidable_of_iff _ lossesShow_cons.symm

/-- Sequence numbers along a chain count the fragments. -/
theorem seq_of_chain {a b : φ} {mid r : List φ}
    (h : (a :: (mid ++ b :: r)).IsChain (Follows F)) :
    F.seq b = (F.seq a + mid.length + 1) % F.modulus := by
  induction mid generalizing a with
  | nil => exact (List.isChain_cons_cons.1 h).1.2.2
  | cons c mid ih =>
    obtain ⟨hac, hrest⟩ := List.isChain_cons_cons.1 h
    rw [ih hrest, hac.2.2, List.length_cons, Nat.add_assoc, Nat.mod_add_mod]
    congr 1
    omega

/-- Inside one message a loss does not show exactly if the number of lost fragments is a multiple of
the modulus. -/
theorem WellFormed.follows_iff_dvd {l lost r : List φ} {a b : φ}
    (h : WellFormed F (l ++ a :: (lost ++ b :: r))) :
    Follows F a b ↔ F.modulus ∣ lost.length := by
  have heom := h.eom_eq_false (by simp)
  have hsom : F.som b = false := by
    have hsplit : WellFormed F ((l ++ a :: lost) ++ b :: r) := by simpa using h
    exact hsplit.som_eq_false (by simp)
  have hseq := seq_of_chain (List.isChain_append.1 h.chain).2.1
  rw [Follows, heom, hsom, hseq]
  simp only [true_and]
  have hcomm : F.seq a + lost.length + 1 = F.seq a + 1 + lost.length := by omega
  rw [hcomm]
  exact Nat.add_modEq_left_iff

/-! ## Merged streams

Senders `ι` share one receiver; a merged stream is the list of their fragments in the order of arrival,
each with its sender. -/

section Merged

variable {ι : Type*}

/-- The fragments of one sender. -/
def streamOf [DecidableEq ι] (s : ι) (merged : List (ι × φ)) : List φ :=
  merged.filterMap fun e => if e.1 = s then some e.2 else none

/-- No fragment is directly followed by one of another sender that continues it. -/
def NoCrossing (F : Framing φ β) (merged : List (ι × φ)) : Prop :=
  merged.IsChain fun a b => Follows F a.2 b.2 → a.1 = b.1

instance [DecidableEq ι] (merged : List (ι × φ)) : Decidable (NoCrossing F merged) :=
  inferInstanceAs (Decidable (List.IsChain _ _))

@[simp] theorem streamOf_append [DecidableEq ι] (s : ι) (merged₁ merged₂ : List (ι × φ)) :
    streamOf s (merged₁ ++ merged₂) = streamOf s merged₁ ++ streamOf s merged₂ := by
  simp [streamOf]

theorem streamOf_eq_map [DecidableEq ι] {s : ι} {run : List (ι × φ)} (h : ∀ e ∈ run, e.1 = s) :
    streamOf s run = run.map Prod.snd := by
  induction run with
  | nil => rfl
  | cons e run ih =>
    rw [List.forall_mem_cons] at h
    rw [List.map_cons, ← ih h.2]
    simp [streamOf, h.1]

/-- Fragments of one sender do not cross. -/
theorem noCrossing_of_single {run : List (ι × φ)} (h : ∀ a ∈ run, ∀ b ∈ run, a.1 = b.1) :
    NoCrossing F run :=
  (List.pairwise_of_forall_mem_list h).isChain.imp fun _ _ hab _ => hab

/-- In a stream without crossings a chain of fragments has one sender. -/
theorem single_sender {run : List (ι × φ)} {last : ι × φ} (h : NoCrossing F run)
    (hchain : (run.map Prod.snd).IsChain (Follows F)) (hlast : last ∈ run.getLast?) :
    ∀ e ∈ run, e.1 = last.1 := by
  induction run with
  | nil => simp
  | cons e run ih =>
    cases run with
    | nil =>
      obtain rfl : e = last := by simpa using hlast
      simp
    | cons f run =>
      obtain ⟨hef, hrest⟩ := List.isChain_cons_cons.1 h
      obtain ⟨hfol, hchain'⟩ := List.isChain_cons_cons.1 hchain
      have hih := ih hrest hchain' (by simpa using hlast)
      refine List.forall_mem_cons.2 ⟨?_, hih⟩
      exact (hef hfol).trans (hih f (by simp))

/-- A block of a merged stream that is a message, and has no crossing, is one that its sender sent. -/
theorem block_of_sender [DecidableEq ι] {msgs : ι → List (List φ)} (hmsgs : ∀ s, ∀ m ∈ msgs s, WellFormed F m)
    {merged earlier run : List (ι × φ)} (hmerged : ∀ s, streamOf s merged <+: (msgs s).flatten)
    (hsplit : merged = earlier ++ run) (hcross : NoCrossing F run)
    (hrun : WellFormed F (run.map Prod.snd)) :
    ∃ s, (∀ e ∈ run, e.1 = s) ∧ run.map Prod.snd ∈ msgs s := by
  subst hsplit
  have hne : run ≠ [] := by
    rintro rfl
    exact hrun.ne_nil rfl
  have hone := single_sender hcross hrun.chain (List.getLast?_eq_some_getLast hne)
  refine ⟨_, hone, ?_⟩
  obtain ⟨rest, hrest⟩ := hmerged (run.getLast hne).1
  rw [streamOf_append, streamOf_eq_map hone, List.append_assoc] at hrest
  obtain ⟨before, after, hm, -, -⟩ := block_is_message (hmsgs _) hrun hrest
  rw [hm]
  simp

end Merged

end Reassembly
