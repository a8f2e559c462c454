import Mathlib.Data.List.Forall2
import Mathlib.Tactic.Common

/-!
# FreeRTOS objects

The documented behaviour of FreeRTOS queues, mutexes, spin locks and event groups. A queue copies items
in and out in FIFO order and never holds more than its depth; a mutex is held by at most one thread; a
spin lock is owned by at most one core, which can take it again; an event group is a set of flag bits
that a task can wait for.
-/

namespace FreeRtos

/-! ## Queues -/

/-- A queue of at most `depth` items, the oldest first. -/
structure Queue (α : Type*) (depth : ℕ) where
  items : List α
  bounded : items.length ≤ depth

variable {α : Type*} {depth : ℕ}

namespace Queue

/-- `xQueueCreate`: a new queue is empty. -/
def create (α : Type*) (depth : ℕ) : Queue α depth := ⟨[], Nat.zero_le _⟩

/-- `xQueueSend` and `xQueueSendFromISR` without waiting: the item is taken unless the queue is
full. -/
def send (q : Queue α depth) (x : α) : Bool × Queue α depth :=
  if h : q.items.length < depth then
    (true, ⟨q.items ++ [x], by rw [List.length_append, List.length_singleton]; omega⟩)
  else (false, q)

/-- `xQueueReceive` without waiting: the oldest item, if there is one. -/
def receive (q : Queue α depth) : Option α × Queue α depth :=
  match h : q.items with
  | [] => (none, q)
  | x :: xs => (some x, ⟨xs, by have := q.bounded; rw [h, List.length_cons] at this; omega⟩)

@[ext] theorem ext {q r : Queue α depth} (h : q.items = r.items) : q = r := by
  cases q; cases r; simpa using h

@[simp] theorem items_create : (create α depth).items = [] := rfl

theorem send_of_lt {q : Queue α depth} {x : α} (h : q.items.length < depth) :
    (q.send x).1 = true ∧ (q.send x).2.items = q.items ++ [x] := by
  simp [send, h]

theorem send_of_full {q : Queue α depth} {x : α} (h : ¬ q.items.length < depth) :
    q.send x = (false, q) := by
  simp [send, h]

theorem mem_items_send {q : Queue α depth} {x z : α} (h : z ∈ (q.send x).2.items) :
    z ∈ q.items ∨ z = x := by
  by_cases hlt : q.items.length < depth
  · rw [(send_of_lt hlt).2, List.mem_append, List.mem_singleton] at h
    exact h
  · rw [send_of_full hlt] at h
    exact Or.inl h

/-- Two queues whose items are related one by one take related items alike. -/
theorem forall₂_send {β : Type*} {R : α → β → Prop} {q : Queue α depth} {r : Queue β depth} {x : α}
    {y : β} (h : List.Forall₂ R q.items r.items) (hxy : R x y) :
    (r.send y).1 = (q.send x).1 ∧ List.Forall₂ R (q.send x).2.items (r.send y).2.items := by
  have hlen := h.length_eq
  by_cases hlt : q.items.length < depth
  · obtain ⟨hq, hitems⟩ := send_of_lt (x := x) hlt
    obtain ⟨hr, hitems'⟩ := send_of_lt (q := r) (x := y) (by omega)
    rw [hq, hr, hitems, hitems']
    exact ⟨rfl, List.rel_append h (.cons hxy .nil)⟩
  · rw [send_of_full hlt, send_of_full (q := r) (by omega)]
    exact ⟨rfl, h⟩

theorem receive_nil {q : Queue α depth} (h : q.items = []) : q.receive = (none, q) := by
  unfold receive
  split
  · rfl
  · rename_i heq
    rw [h] at heq
    exact absurd heq (by simp)

theorem receive_cons {q : Queue α depth} {x : α} {xs : List α} (h : q.items = x :: xs) :
    q.receive.1 = some x ∧ q.receive.2.items = xs := by
  unfold receive
  split
  · rename_i heq
    rw [h] at heq
    exact absurd heq (by simp)
  · rename_i heq
    rw [h] at heq
    obtain ⟨rfl, rfl⟩ := List.cons.inj heq
    exact ⟨rfl, rfl⟩

end Queue

/-! ## Mutexes -/

/-- A mutex, with the thread that holds it. -/
structure Mutex (θ : Type*) where
  holder : Option θ
deriving DecidableEq, Repr

namespace Mutex

variable {θ : Type*}

/-- `xSemaphoreCreateMutex`: a new mutex is free. -/
def create : Mutex θ := ⟨none⟩

/-- `xSemaphoreTake` without a timeout: `none` while the caller is blocked. -/
def take (m : Mutex θ) (thread : θ) : Option (Mutex θ) :=
  if m.holder.isNone then some ⟨some thread⟩ else none

/-- `xSemaphoreGive` by the thread that holds the mutex. -/
def give (_ : Mutex θ) : Mutex θ := ⟨none⟩

theorem take_eq_some {m m' : Mutex θ} {thread : θ} :
    m.take thread = some m' ↔ m.holder = none ∧ m' = ⟨some thread⟩ := by
  rw [take]
  split
  · rename_i h
    simp [Option.isNone_iff_eq_none.1 h, eq_comm]
  · rename_i h
    simp only [Option.isNone_iff_eq_none] at h
    simp [h]

end Mutex

/-! ## Spin locks -/

/-- A `portMUX_TYPE`: the core that owns it, and how often this core has taken it. -/
structure PortMux (κ : Type*) where
  owner : Option κ
  count : ℕ
deriving DecidableEq, Repr

namespace PortMux

variable {κ : Type*}

/-- `portMUX_INITIALIZER_UNLOCKED`. -/
def initializerUnlocked : PortMux κ := ⟨none, 0⟩

/-- `taskENTER_CRITICAL`: `none` while the core spins. -/
def enterCritical [DecidableEq κ] (mux : PortMux κ) (core : κ) : Option (PortMux κ) :=
  if mux.owner = none ∨ mux.owner = some core then some ⟨some core, mux.count + 1⟩ else none

/-- `taskEXIT_CRITICAL`: the lock is free when it has been released as often as it was taken. -/
def exitCritical (mux : PortMux κ) : PortMux κ :=
  if mux.count ≤ 1 then initializerUnlocked else ⟨mux.owner, mux.count - 1⟩

@[simp] theorem enterCritical_unlocked [DecidableEq κ] (core : κ) :
    (initializerUnlocked : PortMux κ).enterCritical core = some ⟨some core, 1⟩ := by
  simp [enterCritical, initializerUnlocked]

@[simp] theorem exitCritical_unlocked :
    (initializerUnlocked : PortMux κ).exitCritical = initializerUnlocked := rfl

end PortMux

/-! ## Event groups -/

/-- The flag bits of an event group. -/
structure EventGroup where
  bits : UInt32
deriving DecidableEq, Repr

namespace EventGroup

/-- `xEventGroupCreate`: no flag is set. -/
def create : EventGroup := ⟨0⟩

/-- The wait condition of `xEventGroupWaitBits`. -/
def Ready (g : EventGroup) (bitsToWaitFor : UInt32) (waitForAllBits : Bool) : Prop :=
  if waitForAllBits then g.bits &&& bitsToWaitFor = bitsToWaitFor else g.bits &&& bitsToWaitFor ≠ 0

instance (g : EventGroup) (bitsToWaitFor : UInt32) (waitForAllBits : Bool) :
    Decidable (g.Ready bitsToWaitFor waitForAllBits) :=
  inferInstanceAs (Decidable (ite _ _ _))

/-- `xEventGroupWaitBits`, as far as it does not time out: `none` while the caller is blocked,
otherwise the bits before they were cleared. -/
def waitBits (g : EventGroup) (bitsToWaitFor : UInt32) (clearOnExit waitForAllBits : Bool) :
    Option (UInt32 × EventGroup) :=
  if g.Ready bitsToWaitFor waitForAllBits then
    some (g.bits, if clearOnExit then ⟨g.bits &&& ~~~bitsToWaitFor⟩ else g)
  else none

/-- `xEventGroupWaitBits` when its time is up: the bits are returned as they are. -/
def waitTimeout (g : EventGroup) : UInt32 × EventGroup := (g.bits, g)

end EventGroup

end FreeRtos
