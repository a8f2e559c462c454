import NicObFw.Lib.FreeRtos
import NicObFw.Lib.Machine
import Mathlib.Logic.Function.Basic

/-!
# Critical sections

`rtos_enter_critical` and `rtos_exit_critical` of `rtos_hal.c`, and the machine of two cores that call
them in any order.
-/

namespace NicObFw

open FreeRtos

/-- The cores of the ESP32. -/
inductive Core where
  | pro
  | app
deriving DecidableEq, Repr

/-- The lock that the compound literal `(portMUX_TYPE)portMUX_INITIALIZER_UNLOCKED` stands for. It is in
a function body, so every evaluation makes a new object. Objects are never taken off the list, and are
known by their place in it. -/
def portMuxLiteral (muxes : List (PortMux Core)) : List (PortMux Core) × ℕ :=
  (muxes ++ [.initializerUnlocked], muxes.length)

/-- `rtos_enter_critical`, and the object it locks; `none` while the core spins. -/
def rtosEnterCritical (muxes : List (PortMux Core)) (core : Core) :
    Option (List (PortMux Core) × ℕ) :=
  let (muxes, mux) := portMuxLiteral muxes
  match muxes[mux]? with
  | some m => (m.enterCritical core).map fun m' => (muxes.set mux m', mux)
  | none => none

/-- `rtos_exit_critical`, and the object it unlocks. -/
def rtosExitCritical (muxes : List (PortMux Core)) : List (PortMux Core) × ℕ :=
  let (muxes, mux) := portMuxLiteral muxes
  (muxes.modify mux PortMux.exitCritical, mux)

/-! ## Two cores -/

structure CriticalSections where
  muxes : List (PortMux Core)
  /-- The objects that the core locked on its way in, the last one first. -/
  entered : Core → List ℕ

inductive CriticalAction where
  | enter (core : Core)
  | exit (core : Core)
deriving DecidableEq, Repr

inductive CriticalEvent where
  | locked (core : Core) (mux : ℕ)
  | unlocked (core : Core) (mux : ℕ)
deriving DecidableEq, Repr

/-- A core calls `rtos_exit_critical` once for every call of `rtos_enter_critical`, after it. -/
def criticalSections : Machine CriticalSections CriticalAction CriticalEvent where
  step s
    | .enter core =>
      (rtosEnterCritical s.muxes core).map fun (muxes, mux) =>
        (⟨muxes, Function.update s.entered core (mux :: s.entered core)⟩, [.locked core mux])
    | .exit core =>
      match s.entered core with
      | [] => none
      | _ :: entered =>
        let (muxes, mux) := rtosExitCritical s.muxes
        some (⟨muxes, Function.update s.entered core entered⟩, [.unlocked core mux])

def criticalSectionsInit : CriticalSections where
  muxes := []
  entered _ := []

/-- The core is between its enter and its exit. -/
def CriticalSections.Inside (s : CriticalSections) (core : Core) : Prop := s.entered core ≠ []

instance (s : CriticalSections) (core : Core) : Decidable (s.Inside core) :=
  inferInstanceAs (Decidable (_ ≠ _))

/-- In every state of the run at most one core is inside. -/
def Excludes (acts : List CriticalAction) : Prop :=
  ∀ pre post s tr, acts = pre ++ post →
    criticalSections.exec criticalSectionsInit pre = some (s, tr) →
      ∀ core core', s.Inside core → s.Inside core' → core = core'

/-- Every exit of the run unlocks what its enter locked. -/
def ReleasesOwn : List CriticalAction → Prop :=
  criticalSections.AllSteps (fun s _ a => ∀ core s' evs, a = .exit core →
    criticalSections.step s a = some (s', evs) →
      ∃ mux ∈ (s.entered core).head?, evs = [.unlocked core mux]) criticalSectionsInit

end NicObFw
