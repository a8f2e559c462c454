import NicObFw.CriticalSection

/-!
# Proofs: critical sections

Each call of `rtos_enter_critical` and of `rtos_exit_critical` names a lock of its own. So an enter never
waits, an exit never releases what was locked, and a critical section excludes the other core exactly if
the other core does not call `rtos_enter_critical` in the meantime (`excludes_iff`). Both parts of what a
critical section is for hold in no run that has an exit or an enter of either core
(`rtosCritical_excludes_iff`).
-/

namespace NicObFw

open FreeRtos

/-! ## One call -/

/-- An enter locks a new object, and does not wait. -/
theorem rtosEnterCritical_eq (muxes : List (PortMux Core)) (core : Core) :
    rtosEnterCritical muxes core = some (muxes ++ [⟨some core, 1⟩], muxes.length) := by
  unfold rtosEnterCritical portMuxLiteral
  simp

/-- An exit leaves a new object, and all others as they were. -/
theorem rtosExitCritical_eq (muxes : List (PortMux Core)) :
    rtosExitCritical muxes = (muxes ++ [.initializerUnlocked], muxes.length) := by
  unfold rtosExitCritical portMuxLiteral
  simp [List.modify_eq_set_getElem?]

/-! ## One step -/

/-- Everything that a step of the machine can do. -/
inductive CriticalStep (s : CriticalSections) :
    CriticalAction → CriticalSections → List CriticalEvent → Prop
  | enter (core : Core) :
    CriticalStep s (.enter core)
      ⟨s.muxes ++ [⟨some core, 1⟩],
        Function.update s.entered core (s.muxes.length :: s.entered core)⟩
      [.locked core s.muxes.length]
  | exit (core : Core) (mux : ℕ) (entered : List ℕ) (hin : s.entered core = mux :: entered) :
    CriticalStep s (.exit core)
      ⟨s.muxes ++ [.initializerUnlocked], Function.update s.entered core entered⟩
      [.unlocked core s.muxes.length]

variable {s s' : CriticalSections} {a : CriticalAction} {tr evs : List CriticalEvent}
  {acts : List CriticalAction} {core core' : Core}

theorem criticalSections_step_iff :
    criticalSections.step s a = some (s', evs) ↔ CriticalStep s a s' evs := by
  constructor
  · intro h
    cases a with
    | enter core =>
      simp only [criticalSections, rtosEnterCritical_eq, Option.map_some, Option.some.injEq,
        Prod.mk.injEq] at h
      obtain ⟨rfl, rfl⟩ := h
      exact .enter core
    | exit core =>
      cases hin : s.entered core with
      | nil => simp [criticalSections, hin] at h
      | cons mux entered =>
        simp only [criticalSections, hin, rtosExitCritical_eq, Option.some.injEq, Prod.mk.injEq] at h
        obtain ⟨rfl, rfl⟩ := h
        exact .exit core mux entered hin
  · intro h
    cases h with
    | enter core => simp only [criticalSections, rtosEnterCritical_eq, Option.map_some]
    | exit core mux entered hin => simp only [criticalSections, hin, rtosExitCritical_eq]

@[simp] theorem entered_update {muxes : List (PortMux Core)} {entered : List ℕ} :
    (CriticalSections.mk muxes (Function.update s.entered core entered)).entered core' =
      if core' = core then entered else s.entered core' :=
  Function.update_apply s.entered core entered core'

@[simp] theorem inside_update {muxes : List (PortMux Core)} {entered : List ℕ} :
    CriticalSections.Inside ⟨muxes, Function.update s.entered core entered⟩ core' ↔
      if core' = core then entered ≠ [] else s.Inside core' := by
  unfold CriticalSections.Inside
  rw [entered_update]
  split <;> rfl

/-! ## Locks over a run -/

/-- The object of an enter exists, is locked, and stays so. -/
structure LockInv (s : CriticalSections) (tr : List CriticalEvent) : Prop where
  locked : ∀ core mux, CriticalEvent.locked core mux ∈ tr → s.muxes[mux]? = some ⟨some core, 1⟩
  entered : ∀ core, ∀ mux ∈ s.entered core, CriticalEvent.locked core mux ∈ tr

/-- A lock that was taken is not touched when a new object is added. -/
theorem LockInv.locked_append (h : LockInv s tr) {mux : ℕ} (m : PortMux Core)
    (hmem : .locked core mux ∈ tr) : (s.muxes ++ [m])[mux]? = some ⟨some core, 1⟩ := by
  have hmux := h.locked core mux hmem
  rw [List.getElem?_append_left (List.getElem?_eq_some_iff.1 hmux).1, hmux]

theorem LockInv.step (h : LockInv s tr) (hs : CriticalStep s a s' evs) : LockInv s' (tr ++ evs) := by
  cases hs with
  | enter core =>
    refine ⟨fun core' mux hmem => ?_, fun core' mux hmem => ?_⟩
    · rcases List.mem_append.1 hmem with hold | hnew
      · exact h.locked_append _ hold
      · obtain ⟨rfl, rfl⟩ := CriticalEvent.locked.inj (List.mem_singleton.1 hnew)
        simp
    · rw [entered_update] at hmem
      split at hmem
      · rename_i hcore
        rcases List.mem_cons.1 hmem with rfl | hold
        · exact List.mem_append_right _ (by rw [hcore]; exact List.mem_cons_self)
        · exact List.mem_append_left _ (hcore ▸ h.entered core mux hold)
      · exact List.mem_append_left _ (h.entered core' mux hmem)
  | exit core mux' entered hin =>
    refine ⟨fun core' mux hmem => ?_, fun core' mux hmem => List.mem_append_left _ ?_⟩
    · rcases List.mem_append.1 hmem with hold | hnew
      · exact h.locked_append _ hold
      · exact absurd (List.mem_singleton.1 hnew) (by simp)
    · rw [entered_update] at hmem
      split at hmem
      · rename_i hcore
        exact h.entered core' mux (by rw [hcore, hin]; exact List.mem_cons_of_mem _ hmem)
      · exact h.entered core' mux hmem

theorem lockInv_of_exec
    (hrun : criticalSections.exec criticalSectionsInit acts = some (s, tr)) : LockInv s tr := by
  have hinit : LockInv criticalSectionsInit [] :=
    ⟨fun _ _ hmem => absurd hmem List.not_mem_nil, fun _ _ hmem => absurd hmem List.not_mem_nil⟩
  refine Machine.invariant hinit ?_ hrun
  intro s tr a s' evs h hs
  exact h.step (criticalSections_step_iff.1 hs)

/-- No object that `rtos_enter_critical` has locked is ever unlocked. -/
theorem rtosEnterCritical_lockedForEver (acts : List CriticalAction) (s : CriticalSections)
    (tr : List CriticalEvent) (core : Core) (mux : ℕ)
    (hrun : criticalSections.exec criticalSectionsInit acts = some (s, tr))
    (hlocked : .locked core mux ∈ tr) : s.muxes[mux]? = some ⟨some core, 1⟩ :=
  (lockInv_of_exec hrun).locked core mux hlocked

/-! ## Exits -/

/-- The object that an exit unlocks is newer than all those locked before. -/
theorem LockInv.exit_other (h : LockInv s tr) (hs : CriticalStep s (.exit core) s' evs) :
    ¬ ∃ mux ∈ (s.entered core).head?, evs = [.unlocked core mux] := by
  rintro ⟨mux, hhead, hevs⟩
  have hmem : mux ∈ s.entered core := List.mem_of_mem_head? hhead
  have hmux := h.locked core mux (h.entered core mux hmem)
  have hlt : mux < s.muxes.length := (List.getElem?_eq_some_iff.1 hmux).1
  cases hs with
  | exit _ mux' entered hin =>
    have hsame : s.muxes.length = mux := by simpa using hevs
    omega

/-- Exits release what their enters locked in the runs that have none. -/
theorem releasesOwn_iff (hrun : criticalSections.exec criticalSectionsInit acts = some (s, tr)) :
    ReleasesOwn acts ↔ ∀ core, .exit core ∉ acts := by
  constructor
  · intro h core hmem
    obtain ⟨pre, post, rfl⟩ := List.append_of_mem hmem
    obtain ⟨s₁, tr₁, s₂, evs, tr₂, hpre, hs, -, -⟩ := Machine.exec_through.1 hrun
    have hown := h pre (.exit core) post s₁ tr₁ rfl hpre core s₂ evs rfl hs
    exact (lockInv_of_exec hpre).exit_other (criticalSections_step_iff.1 hs) hown
  · rintro h pre a post s' tr' rfl - core s'' evs rfl -
    exact absurd (List.mem_append_right pre List.mem_cons_self) (h core)

/-! ## Exclusion -/

/-- The core enters only while no other core is inside. -/
def AloneAt (s : CriticalSections) (_ : List CriticalEvent) (a : CriticalAction) : Prop :=
  ∀ core core', a = .enter core → s.Inside core' → core' = core

def EntersAlone (acts : List CriticalAction) : Prop :=
  criticalSections.AllSteps AloneAt criticalSectionsInit acts

def AtMostOne (s : CriticalSections) : Prop :=
  ∀ core core', s.Inside core → s.Inside core' → core = core'

theorem AtMostOne.step (h : AtMostOne s) (halone : AloneAt s tr a) (hs : CriticalStep s a s' evs) :
    AtMostOne s' := by
  intro core core' hcore hcore'
  cases hs with
  | enter c =>
    -- the core that enters is the only one inside
    have honly : ∀ c', CriticalSections.Inside ⟨s.muxes ++ [⟨some c, 1⟩],
        Function.update s.entered c (s.muxes.length :: s.entered c)⟩ c' → c' = c := by
      intro c' hin
      rw [inside_update] at hin
      split at hin
      · assumption
      · exact halone c c' rfl hin
    rw [honly core hcore, honly core' hcore']
  | exit c mux entered hc =>
    have hbefore : ∀ c', CriticalSections.Inside ⟨s.muxes ++ [.initializerUnlocked],
        Function.update s.entered c entered⟩ c' → s.Inside c' := by
      intro c' hin
      rw [inside_update] at hin
      split at hin
      · rename_i heq
        rw [heq, CriticalSections.Inside, hc]
        exact List.cons_ne_nil _ _
      · exact hin
    exact h core core' (hbefore core hcore) (hbefore core' hcore')

/-- One core at a time is inside exactly if none enters while another one is: nothing in the calls
makes the second core wait. -/
theorem excludes_iff : Excludes acts ↔ EntersAlone acts := by
  constructor
  · rintro h pre a post s₁ tr₁ rfl hpre core core' rfl hin
    have hs := criticalSections_step_iff.2 (CriticalStep.enter (s := s₁) core)
    have hnext := Machine.exec_snoc.2 ⟨s₁, tr₁, _, hpre, hs, rfl⟩
    refine h (pre ++ [.enter core]) post _ _ (by simp) hnext core' core ?_ ?_
    · rw [inside_update]
      split
      · exact List.cons_ne_nil _ _
      · exact hin
    · rw [inside_update, if_pos rfl]
      exact List.cons_ne_nil _ _
  · rintro h pre post s₁ tr₁ rfl hpre
    refine Machine.invariant_of_allSteps (C := AloneAt) (I := fun s _ => AtMostOne s)
      (fun _ _ hin _ => (hin rfl).elim) ?_ h.of_append hpre
    intro s tr a s' evs hone halone hs
    exact hone.step halone (criticalSections_step_iff.1 hs)

/-- Without an exit a core that has entered stays inside. -/
theorem inside_iff_entered (hexit : ∀ core, .exit core ∉ acts)
    (hrun : criticalSections.exec criticalSectionsInit acts = some (s, tr)) (core : Core) :
    s.Inside core ↔ .enter core ∈ acts := by
  induction acts using List.reverseRecOn generalizing s tr with
  | nil =>
    obtain ⟨rfl, -⟩ : criticalSectionsInit = s ∧ [] = tr := by simpa using hrun
    simp [CriticalSections.Inside, criticalSectionsInit]
  | append_singleton acts a ih =>
    obtain ⟨s₁, tr₁, evs, hacts, hs, rfl⟩ := Machine.exec_snoc.1 hrun
    have hbefore := ih (fun c hc => hexit c (List.mem_append_left _ hc)) hacts
    cases criticalSections_step_iff.1 hs with
    | enter c =>
      rw [inside_update, List.mem_append, List.mem_singleton, CriticalAction.enter.injEq, ← hbefore]
      by_cases hc : core = c
      · simp [hc]
      · simp [hc]
    | exit c mux entered hin =>
      exact absurd (List.mem_append_right acts (List.mem_singleton.2 rfl)) (hexit c)

/-- At most one core is inside, and every exit unlocks what its enter locked, exactly in the runs in
which one core alone enters and never exits. -/
theorem rtosCritical_excludes_iff (acts : List CriticalAction) (s : CriticalSections)
    (tr : List CriticalEvent)
    (hrun : criticalSections.exec criticalSectionsInit acts = some (s, tr)) :
    (Excludes acts ∧ ReleasesOwn acts) ↔ ∃ core, ∀ a ∈ acts, a = .enter core := by
  rw [releasesOwn_iff hrun]
  constructor
  · rintro ⟨hexcl, hexit⟩
    cases acts with
    | nil => exact ⟨.pro, fun a ha => absurd ha List.not_mem_nil⟩
    | cons a acts =>
      cases a with
      | exit core => exact absurd List.mem_cons_self (hexit core)
      | enter core =>
        refine ⟨core, fun a ha => ?_⟩
        cases a with
        | exit core' => exact absurd ha (hexit core')
        | enter core' =>
          have hin := fun c => (inside_iff_entered hexit hrun c).2
          rw [hexcl _ [] s tr (List.append_nil _).symm hrun core' core (hin core' ha)
            (hin core List.mem_cons_self)]
  · rintro ⟨core, hcore⟩
    have hexit : ∀ c, CriticalAction.exit c ∉ acts := by
      intro c hc
      exact absurd (hcore _ hc) (by simp)
    refine ⟨?_, hexit⟩
    rintro pre post s₁ tr₁ rfl hpre c c' hc hc'
    have hexit' : ∀ c, CriticalAction.exit c ∉ pre :=
      fun c hc => hexit c (List.mem_append_left _ hc)
    have hown : ∀ c, s₁.Inside c → c = core := by
      intro c hc
      have hmem := (inside_iff_entered hexit' hpre c).1 hc
      exact CriticalAction.enter.inj (hcore _ (List.mem_append_left _ hmem))
    rw [hown c hc, hown c' hc']

/-- Nested enters of one core. -/
theorem rtosCritical_excludes_nested :
    Excludes [.enter .pro, .enter .pro] ∧ ReleasesOwn [.enter .pro, .enter .pro] :=
  (rtosCritical_excludes_iff [.enter .pro, .enter .pro] _ _ rfl).2 ⟨.pro, by decide⟩

/-- Each core goes through one critical section. -/
def crossedPairs : List CriticalAction := [.enter .pro, .enter .app, .exit .pro, .exit .app]

/-- After two steps both cores are inside, and each of the four calls has a lock of its own. -/
theorem bothCores_inside :
    ∃ s tr, criticalSections.exec criticalSectionsInit crossedPairs = some (s, tr) ∧
      tr = [.locked .pro 0, .locked .app 1, .unlocked .pro 2, .unlocked .app 3] ∧
      ¬ Excludes crossedPairs ∧ ¬ ReleasesOwn crossedPairs := by
  refine ⟨_, _, rfl, rfl, fun h => ?_, fun h => ?_⟩
  · have hsame := h [.enter .pro, .enter .app] [.exit .pro, .exit .app] _ _ rfl rfl .pro .app
      (by decide) (by decide)
    exact absurd hsame (by decide)
  · obtain ⟨mux, hhead, hevs⟩ := h [.enter .pro, .enter .app] (.exit .pro) [.exit .app] _ _ rfl rfl
      .pro _ _ rfl rfl
    obtain rfl : 0 = mux := Option.some.inj hhead
    exact absurd hevs (by decide)

end NicObFw
