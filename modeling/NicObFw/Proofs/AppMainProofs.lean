import NicObFw.AppMain
import NicObFw.Proofs.AnswerProofs

/-!
# Proofs: system initialisation and task creation

From power-up on, whichever calls fail and however the interrupts and tasks interleave with `app_main`,
nobody uses a handle before it is valid or a driver before it is initialised, and what the interrupts
and tasks do is a run of the machine of `BmcMgr.lean` from its initial state.
-/

namespace NicObFw

variable {cfg : TickConfig} {s s' : System} {fw fw' : Firmware}

/-! ## Handles -/

namespace System

theorem queue_setQueue_self {handle : QueueHandle} {object object' : QueueObject}
    (h : s.queue handle = some object) : (s.setQueue handle object').queue handle = some object' := by
  cases handle with
  | none => simp [queue] at h
  | some i =>
    have hi : i < s.queues.length := (List.getElem?_eq_some_iff.1 h).1
    simp [queue, setQueue, hi]

theorem queue_setQueue_ne {handle handle' : QueueHandle} (object : QueueObject) (h : handle ≠ handle') :
    (s.setQueue handle object).queue handle' = s.queue handle' := by
  cases handle with
  | none => rfl
  | some i =>
    cases handle' with
    | none => rfl
    | some j =>
      have hij : i ≠ j := fun hij => h (congrArg some hij)
      simp [queue, setQueue, List.getElem?_set_ne hij]

theorem exists_handle {handle : QueueHandle} {object : QueueObject} (h : s.queue handle = some object) :
    ∃ i, handle = some i := by
  cases handle with
  | none => simp [queue] at h
  | some i => exact ⟨i, rfl⟩

/-- Handles of queues of different types differ. -/
theorem handle_ne {handle handle' : QueueHandle} {object object' : QueueObject}
    (h : s.queue handle = some object) (h' : s.queue handle' = some object') (hne : object ≠ object') :
    handle ≠ handle' := by
  rintro rfl
  exact hne (Option.some.inj (h.symm.trans h'))

/-- All handles of the module of the BMC Manager are valid, and point to what `fw` shows. -/
structure Shows (s : System) (fw : Firmware) : Prop where
  rx : s.queue s.vars.bmcMgr.sBmcRxQueue = some (.bmcRx fw.sBmcRxQueue)
  nic : s.queue s.vars.bmcMgr.sNicEventQueue = some (.nicEvent fw.sNicEventQueue)
  flash : s.queue s.vars.bmcMgr.sFlashCmdQueue = some (.flashCmd fw.sFlashCmdQueue)
  handles : (s.vars.bmcMgr.sEvents && s.vars.sensorMgr.sCacheMutex) = true
  eq : fw =
    { phase := s.phase, sBmcRxQueue := fw.sBmcRxQueue, sNicEventQueue := fw.sNicEventQueue
      sFlashCmdQueue := fw.sFlashCmdQueue, sEvents := s.sEvents, mctp := s.mctp
      sLastBmcSeenMs := s.sLastBmcSeenMs, sel := s.sel, sCache := s.sCache, flashTask := s.flashTask
      ticks := s.ticks }

theorem firmware_eq_some : s.firmware = some fw ↔ s.Shows fw := by
  constructor
  · intro h
    unfold System.firmware at h
    split at h
    · rename_i hrx hnic hflash hhandles
      obtain rfl := Option.some.inj h
      exact ⟨hrx, hnic, hflash, hhandles, rfl⟩
    · cases h
  · intro h
    unfold System.firmware
    rw [h.rx, h.nic, h.flash, h.handles]
    exact congrArg some h.eq.symm

theorem Shows.setRx (h : s.Shows fw) (queue : FreeRtos.Queue BmcRxMsg queueDepthBmc) :
    (s.setQueue s.vars.bmcMgr.sBmcRxQueue (.bmcRx queue)).Shows { fw with sBmcRxQueue := queue } where
  rx := queue_setQueue_self h.rx
  nic := (queue_setQueue_ne _ (handle_ne h.rx h.nic (by simp))).trans h.nic
  flash := (queue_setQueue_ne _ (handle_ne h.rx h.flash (by simp))).trans h.flash
  handles := h.handles
  eq := by rw [h.eq]; rfl

theorem Shows.setNic (h : s.Shows fw) (queue : FreeRtos.Queue NicEventMsg queueDepthNicGen) :
    (s.setQueue s.vars.bmcMgr.sNicEventQueue (.nicEvent queue)).Shows
      { fw with sNicEventQueue := queue } where
  rx := (queue_setQueue_ne _ (handle_ne h.nic h.rx (by simp))).trans h.rx
  nic := queue_setQueue_self h.nic
  flash := (queue_setQueue_ne _ (handle_ne h.nic h.flash (by simp))).trans h.flash
  handles := h.handles
  eq := by rw [h.eq]; rfl

theorem Shows.setFlash (h : s.Shows fw) (queue : FreeRtos.Queue FlashCmd queueDepthFlash) :
    (s.setQueue s.vars.bmcMgr.sFlashCmdQueue (.flashCmd queue)).Shows
      { fw with sFlashCmdQueue := queue } where
  rx := (queue_setQueue_ne _ (handle_ne h.flash h.rx (by simp))).trans h.rx
  nic := (queue_setQueue_ne _ (handle_ne h.flash h.nic (by simp))).trans h.nic
  flash := queue_setQueue_self h.flash
  handles := h.handles
  eq := by rw [h.eq]; rfl

/-- What `bmc_mgr_task` has changed is what it sees afterwards. -/
theorem Shows.setFirmware (h : s.Shows fw) (fw' : Firmware) : (s.setFirmware fw').Shows fw' := by
  have hqueues := ((h.setRx fw'.sBmcRxQueue).setNic fw'.sNicEventQueue).setFlash fw'.sFlashCmdQueue
  exact ⟨hqueues.rx, hqueues.nic, hqueues.flash, hqueues.handles, rfl⟩

end System

/-! ## Ready for the other parties -/

/-- Every handle that an interrupt or a task uses is valid, the modules that share a queue have the same
handle, and the drivers are initialised. `fw` is what the BMC Manager works on. -/
structure ReadyFor (s : System) (fw : Firmware) : Prop where
  shows : s.Shows fw
  isrRx : s.vars.isr.sBmcRxQueue = s.vars.bmcMgr.sBmcRxQueue
  isrNic : s.vars.isr.sNicEventQueue = s.vars.bmcMgr.sNicEventQueue
  flashMgr : s.vars.sCmdQueue = s.vars.bmcMgr.sFlashCmdQueue
  alert : ∃ queue, s.queue s.vars.sensorMgr.sAlertQueue = some (.sensorAlert queue)
  timer : s.vars.sensorMgr.sPollTimer = true
  bmcHal : s.vars.hal.bmcInitialized = true
  sensorHal : s.vars.hal.sensorInitialized = true
  nicChipHal : s.vars.hal.nicChipInitialized = true

/-- The action of the machine of the BMC Manager that a step of a party is. -/
def SystemAction.toFw : SystemAction → FwAction
  | bmcI2cRxIsr w msgData => .bmcI2cRxIsr w msgData
  | nicAlertIsr => .nicPost nicAlertEvent
  | bmcMgrTask locals => .bmcMgrTask locals
  | waitTimeout => .waitTimeout
  | sensorMgrTask sensorId rec => .sensorStore sensorId rec
  | flashReceive => .flashReceive
  | flashFinish => .flashFinish
  | clock ticks => .clock ticks

/-- A step changes no handle, so what it leaves is ready if what it shows is known. -/
theorem ReadyFor.of_shows (h : ReadyFor s fw) (hvars : s'.vars = s.vars) (hshows : s'.Shows fw')
    (halert : s'.queue s.vars.sensorMgr.sAlertQueue = s.queue s.vars.sensorMgr.sAlertQueue) :
    ReadyFor s' fw' where
  shows := hshows
  isrRx := by rw [hvars]; exact h.isrRx
  isrNic := by rw [hvars]; exact h.isrNic
  flashMgr := by rw [hvars]; exact h.flashMgr
  alert := by rw [hvars, halert]; exact h.alert
  timer := by rw [hvars]; exact h.timer
  bmcHal := by rw [hvars]; exact h.bmcHal
  sensorHal := by rw [hvars]; exact h.sensorHal
  nicChipHal := by rw [hvars]; exact h.nicChipHal

/-- A step that changes no queue. -/
theorem ReadyFor.frame (h : ReadyFor s fw) (hvars : s'.vars = s.vars) (hqueues : s'.queues = s.queues)
    (heq : fw' =
      { phase := s'.phase, sBmcRxQueue := fw.sBmcRxQueue, sNicEventQueue := fw.sNicEventQueue
        sFlashCmdQueue := fw.sFlashCmdQueue, sEvents := s'.sEvents, mctp := s'.mctp
        sLastBmcSeenMs := s'.sLastBmcSeenMs, sel := s'.sel, sCache := s'.sCache
        flashTask := s'.flashTask, ticks := s'.ticks }) : ReadyFor s' fw' := by
  have hqueue : ∀ handle, s'.queue handle = s.queue handle := fun handle => by
    rw [System.queue, System.queue, hqueues]
  refine h.of_shows hvars ?_ (hqueue _)
  rw [heq]
  refine ⟨?_, ?_, ?_, ?_, rfl⟩
  · rw [hvars, hqueue]
    exact h.shows.rx
  · rw [hvars, hqueue]
    exact h.shows.nic
  · rw [hvars, hqueue]
    exact h.shows.flash
  · rw [hvars]
    exact h.shows.handles

theorem ReadyFor.setRx (h : ReadyFor s fw) (queue : FreeRtos.Queue BmcRxMsg queueDepthBmc) :
    ReadyFor (s.setQueue s.vars.bmcMgr.sBmcRxQueue (.bmcRx queue)) { fw with sBmcRxQueue := queue } := by
  obtain ⟨q, hq⟩ := h.alert
  exact h.of_shows rfl (h.shows.setRx queue)
    (System.queue_setQueue_ne _ (System.handle_ne h.shows.rx hq (by simp)))

theorem ReadyFor.setNic (h : ReadyFor s fw) (queue : FreeRtos.Queue NicEventMsg queueDepthNicGen) :
    ReadyFor (s.setQueue s.vars.bmcMgr.sNicEventQueue (.nicEvent queue))
      { fw with sNicEventQueue := queue } := by
  obtain ⟨q, hq⟩ := h.alert
  exact h.of_shows rfl (h.shows.setNic queue)
    (System.queue_setQueue_ne _ (System.handle_ne h.shows.nic hq (by simp)))

theorem ReadyFor.setFlash (h : ReadyFor s fw) (queue : FreeRtos.Queue FlashCmd queueDepthFlash) :
    ReadyFor (s.setQueue s.vars.bmcMgr.sFlashCmdQueue (.flashCmd queue))
      { fw with sFlashCmdQueue := queue } := by
  obtain ⟨q, hq⟩ := h.alert
  exact h.of_shows rfl (h.shows.setFlash queue)
    (System.queue_setQueue_ne _ (System.handle_ne h.shows.flash hq (by simp)))

theorem ReadyFor.setFirmware (h : ReadyFor s fw) (fw' : Firmware) : ReadyFor (s.setFirmware fw') fw' := by
  obtain ⟨q, hq⟩ := h.alert
  have hrx := System.handle_ne h.shows.rx hq (by simp)
  have hnic := System.handle_ne h.shows.nic hq (by simp)
  have hflash := System.handle_ne h.shows.flash hq (by simp)
  refine h.of_shows rfl (h.shows.setFirmware fw') ?_
  exact (System.queue_setQueue_ne _ hflash).trans
    ((System.queue_setQueue_ne _ hnic).trans (System.queue_setQueue_ne _ hrx))

theorem ReadyFor.map_seen (h : ReadyFor s fw) (evs : List FwEvent) : evs.map s.seen = evs.map .fw := by
  refine List.map_congr_left fun e _ => ?_
  cases e <;> simp [System.seen, h.bmcHal]

/-- Once everything is ready, a step of another party is a step of the machine of the BMC Manager, and
everything stays ready. -/
theorem parties_step {a : SystemAction} {evs : List SystemEvent} (h : ReadyFor s fw)
    (hs : (parties cfg).step s a = some (s', evs)) :
    ∃ fw' fwEvs, (firmware cfg).step fw a.toFw = some (fw', fwEvs) ∧ evs = fwEvs.map .fw ∧
      s'.vars = s.vars ∧ ReadyFor s' fw' := by
  have hfirmware : s.firmware = some fw := System.firmware_eq_some.2 h.shows
  obtain ⟨i, hi⟩ := System.exists_handle h.shows.rx
  obtain ⟨j, hj⟩ := System.exists_handle h.shows.nic
  cases a with
  | bmcI2cRxIsr w msgData =>
    simp only [parties, h.isrRx, h.shows.rx] at hs
    split at hs
    · rw [hi] at hs
      obtain ⟨rfl, rfl⟩ := Prod.mk.inj (Option.some.inj hs)
      rw [← hi]
      exact ⟨_, _, rfl, rfl, rfl, h.setRx _⟩
    · cases hs
  | nicAlertIsr =>
    simp only [parties, h.isrNic, h.shows.nic] at hs
    split at hs
    · rw [hj] at hs
      obtain ⟨rfl, rfl⟩ := Prod.mk.inj (Option.some.inj hs)
      rw [← hj]
      exact ⟨_, _, rfl, rfl, rfl, h.setNic _⟩
    · cases hs
  | bmcMgrTask locals =>
    simp only [parties, hfirmware] at hs
    split at hs
    · obtain ⟨⟨fw', fwEvs⟩, htask, heq⟩ := Option.map_eq_some_iff.1 hs
      obtain ⟨rfl, rfl⟩ := Prod.mk.inj heq
      exact ⟨fw', fwEvs, htask, h.map_seen fwEvs, rfl, h.setFirmware fw'⟩
    · cases hs
  | waitTimeout =>
    have hevents : s.vars.bmcMgr.sEvents = true := (Bool.and_eq_true_iff.1 h.shows.handles).1
    simp only [parties, hevents, if_true] at hs
    split at hs
    · rename_i hwait
      obtain ⟨rfl, rfl⟩ := Prod.mk.inj (Option.some.inj hs)
      have hphase : fw.phase = .wait := by rw [h.shows.eq]; exact hwait.2
      exact ⟨{ fw with phase := .drainRx, sEvents := fw.sEvents.waitTimeout.2 }, [],
        if_pos hphase, rfl, rfl, h.frame rfl rfl (by rw [h.shows.eq])⟩
    · cases hs
  | sensorMgrTask sensorId rec =>
    have hmutex : s.vars.sensorMgr.sCacheMutex = true := (Bool.and_eq_true_iff.1 h.shows.handles).2
    obtain ⟨q, hq⟩ := h.alert
    simp only [parties, h.timer, h.sensorHal, hmutex, hq] at hs
    split at hs
    · obtain ⟨rfl, rfl⟩ := Prod.mk.inj (Option.some.inj hs)
      exact ⟨{ fw with sCache := sensorCacheStore fw.sCache sensorId rec }, [], rfl, rfl, rfl,
        h.frame rfl rfl (by rw [h.shows.eq])⟩
    · cases hs
  | flashReceive =>
    have htask : fw.flashTask = s.flashTask := by rw [h.shows.eq]
    cases hidle : s.flashTask with
    | some cmd => simp [parties, hidle] at hs
    | none =>
      simp only [parties, h.flashMgr, h.shows.flash, hidle] at hs
      split at hs
      · split at hs
        · rename_i cmd queue hreceive
          obtain ⟨rfl, rfl⟩ := Prod.mk.inj (Option.some.inj hs)
          have hset := h.setFlash queue
          refine ⟨{ fw with sFlashCmdQueue := queue, flashTask := some cmd }, [.flashReceived cmd], ?_,
            rfl, rfl, hset.frame rfl rfl (by rw [h.shows.eq]; rfl)⟩
          simp only [firmware, SystemAction.toFw, htask, hidle, hreceive]
        · cases hs
      · cases hs
  | flashFinish =>
    have htask : fw.flashTask = s.flashTask := by rw [h.shows.eq]
    simp only [parties, h.nicChipHal, if_true] at hs
    split at hs
    · split at hs
      · rename_i cmd hcmd
        obtain ⟨rfl, rfl⟩ := Prod.mk.inj (Option.some.inj hs)
        refine ⟨{ fw with flashTask := none }, [.flashFinished cmd], ?_, rfl, rfl,
          h.frame rfl rfl (by rw [h.shows.eq])⟩
        simp only [firmware, SystemAction.toFw, htask, hcmd]
      · cases hs
    · cases hs
  | clock ticks =>
    obtain ⟨rfl, rfl⟩ := Prod.mk.inj (Option.some.inj hs)
    exact ⟨{ fw with ticks := fw.ticks + ticks }, [], rfl, rfl, rfl,
      h.frame rfl rfl (by rw [h.shows.eq])⟩

/-! ## What `app_main` relies on, and what it guarantees -/

/-- What the other parties do: they change no handle, do nothing before one of them has started, apart
from the clock, and keep what is ready ready. -/
structure Rely (s s' : System) : Prop where
  vars : s'.vars = s.vars
  quiet : ¬ s.Started → ∃ n, s' = { s with ticks := s.ticks + n }
  ready : ∀ fw, ReadyFor s fw → ∃ fw', ReadyFor s' fw'

theorem System.started_congr (hvars : s'.vars = s.vars) : s'.Started ↔ s.Started := by
  unfold System.Started
  rw [hvars]

theorem Rely.refl (s : System) : Rely s s := ⟨rfl, fun _ => ⟨0, rfl⟩, fun fw h => ⟨fw, h⟩⟩

theorem Rely.trans (s s' s'' : System) (h : Rely s s') (h' : Rely s' s'') : Rely s s'' where
  vars := h'.vars.trans h.vars
  quiet := by
    intro hs
    obtain ⟨n, rfl⟩ := h.quiet hs
    obtain ⟨m, rfl⟩ := h'.quiet hs
    exact ⟨n + m, by simp [Nat.add_assoc]⟩
  ready := by
    intro fw hfw
    obtain ⟨fw', hfw'⟩ := h.ready fw hfw
    exact h'.ready fw' hfw'

/-- What a step of `app_main` does: nothing that another party could see, or it lets the first party
start when all is ready and as the machine of the BMC Manager starts, or it lets another one start. -/
inductive Guarantee (cfg : TickConfig) (s s' : System) : Prop
  | quiet (hs : ¬ s.Started) (hs' : ¬ s'.Started)
  | first (hs : ¬ s.Started) (t n : ℕ) (hready : ReadyFor s' { firmwareInit cfg t with ticks := t + n })
  | later (hs : s.Started) (hs' : s'.Started) (hready : ∀ fw, ReadyFor s fw → ReadyFor s' fw)

/-- The system and the trace, related to a run of the machine of the BMC Manager. -/
inductive RunsFirmware (cfg : TickConfig) (s : System) (tr : List SystemEvent) : Prop
  | quiet (hs : ¬ s.Started) (htr : tr = [])
  | running (hs : s.Started) (t : ℕ) (fwActs : List FwAction) (fw : Firmware) (fwTr : List FwEvent)
      (hrun : (firmware cfg).exec (firmwareInit cfg t) fwActs = some (fw, fwTr))
      (htr : tr = fwTr.map .fw) (hready : ReadyFor s fw)

/-- Before one of them has started, the other parties only see the clock advance. -/
theorem parties_step_quiet {a : SystemAction} {evs : List SystemEvent} (h : ¬ s.Started)
    (hs : (parties cfg).step s a = some (s', evs)) :
    (∃ n, s' = { s with ticks := s.ticks + n }) ∧ evs = [] := by
  simp only [System.Started, not_or, Bool.not_eq_true] at h
  obtain ⟨hrx, halert, hbmc, hsensor, hflash⟩ := h
  cases a with
  | clock ticks =>
    obtain ⟨rfl, rfl⟩ := Prod.mk.inj (Option.some.inj hs)
    exact ⟨⟨ticks, rfl⟩, rfl⟩
  | _ => simp [parties, hrx, halert, hbmc, hsensor, hflash] at hs

theorem parties_rely {a : SystemAction} {tr evs : List SystemEvent} (h : RunsFirmware cfg s tr)
    (hs : (parties cfg).step s a = some (s', evs)) :
    Rely s s' ∧ RunsFirmware cfg s' (tr ++ evs) := by
  cases h with
  | quiet hq htr =>
    obtain ⟨⟨n, rfl⟩, rfl⟩ := parties_step_quiet hq hs
    refine ⟨⟨rfl, fun _ => ⟨n, rfl⟩, fun fw hfw => ⟨{ fw with ticks := fw.ticks + n }, ?_⟩⟩,
      .quiet hq (by simp [htr])⟩
    exact hfw.frame rfl rfl (by rw [hfw.shows.eq])
  | running hst t fwActs fw fwTr hrun htr hready =>
    obtain ⟨fw', fwEvs, hstep, rfl, hvars, hready'⟩ := parties_step hready hs
    refine ⟨⟨hvars, fun hn => absurd hst hn, fun _ _ => ⟨fw', hready'⟩⟩, ?_⟩
    refine .running ((System.started_congr hvars).2 hst) t (fwActs ++ [a.toFw]) fw' (fwTr ++ fwEvs)
      (Machine.exec_snoc.2 ⟨fw, fwTr, fwEvs, hrun, hstep, rfl⟩) (by rw [htr, List.map_append]) hready'

theorem runsFirmware_guarantee {tr : List SystemEvent} (h : RunsFirmware cfg s tr)
    (hs : Guarantee cfg s s') : RunsFirmware cfg s' tr := by
  cases h with
  | quiet hq htr =>
    cases hs with
    | quiet _ hq' => exact .quiet hq' htr
    | first _ t n hready =>
      by_cases hst : s'.Started
      · refine .running hst t [.clock n] _ [] (Machine.exec_singleton.2 rfl) (by simp [htr]) ?_
        exact hready
      · exact .quiet hst htr
    | later hst => exact absurd hst hq
  | running hst t fwActs fw fwTr hrun htr hready =>
    cases hs with
    | quiet hq => exact absurd hst hq
    | first hq => exact absurd hst hq
    | later _ hst' hready' => exact .running hst' t fwActs fw fwTr hrun htr (hready' fw hready)

/-! ## Before the other parties have started -/

variable {A : Bool → Prop} {α ρ : Type} {Q : α → System → Prop} {P : System → Prop} {err : RtosErr}

/-- An initialisation function succeeded in a state of `P`, or failed with no other party started. It
fails only if a call may fail. -/
def Reached (A : Bool → Prop) (P : System → Prop) (err : RtosErr) (s : System) : Prop :=
  (err = .ok ∧ P s) ∨ (err ≠ .ok ∧ ¬ s.Started ∧ A false)

theorem meets_act {f : Bool → System → System × ρ} {k : ρ → AppM α} (hs : ¬ s.Started)
    (hf : ∀ n answer, s.ticks ≤ n → A answer →
      ¬ (f answer { s with ticks := n }).1.Started ∧
        (k (f answer { s with ticks := n }).2).Meets A Rely (Guarantee cfg) Q
          (f answer { s with ticks := n }).1) :
    (Thread.act f >>= k).Meets A Rely (Guarantee cfg) Q s := by
  intro s' hR answer hA
  obtain ⟨n, rfl⟩ := hR.quiet hs
  obtain ⟨hs', hk⟩ := hf _ answer (Nat.le_add_right _ n) hA
  exact ⟨.quiet hs hs', hk⟩

theorem meets_assign {f : System → System} {k : Unit → AppM α} (hs : ¬ s.Started)
    (hf : ∀ n, ¬ (f { s with ticks := n }).Started)
    (hk : ∀ n, s.ticks ≤ n → (k ()).Meets A Rely (Guarantee cfg) Q (f { s with ticks := n })) :
    (assign f >>= k).Meets A Rely (Guarantee cfg) Q s :=
  meets_act hs fun n _ hn _ => ⟨hf n, hk n hn⟩

theorem meets_read {f : InitVars → ρ} {k : ρ → AppM α} (hs : ¬ s.Started)
    (hk : ∀ n, s.ticks ≤ n → (k (f s.vars)).Meets A Rely (Guarantee cfg) Q { s with ticks := n }) :
    (readVars f >>= k).Meets A Rely (Guarantee cfg) Q s :=
  meets_act hs fun n _ hn _ => ⟨hs, hk n hn⟩

/-- Giving up. -/
theorem meets_fail (hs : ¬ s.Started) (herr : err ≠ .ok) (hA : A false) :
    (pure err : AppM RtosErr).Meets A Rely (Guarantee cfg) (Reached A P) s := by
  intro s' hR
  obtain ⟨n, rfl⟩ := hR.quiet hs
  exact Or.inr ⟨herr, hs, hA⟩

theorem meets_done (hs : ¬ s.Started) (hP : ∀ n, s.ticks ≤ n → P { s with ticks := n }) :
    (pure .ok : AppM RtosErr).Meets A Rely (Guarantee cfg) (Reached A P) s := by
  intro s' hR
  obtain ⟨n, rfl⟩ := hR.quiet hs
  exact Or.inl ⟨rfl, hP _ (Nat.le_add_right _ n)⟩

/-- A call whose result is checked. -/
theorem meets_checked {f : Bool → System → System} {k : AppM RtosErr} (hs : ¬ s.Started)
    (hf : ∀ ok n, ¬ (f ok { s with ticks := n }).Started) (herr : err ≠ .ok)
    (hk : ∀ n, s.ticks ≤ n →
      k.Meets A Rely (Guarantee cfg) (Reached A P) (f true { s with ticks := n })) :
    (Thread.act (fun ok s => (f ok s, ok)) >>= fun ok => if (!ok) = true then pure err else k).Meets A
      Rely (Guarantee cfg) (Reached A P) s := by
  refine meets_act hs fun n ok hn hA => ⟨hf ok n, ?_⟩
  cases ok with
  | false => exact meets_fail (hf false n) herr hA
  | true => exact hk n hn

theorem meets_external {k : AppM RtosErr} (hs : ¬ s.Started) (herr : err ≠ .ok)
    (hk : ∀ n, s.ticks ≤ n →
      k.Meets A Rely (Guarantee cfg) (Reached A P) { s with ticks := n }) :
    (external >>= fun ok => if (!ok) = true then pure err else k).Meets A Rely (Guarantee cfg)
      (Reached A P) s :=
  meets_checked (f := fun _ s => s) hs (fun _ _ => hs) herr hk

theorem meets_externalAssign {f : Bool → InitVars → InitVars} {k : AppM RtosErr} (hs : ¬ s.Started)
    (hf : ∀ ok, ¬ ({ s with vars := f ok s.vars } : System).Started) (herr : err ≠ .ok)
    (hk : ∀ n, s.ticks ≤ n →
      k.Meets A Rely (Guarantee cfg) (Reached A P) { s with vars := f true s.vars, ticks := n }) :
    (externalAssign f >>= fun ok => if (!ok) = true then pure err else k).Meets A Rely (Guarantee cfg)
      (Reached A P) s :=
  meets_checked (f := fun ok s => { s with vars := f ok s.vars }) hs (fun ok _ => hf ok) herr hk

theorem meets_queueCreate {new : QueueObject} {f : QueueHandle → InitVars → InitVars}
    {k : AppM RtosErr} (hs : ¬ s.Started)
    (hf : ∀ h, ¬ ({ s with vars := f h s.vars } : System).Started) (herr : err ≠ .ok)
    (hk : ∀ n, s.ticks ≤ n → k.Meets A Rely (Guarantee cfg) (Reached A P)
      { s with
        vars := f (some s.queues.length) s.vars, queues := s.queues ++ [new], ticks := n }) :
    (queueCreate new f >>= fun queue => if queue = none then pure err else k).Meets A Rely
      (Guarantee cfg) (Reached A P) s := by
  refine meets_act hs fun n ok hn hA => ?_
  cases ok with
  | false => exact ⟨hf none, meets_fail (hf none) herr hA⟩
  | true => exact ⟨hf (some s.queues.length), hk n hn⟩

/-- A part of the initialisation whose result is checked. -/
theorem meets_part {P' : System → Prop} {t k : AppM RtosErr}
    (ht : t.Meets A Rely (Guarantee cfg) (Reached A P') s)
    (hk : ∀ s', P' s' → k.Meets A Rely (Guarantee cfg) (Reached A P) s') :
    (t >>= fun err => if err ≠ .ok then pure err else k).Meets A Rely (Guarantee cfg) (Reached A P)
      s := by
  refine ht.bind Rely.refl fun err s' hreached => ?_
  rcases hreached with ⟨rfl, hP'⟩ | ⟨herr, hs', hA⟩
  · exact hk s' hP'
  · rw [if_pos herr]
    exact meets_fail hs' herr hA

/-! ## Phases -/

/-- The system after `init_queues`. -/
def afterQueues (ticks : ℕ) : System :=
  { powerUp ticks with
    vars := { (powerUp ticks).vars with
      main := ⟨some 0, some 1, some 2, some 3, false, false, false⟩ }
    queues := [.bmcRx (.create _ _), .nicEvent (.create _ _), .sensorAlert (.create _ _),
      .flashCmd (.create _ _)] }

theorem initQueues_meets (ticks : ℕ) :
    initQueues.Meets A Rely (Guarantee cfg) (Reached A fun s => ∃ n, s = afterQueues n)
      (powerUp ticks) := by
  have hs : ¬ (powerUp ticks).Started := by simp [powerUp, System.Started]
  unfold initQueues
  refine meets_queueCreate hs (fun _ => hs) (by decide) fun n _ => ?_
  refine meets_queueCreate hs (fun _ => hs) (by decide) fun n _ => ?_
  refine meets_queueCreate hs (fun _ => hs) (by decide) fun n _ => ?_
  refine meets_queueCreate hs (fun _ => hs) (by decide) fun n _ => ?_
  exact meets_done hs fun n _ => ⟨n, rfl⟩

theorem bmcHalInit_meets (hs : ¬ s.Started) :
    bmcHalInit.Meets A Rely (Guarantee cfg)
      (Reached A fun s' => ∃ n, s' = { s with vars.hal.bmcInitialized := true, ticks := n }) s := by
  unfold bmcHalInit
  refine meets_external hs (by decide) fun n _ => ?_
  refine meets_external hs (by decide) fun n _ => ?_
  refine meets_assign hs (fun _ => hs) fun n _ => ?_
  exact meets_done hs fun n _ => ⟨n, rfl⟩

theorem sensorHalInit_meets (hs : ¬ s.Started) :
    sensorHalInit.Meets A Rely (Guarantee cfg)
      (Reached A fun s' => ∃ n, s' = { s with vars.hal.sensorInitialized := true, ticks := n }) s := by
  unfold sensorHalInit
  refine meets_external hs (by decide) fun n _ => ?_
  refine meets_external hs (by decide) fun n _ => ?_
  refine meets_assign hs (fun _ => hs) fun n _ => ?_
  exact meets_done hs fun n _ => ⟨n, rfl⟩

theorem nicChipHalInit_meets (hs : ¬ s.Started) :
    nicChipHalInit.Meets A Rely (Guarantee cfg)
      (Reached A fun s' => ∃ n, s' = { s with vars.hal.nicChipInitialized := true, ticks := n }) s := by
  unfold nicChipHalInit
  refine meets_external hs (by decide) fun n _ => ?_
  refine meets_external hs (by decide) fun n _ => ?_
  refine meets_act hs fun n _ _ _ => ⟨hs, ?_⟩
  refine meets_assign hs (fun _ => hs) fun n _ => ?_
  exact meets_done hs fun n _ => ⟨n, rfl⟩

/-- The system after `init_hal`. -/
def afterHal (ticks : ℕ) : System :=
  { afterQueues ticks with
    vars := { (afterQueues ticks).vars with hal := ⟨true, false, true, true, false⟩ } }

theorem initHal_meets (ticks : ℕ) :
    initHal.Meets A Rely (Guarantee cfg) (Reached A fun s => ∃ n, s = afterHal n)
      (afterQueues ticks) := by
  have hs : ¬ (afterQueues ticks).Started := by simp [afterQueues, powerUp, System.Started]
  unfold initHal
  refine meets_part (bmcHalInit_meets hs) fun s₁ ⟨_, h₁⟩ => ?_
  subst h₁
  refine meets_part (sensorHalInit_meets hs) fun s₂ ⟨_, h₂⟩ => ?_
  subst h₂
  refine meets_part (nicChipHalInit_meets hs) fun s₃ ⟨_, h₃⟩ => ?_
  subst h₃
  exact meets_done hs fun n _ => ⟨n, rfl⟩

/-- The system after `bmc_mgr_init`, which read the clock at `t`. -/
def afterBmcMgr (cfg : TickConfig) (t ticks : ℕ) : System :=
  { afterHal ticks with
    vars := { (afterHal ticks).vars with bmcMgr := ⟨some 0, some 1, some 3, true⟩ }
    sEvents := .create
    mctp := protocolHdlrInit
    sLastBmcSeenMs := rtosGetTickMs cfg t
    sel := nicGenMgrInit }

theorem bmcMgrInit_meets (ticks : ℕ) :
    (bmcMgrInit cfg (some 0) (some 1) (some 3)).Meets A Rely (Guarantee cfg)
      (Reached A fun s => ∃ t n, t ≤ n ∧ s = afterBmcMgr cfg t n) (afterHal ticks) := by
  have hs : ¬ (afterHal ticks).Started := by simp [afterHal, afterQueues, powerUp, System.Started]
  unfold bmcMgrInit
  refine meets_assign hs (fun _ => hs) fun n _ => ?_
  refine meets_assign hs (fun _ => hs) fun n _ => ?_
  refine meets_assign hs (fun _ => hs) fun n _ => ?_
  refine meets_checked
    (f := fun ok s => { s with vars := { s.vars with bmcMgr.sEvents := ok }, sEvents := .create })
    hs (fun _ _ => hs) (by decide) fun n _ => ?_
  refine meets_assign hs (fun _ => hs) fun n _ => ?_
  refine meets_assign hs (fun _ => hs) fun n _ => ?_
  refine meets_assign hs (fun _ => hs) fun n _ => ?_
  exact meets_done hs fun m hn => ⟨n, m, hn, rfl⟩

/-- The system after `sensor_mgr_init`. -/
def afterSensorMgr (cfg : TickConfig) (t ticks : ℕ) : System :=
  { afterBmcMgr cfg t ticks with
    vars := { (afterBmcMgr cfg t ticks).vars with sensorMgr := ⟨some 2, true, true⟩ }
    sCache := sensorMgrInit }

theorem sensorMgrInitM_meets {t ticks : ℕ} (ht : t ≤ ticks) :
    (sensorMgrInitM (some 2)).Meets A Rely (Guarantee cfg)
      (Reached A fun s => ∃ t n, t ≤ n ∧ s = afterSensorMgr cfg t n) (afterBmcMgr cfg t ticks) := by
  have hs : ¬ (afterBmcMgr cfg t ticks).Started := by
    simp [afterBmcMgr, afterHal, afterQueues, powerUp, System.Started]
  unfold sensorMgrInitM
  refine meets_assign hs (fun _ => hs) fun n₁ h₁ => ?_
  refine meets_externalAssign hs (fun _ => hs) (by decide) fun n₂ h₂ => ?_
  refine meets_assign hs (fun _ => hs) fun n₃ h₃ => ?_
  refine meets_externalAssign hs (fun _ => hs) (by decide) fun n₄ h₄ => ?_
  exact meets_done hs fun n₅ h₅ =>
    ⟨t, n₅, Nat.le_trans ht (Nat.le_trans h₁ (Nat.le_trans h₂ (Nat.le_trans h₃ (Nat.le_trans h₄ h₅)))),
      rfl⟩

/-- The system after `init_services`. -/
def afterServices (cfg : TickConfig) (t ticks : ℕ) : System :=
  { afterSensorMgr cfg t ticks with
    vars := { (afterSensorMgr cfg t ticks).vars with sCmdQueue := some 3 } }

theorem nicFlashMgrInitM_meets {t ticks : ℕ} (ht : t ≤ ticks) :
    (nicFlashMgrInitM (some 3)).Meets A Rely (Guarantee cfg)
      (Reached A fun s => ∃ t n, t ≤ n ∧ s = afterServices cfg t n) (afterSensorMgr cfg t ticks) := by
  have hs : ¬ (afterSensorMgr cfg t ticks).Started := by
    simp [afterSensorMgr, afterBmcMgr, afterHal, afterQueues, powerUp, System.Started]
  unfold nicFlashMgrInitM spiFlashCmdInitM
  refine meets_assign hs (fun _ => hs) fun n₁ h₁ => ?_
  refine meets_read hs fun n₂ h₂ => ?_
  -- `s_initialized` was set by `init_hal`
  refine meets_external hs (by decide) fun n₃ h₃ => ?_
  exact meets_done hs fun n₄ h₄ =>
    ⟨t, n₄, Nat.le_trans ht (Nat.le_trans h₁ (Nat.le_trans h₂ (Nat.le_trans h₃ h₄))), rfl⟩

theorem initServices_meets (ticks : ℕ) :
    (initServices cfg).Meets A Rely (Guarantee cfg)
      (Reached A fun s => ∃ t n, t ≤ n ∧ s = afterServices cfg t n) (afterHal ticks) := by
  have hs : ¬ (afterHal ticks).Started := by simp [afterHal, afterQueues, powerUp, System.Started]
  unfold initServices
  refine meets_read hs fun n _ => ?_
  refine meets_read hs fun n _ => ?_
  refine meets_read hs fun n _ => ?_
  refine meets_part (bmcMgrInit_meets n) fun s₁ ⟨t, n₁, h₁, hs₁⟩ => ?_
  subst hs₁
  refine meets_read hs fun n₂ h₂ => ?_
  refine meets_part (sensorMgrInitM_meets (Nat.le_trans h₁ h₂)) fun s₃ ⟨t, n₃, h₃, hs₃⟩ => ?_
  subst hs₃
  refine meets_read hs fun n₄ h₄ => ?_
  refine meets_part (nicFlashMgrInitM_meets (Nat.le_trans h₃ h₄)) fun s₅ ⟨t, n₅, h₅, hs₅⟩ => ?_
  subst hs₅
  exact meets_done hs fun n₆ h₆ => ⟨t, n₆, Nat.le_trans h₅ h₆, rfl⟩

/-! ## While the other parties take steps -/

/-- The variables are the same, but for the tasks that exist and the callback for alerts. -/
structure SameHandles (v w : InitVars) : Prop where
  bmcMgr : w.bmcMgr = v.bmcMgr
  sensorMgr : w.sensorMgr = v.sensorMgr
  flashMgr : w.sCmdQueue = v.sCmdQueue
  isr : w.isr = v.isr
  hal : w.hal = { v.hal with alertCallback := w.hal.alertCallback }

theorem ReadyFor.sameHandles {w : InitVars} (h : ReadyFor s fw) (hw : SameHandles s.vars w) :
    ReadyFor { s with vars := w } fw := by
  obtain ⟨⟨hrx, hnic, hflash, hhandles, heq⟩, hisrRx, hisrNic, hflashMgr, halert, htimer, hbmc, hsensor,
    hchip⟩ := h
  obtain ⟨hb, hs, hf, hi, hh⟩ := hw
  rw [← hb] at hrx hnic hflash
  rw [← hb, ← hs] at hhandles
  rw [← hi, ← hb] at hisrRx hisrNic
  rw [← hf, ← hb] at hflashMgr
  rw [← hs] at halert htimer
  exact ⟨⟨hrx, hnic, hflash, hhandles, heq⟩, hisrRx, hisrNic, hflashMgr, halert, htimer,
    by rw [hh]; exact hbmc, by rw [hh]; exact hsensor, by rw [hh]; exact hchip⟩

/-- A call after the first callback has been registered. -/
theorem meets_later {f : Bool → InitVars → InitVars} {k : Bool → AppM α} {v : InitVars}
    (hv : s.vars = v) (hrx : v.hal.sRxCallback = true) (hf : ∀ ok, SameHandles v (f ok v))
    (hk : ∀ s' ok, A ok → s'.vars = f ok v → (k ok).Meets A Rely (Guarantee cfg) Q s') :
    (externalAssign f >>= k).Meets A Rely (Guarantee cfg) Q s := by
  intro s' hR ok hA
  obtain rfl : s'.vars = v := hR.vars.trans hv
  refine ⟨.later (Or.inl hrx) (Or.inl ?_) fun fw h => h.sameHandles (hf ok), hk _ ok hA rfl⟩
  show (f ok s'.vars).hal.sRxCallback = true
  rw [(hf ok).hal]
  exact hrx

/-! ## Interrupts -/

/-- The variables after the callback for writes has been registered. -/
def registeredVars : InitVars where
  main := ⟨some 0, some 1, some 2, some 3, false, false, false⟩
  hal := ⟨true, true, true, true, false⟩
  bmcMgr := ⟨some 0, some 1, some 3, true⟩
  sensorMgr := ⟨some 2, true, true⟩
  sCmdQueue := some 3
  isr := ⟨some 0, some 1, some 2⟩

theorem registered_ready {t ticks : ℕ} (ht : t ≤ ticks) :
    ReadyFor { afterServices cfg t ticks with vars := registeredVars }
      { firmwareInit cfg t with ticks := t + (ticks - t) } := by
  rw [Nat.add_sub_cancel' ht]
  exact ⟨⟨rfl, rfl, rfl, rfl, rfl⟩, rfl, rfl, rfl, ⟨_, rfl⟩, rfl, rfl, rfl, rfl⟩

/-- The callback for writes is registered when all is ready. -/
theorem bmcHalRegisterIsr_meets {t ticks : ℕ} (ht : t ≤ ticks) :
    bmcHalRegisterIsr.Meets A Rely (Guarantee cfg) (fun _ s => s.vars = registeredVars)
      { afterServices cfg t ticks with vars := { registeredVars with hal.sRxCallback := false } } := by
  intro s' hR answer _
  have hs : ¬ ({ afterServices cfg t ticks with
      vars := { registeredVars with hal.sRxCallback := false } } : System).Started := by
    simp [registeredVars, System.Started]
  obtain ⟨n, rfl⟩ := hR.quiet hs
  refine ⟨.first hs t (ticks + n - t) (registered_ready (Nat.le_trans ht (Nat.le_add_right _ n))), ?_⟩
  exact fun s'' hR' => hR'.vars

theorem nicChipHalRegisterAlertIsr_meets (hs : s.vars = registeredVars) :
    nicChipHalRegisterAlertIsr.Meets A Rely (Guarantee cfg)
      (fun _ s' => ∃ ok, s'.vars = { registeredVars with hal.alertCallback := ok }) s := by
  have hsame : SameHandles registeredVars registeredVars := ⟨rfl, rfl, rfl, rfl, rfl⟩
  unfold nicChipHalRegisterAlertIsr
  refine meets_later (f := fun _ v => v) hs rfl (fun _ => hsame) fun s₁ _ _ h₁ => ?_
  refine meets_later (f := fun _ v => v) h₁ rfl (fun _ => hsame) fun s₂ _ _ h₂ => ?_
  refine meets_later h₂ rfl (fun _ => ⟨rfl, rfl, rfl, rfl, rfl⟩) fun s₃ ok _ h₃ => ?_
  cases ok with
  | false => exact fun s' hR => ⟨false, hR.vars.trans h₃⟩
  | true => exact fun s' hR => ⟨true, hR.vars.trans h₃⟩

theorem initIsr_meets {t ticks : ℕ} (ht : t ≤ ticks) :
    initIsr.Meets A Rely (Guarantee cfg)
      (fun err s => err = .ok ∧ ∃ ok, s.vars = { registeredVars with hal.alertCallback := ok })
      (afterServices cfg t ticks) := by
  have hs : ¬ (afterServices cfg t ticks).Started := by
    simp [afterServices, afterSensorMgr, afterBmcMgr, afterHal, afterQueues, powerUp, System.Started]
  unfold initIsr isrHandlersInit
  refine meets_read hs fun n₁ h₁ => ?_
  refine meets_read hs fun n₂ h₂ => ?_
  refine meets_read hs fun n₃ h₃ => ?_
  refine meets_assign hs (fun _ => hs) fun n₄ h₄ => ?_
  refine meets_assign hs (fun _ => hs) fun n₅ h₅ => ?_
  refine meets_assign hs (fun _ => hs) fun n₆ h₆ => ?_
  have hle : t ≤ n₆ := Nat.le_trans ht (Nat.le_trans h₁ (Nat.le_trans h₂ (Nat.le_trans h₃
    (Nat.le_trans h₄ (Nat.le_trans h₅ h₆)))))
  refine (bmcHalRegisterIsr_meets hle).bind Rely.refl fun _ s₁ hs₁ => ?_
  refine (nicChipHalRegisterAlertIsr_meets hs₁).bind Rely.refl fun _ s₂ ⟨ok, hs₂⟩ => ?_
  exact fun s' hR => ⟨rfl, ok, hR.vars.trans hs₂⟩

/-! ## Tasks -/

/-- How `app_main` ends: all tasks exist and both callbacks were handed to the drivers, or the flash
thread, the last task, does not exist. It gives up only if a call may fail. -/
def Ended (A : Bool → Prop) (err : RtosErr) (s : System) : Prop :=
  (err = .ok ∧ s.vars.main.sBmcMgrTask = true ∧ s.vars.main.sSensorMgrTask = true ∧
    s.vars.main.sFlashMgrTask = true ∧ s.vars.hal.sRxCallback = true) ∨
  (err ≠ .ok ∧ s.vars.main.sFlashMgrTask = false ∧ A false)

theorem rtosTaskCreate_meets {f : Bool → InitVars → InitVars} {v : InitVars} (hv : s.vars = v)
    (hrx : v.hal.sRxCallback = true) (hf : ∀ ok, SameHandles v (f ok v)) :
    (rtosTaskCreate f).Meets A Rely (Guarantee cfg)
      (fun err s' => (err = .ok ∧ s'.vars = f true v) ∨ (err ≠ .ok ∧ s'.vars = f false v ∧ A false))
      s := by
  unfold rtosTaskCreate
  refine meets_later hv hrx hf fun s₁ ok hA hs₁ => ?_
  cases ok with
  | false => exact fun s' hR => Or.inr ⟨by decide, hR.vars.trans hs₁, hA⟩
  | true => exact fun s' hR => Or.inl ⟨rfl, hR.vars.trans hs₁⟩

/-- A task that could not be created ends `app_main`. -/
theorem meets_taskFailed (herr : err ≠ .ok) (hs : s.vars.main.sFlashMgrTask = false) (hA : A false) :
    (pure err : AppM RtosErr).Meets A Rely (Guarantee cfg) (Ended A) s := by
  intro s' hR
  exact Or.inr ⟨herr, by rw [hR.vars]; exact hs, hA⟩

theorem createTasks_meets {alert : Bool}
    (hs : s.vars = { registeredVars with hal.alertCallback := alert }) :
    createTasks.Meets A Rely (Guarantee cfg) (Ended A) s := by
  unfold createTasks
  refine (rtosTaskCreate_meets hs rfl fun _ => ⟨rfl, rfl, rfl, rfl, rfl⟩).bind Rely.refl
    fun err s₁ h₁ => ?_
  rcases h₁ with ⟨rfl, hs₁⟩ | ⟨herr, hs₁, hA⟩
  · refine (rtosTaskCreate_meets hs₁ rfl fun _ => ⟨rfl, rfl, rfl, rfl, rfl⟩).bind Rely.refl
      fun err s₂ h₂ => ?_
    rcases h₂ with ⟨rfl, hs₂⟩ | ⟨herr, hs₂, hA⟩
    · refine (rtosTaskCreate_meets hs₂ rfl fun _ => ⟨rfl, rfl, rfl, rfl, rfl⟩).bind Rely.refl
        fun err s₃ h₃ => ?_
      rcases h₃ with ⟨rfl, hs₃⟩ | ⟨herr, hs₃, hA⟩
      · intro s' hR
        have hvars := hR.vars.trans hs₃
        exact Or.inl ⟨rfl, by rw [hvars], by rw [hvars], by rw [hvars], by rw [hvars]; rfl⟩
      · rw [if_pos herr]
        exact meets_taskFailed herr (by rw [hs₃]) hA
    · rw [if_pos herr]
      exact meets_taskFailed herr (by rw [hs₂]; rfl) hA
  · rw [if_pos herr]
    exact meets_taskFailed herr (by rw [hs₁]; rfl) hA

/-! ## The whole of `app_main` -/

/-- A part of the initialisation before the first callback, in `app_main`. -/
theorem meets_phase {t k : AppM RtosErr} (ht : t.Meets A Rely (Guarantee cfg) (Reached A P) s)
    (hk : ∀ s', P s' → k.Meets A Rely (Guarantee cfg) (Ended A) s') :
    (t >>= fun err => if err ≠ .ok then pure err else k).Meets A Rely (Guarantee cfg) (Ended A) s := by
  refine ht.bind Rely.refl fun err s' hreached => ?_
  rcases hreached with ⟨rfl, hP⟩ | ⟨herr, hs', hA⟩
  · exact hk s' hP
  · rw [if_pos herr]
    simp only [System.Started, not_or, Bool.not_eq_true] at hs'
    exact meets_taskFailed herr hs'.2.2.2.2 hA

theorem appMain_meets (ticks : ℕ) :
    (appMain cfg).Meets A Rely (Guarantee cfg) (Ended A) (powerUp ticks) := by
  unfold appMain
  refine meets_phase (initQueues_meets ticks) fun s₁ ⟨n₁, h₁⟩ => ?_
  subst h₁
  refine meets_phase (initHal_meets n₁) fun s₂ ⟨n₂, h₂⟩ => ?_
  subst h₂
  refine meets_phase (initServices_meets n₂) fun s₃ ⟨t, n₃, hle, h₃⟩ => ?_
  subst h₃
  refine (initIsr_meets hle).bind Rely.refl fun err s₄ ⟨herr, alert, h₄⟩ => ?_
  subst herr
  refine (createTasks_meets h₄).bind Rely.refl fun err s₅ h₅ => ?_
  have hret : (if err ≠ .ok then pure err else pure .ok : AppM RtosErr) = pure err := by
    by_cases herr : err = .ok
    · rw [if_neg (not_not_intro herr), herr]
    · rw [if_pos herr]
  rw [hret]
  intro s' hR
  unfold Ended at h₅ ⊢
  rw [hR.vars]
  exact h₅

/-- From power-up on, whichever calls fail and however `app_main`, the interrupts and the tasks
interleave: nothing happens before the callback for writes is registered; no handle is used before it is
valid, and no driver before it is initialised; and what the interrupts and tasks do is a run of the
machine of the BMC Manager from the state in which its services are initialised. -/
theorem system_runsFirmware {ticks : ℕ} {acts : List (Bool ⊕ SystemAction)} {rest : AppM RtosErr}
    {tr : List SystemEvent}
    (h : (system cfg).exec (appMain cfg, powerUp ticks) acts = some ((rest, s), tr)) :
    (¬ s.Started → tr = []) ∧
      ∃ t fwActs fw fwTr, (firmware cfg).exec (firmwareInit cfg t) fwActs = some (fw, fwTr) ∧
        tr = fwTr.map .fw ∧ (s.Started → s.firmware = some fw) := by
  have hquiet : RunsFirmware cfg (powerUp ticks) [] :=
    .quiet (by simp [powerUp, System.Started]) rfl
  obtain ⟨-, hruns⟩ := (appMain_meets (A := fun _ => True) ticks).invariant Rely.trans Rely.refl
    (fun s tr a s' evs hI hs => parties_rely hI hs) (fun s tr s' hI hs => runsFirmware_guarantee hI hs)
    hquiet (fun _ _ => trivial) h
  cases hruns with
  | quiet hs htr => exact ⟨fun _ => htr, ticks, [], _, [], rfl, htr, fun hst => absurd hst hs⟩
  | running hs t fwActs fw fwTr hrun htr hready =>
    exact ⟨fun hn => absurd hs hn, t, fwActs, fw, fwTr, hrun, htr,
      fun _ => System.firmware_eq_some.2 hready.shows⟩

/-- A reading is requested as soon as the callback for writes is registered, and answered when the BMC
Manager exists; the callback for alerts and the sensor thread fail. -/
def bootRun : List (Bool ⊕ SystemAction) :=
  List.replicate 40 (.inl true) ++
    [.inr (.bmcI2cRxIsr sensorRequest (Vector.replicate _ 0)), .inl true, .inl true, .inl false,
      .inr (.clock 3), .inl true, .inr .waitTimeout, .inr (.bmcMgrTask zeroLocals), .inl false]

theorem system_runsFirmware_boot :
    ∃ rest s tr, (system ⟨10, 100⟩).exec (appMain ⟨10, 100⟩, powerUp 0) bootRun =
        some ((rest, s), tr) ∧
      tr.length = 4 ∧ ∃ t fwActs fw fwTr,
        (firmware ⟨10, 100⟩).exec (firmwareInit ⟨10, 100⟩ t) fwActs = some (fw, fwTr) ∧
          tr = fwTr.map .fw := by
  have heval : ((system ⟨10, 100⟩).exec (appMain ⟨10, 100⟩, powerUp 0) bootRun).any
      (fun r : (AppM RtosErr × System) × List SystemEvent => decide (r.2.length = 4)) = true := by
    decide +kernel
  obtain ⟨⟨rest, s⟩, tr, hrun, hlen⟩ := Machine.exists_of_any heval
  obtain ⟨-, t, fwActs, fw, fwTr, hfw, htr, -⟩ := system_runsFirmware hrun
  exact ⟨rest, s, tr, hrun, hlen, t, fwActs, fw, fwTr, hfw, htr⟩

/-! ## Length -/

theorem within_act {f : Bool → System → System × ρ} {k : ρ → AppM α} {n : ℕ}
    (h : ∀ r, (k r).Within n) : (Thread.act f >>= k).Within (n + 1) := h

theorem within_ret {a : α} {n : ℕ} : (pure a : AppM α).Within n := by
  cases n <;> exact trivial

theorem within_check {c : Prop} [Decidable c] {a : α} {t : AppM α} {n : ℕ} (h : t.Within n) :
    (if c then pure a else t).Within n := by
  split
  · exact within_ret
  · exact h

theorem within_part {t k : AppM RtosErr} {n m : ℕ} (ht : t.Within n) (hk : k.Within m) :
    (t >>= fun err => if err ≠ .ok then pure err else k).Within (n + m) :=
  ht.bind fun _ => within_check hk

theorem initQueues_within : initQueues.Within 4 := by
  unfold initQueues
  repeat refine within_act fun _ => within_check ?_
  exact within_ret

theorem initHal_within : initHal.Within 10 := by
  have hbmc : bmcHalInit.Within 3 :=
    within_act fun _ => within_check (within_act fun _ => within_check (within_act fun _ => within_ret))
  have hsensor : sensorHalInit.Within 3 :=
    within_act fun _ => within_check (within_act fun _ => within_check (within_act fun _ => within_ret))
  have hchip : nicChipHalInit.Within 4 :=
    within_act fun _ => within_check (within_act fun _ => within_check (within_act fun _ =>
      within_act fun _ => within_ret))
  exact within_part (m := 7) hbmc (within_part (m := 4) hsensor (within_part (m := 0) hchip within_ret))

theorem bmcMgrInit_within (rx nic flash : QueueHandle) : (bmcMgrInit cfg rx nic flash).Within 7 := by
  unfold bmcMgrInit
  refine within_act fun _ => within_act fun _ => within_act fun _ => ?_
  refine within_act fun _ => within_check ?_
  exact within_act fun _ => within_act fun _ => within_act fun _ => within_ret

theorem sensorMgrInitM_within (alert : QueueHandle) : (sensorMgrInitM alert).Within 4 := by
  unfold sensorMgrInitM
  refine within_act fun _ => within_act fun _ => within_check ?_
  exact within_act fun _ => within_act fun _ => within_check within_ret

theorem nicFlashMgrInitM_within (cmd : QueueHandle) : (nicFlashMgrInitM cmd).Within 3 := by
  unfold nicFlashMgrInitM spiFlashCmdInitM
  exact within_act fun _ => within_act fun _ => within_check (within_act fun _ => within_check within_ret)

theorem initServices_within : (initServices cfg).Within 19 := by
  unfold initServices
  refine within_act fun rx => within_act fun nic => within_act fun flash => ?_
  refine within_part (m := 9) (bmcMgrInit_within rx nic flash) ?_
  refine within_act fun alert => within_part (m := 4) (sensorMgrInitM_within alert) ?_
  exact within_act fun cmd => within_part (m := 0) (nicFlashMgrInitM_within cmd) within_ret

theorem initIsr_within : initIsr.Within 10 := by
  have hrx : bmcHalRegisterIsr.Within 1 := within_act fun _ => within_ret
  have halert : nicChipHalRegisterAlertIsr.Within 3 :=
    within_act fun _ => within_act fun _ => within_act fun _ => within_check within_ret
  unfold initIsr isrHandlersInit
  refine within_act fun _ => within_act fun _ => within_act fun _ => ?_
  refine within_act fun _ => within_act fun _ => within_act fun _ => ?_
  exact hrx.bind (m := 3) fun _ => halert.bind (m := 0) fun _ => within_ret

theorem createTasks_within : createTasks.Within 3 := by
  have htask : ∀ f, (rtosTaskCreate f).Within 1 := fun f => within_act fun _ => within_check within_ret
  exact within_part (m := 2) (htask _) (within_part (m := 1) (htask _)
    (within_part (m := 0) (htask _) within_ret))

theorem appMain_within : (appMain cfg).Within 46 := by
  unfold appMain
  refine within_part (m := 42) initQueues_within (within_part (m := 32) initHal_within ?_)
  refine within_part (m := 13) initServices_within (within_part (m := 3) initIsr_within ?_)
  exact within_part (m := 0) createTasks_within within_ret

/-- `app_main` is never blocked and takes at most 46 steps, whatever the interrupts and tasks do
meanwhile. When it has ended, either all three tasks exist and the callback for writes is registered, or
a call has failed and the flash thread, the last task, does not exist. -/
theorem appMain_ends {ticks : ℕ} {acts : List (Bool ⊕ SystemAction)} {rest : AppM RtosErr}
    {tr : List SystemEvent}
    (h : (system cfg).exec (appMain cfg, powerUp ticks) acts = some ((rest, s), tr)) :
    (Thread.answers acts).length ≤ 46 ∧
      ((∀ ok, ((system cfg).step (rest, s) (.inl ok)).isSome) ∨
        ∃ err, rest = .ret err ∧
          ((err = .ok ∧ s.vars.main.sBmcMgrTask = true ∧ s.vars.main.sSensorMgrTask = true ∧
            s.vars.main.sFlashMgrTask = true ∧ s.vars.hal.sRxCallback = true) ∨
          (err ≠ .ok ∧ s.vars.main.sFlashMgrTask = false ∧ false ∈ Thread.answers acts))) := by
  refine ⟨(appMain_within.run h).1, ?_⟩
  cases rest with
  | atomic f k => exact Or.inl fun ok => rfl
  | ret err =>
    refine Or.inr ⟨err, rfl, ?_⟩
    have hquiet : RunsFirmware cfg (powerUp ticks) [] :=
      .quiet (by simp [powerUp, System.Started]) rfl
    -- the answers given are those that a call may get
    obtain ⟨hmeets, -⟩ := (appMain_meets (A := (· ∈ Thread.answers acts)) ticks).invariant Rely.trans
      Rely.refl (fun s tr a s' evs hI hs => parties_rely hI hs)
      (fun s tr s' hI hs => runsFirmware_guarantee hI hs) hquiet (fun _ ha => ha) h
    exact hmeets.of_ret Rely.refl

/-- Every call succeeds. -/
theorem appMain_ends_boot :
    ∃ rest s tr, (system ⟨10, 100⟩).exec (appMain ⟨10, 100⟩, powerUp 0)
        (List.replicate 46 (.inl true)) = some ((rest, s), tr) ∧
      rest = .ret .ok ∧ s.vars.main.sBmcMgrTask = true ∧ s.vars.main.sSensorMgrTask = true := by
  have heval : ((system ⟨10, 100⟩).exec (appMain ⟨10, 100⟩, powerUp 0)
      (List.replicate 46 (.inl true))).any
      (fun r : (AppM RtosErr × System) × List SystemEvent =>
        decide (((system ⟨10, 100⟩).step r.1 (.inl true)).isSome = false ∧
          r.1.2.vars.main.sFlashMgrTask = true)) = true := by
    decide +kernel
  obtain ⟨⟨rest, s⟩, tr, hrun, hstep, hflash⟩ := Machine.exists_of_any heval
  obtain ⟨-, hsome | ⟨err, rfl, ⟨rfl, hbmc, hsensor, -, -⟩ | ⟨-, hno, -⟩⟩⟩ := appMain_ends hrun
  · exact absurd (hsome true) (by rw [hstep]; exact Bool.false_ne_true)
  · exact ⟨_, s, tr, hrun, rfl, hbmc, hsensor⟩
  · exact absurd (hflash.symm.trans hno) (by decide)

end NicObFw
