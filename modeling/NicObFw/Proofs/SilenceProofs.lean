import Mathlib.Data.List.Chain
import NicObFw.Proofs.SelProofs

/-!
# Proofs: silence of the BMC

`bmc_mgr_task` logs the silence of the BMC at every turn of its loop for as long as it lasts. An episode
adds one entry to the log exactly if the next liveness check succeeds, and if all are that short the NIC
events stay in the log as long as they should (`bmcMgr_silence_loggedOnce`).
-/

namespace NicObFw

variable {marks pre post : List LogMark} {alive : Bool}

/-! ## Marks -/

/-- The step logged what it is meant to: a check that fails the silence, a NIC event itself. -/
def LogMark.Right : LogMark → Prop
  | check alive logged => logged = if alive then [] else [(msgTypeLiveness, 0)]
  | nic evt logged => logged = [(evt.eventType, evt.eventData)]

/-- Of two successive checks one succeeds. -/
abbrev OneAlive (alive alive' : Bool) : Prop := alive = true ∨ alive' = true

@[simp] theorem checks_append (marks marks' : List LogMark) :
    checks (marks ++ marks') = checks marks ++ checks marks' := by
  simp [checks]

@[simp] theorem checks_nic (evt : NicEventMsg) (logged : List (UInt8 × UInt32))
    (marks : List LogMark) : checks (.nic evt logged :: marks) = checks marks := rfl

@[simp] theorem checks_check (alive : Bool) (logged : List (UInt8 × UInt32)) (marks : List LogMark) :
    checks (.check alive logged :: marks) = alive :: checks marks := rfl

/-- What follows a part of the run continues from the last check in it. -/
theorem isChain_lastCheck (h : (checks (pre ++ post)).IsChain OneAlive) :
    (lastCheck pre :: checks post).IsChain OneAlive := by
  rw [checks_append, List.isChain_append] at h
  rw [List.isChain_cons]
  refine ⟨fun alive' halive => ?_, h.2.1⟩
  cases hlast : (checks pre).getLast? with
  | none => exact Or.inl (by rw [lastCheck, List.getLastD_eq_getLast?, hlast]; rfl)
  | some last =>
    rw [lastCheck, List.getLastD_eq_getLast?, hlast]
    exact h.2.2 last hlast alive' halive

/-- Without two failing checks in a row every entry is an incident. -/
theorem incidents_eq (hright : ∀ m ∈ marks, m.Right)
    (hchain : (alive :: checks marks).IsChain OneAlive) :
    incidents alive marks = (marks.flatMap LogMark.logged).length := by
  induction marks generalizing alive with
  | nil => rfl
  | cons m marks ih =>
    rw [List.forall_mem_cons] at hright
    rw [List.flatMap_cons, List.length_append]
    cases m with
    | nic evt logged =>
      rw [incidents, ih hright.2 hchain, LogMark.logged, hright.1, List.length_singleton, Nat.add_comm]
    | check alive' logged =>
      rw [checks_check, List.isChain_cons_cons] at hchain
      rw [incidents, ih hright.2 hchain.2, LogMark.logged, hright.1]
      congr 1
      rcases hchain.1 with rfl | rfl
      · cases alive' <;> rfl
      · simp

/-! ## Episodes -/

/-- The same as `EpisodesLoggedOnce`, for a part of the run that the check `alive` came before. -/
def EpisodesOnceFrom (alive : Bool) (marks : List LogMark) : Prop :=
  ∀ pre logged post, marks = pre ++ .check false logged :: post →
    (checks pre).getLastD alive = true →
    episodeEntries (.check false logged :: post) = [(msgTypeLiveness, 0)]

/-- The result of the last check after one more mark. -/
def LogMark.next (alive : Bool) : LogMark → Bool
  | check alive' _ => alive'
  | nic .. => alive

theorem episodesOnceFrom_cons {m : LogMark} :
    EpisodesOnceFrom alive (m :: marks) ↔
      (∀ logged, m = .check false logged → alive = true →
        episodeEntries (m :: marks) = [(msgTypeLiveness, 0)]) ∧
      EpisodesOnceFrom (m.next alive) marks := by
  have hlast : ∀ pre, (checks (m :: pre)).getLastD alive = (checks pre).getLastD (m.next alive) := by
    intro pre
    cases m with
    | check alive' logged => rw [checks_check, List.getLastD_cons, LogMark.next]
    | nic evt logged => rfl
  constructor
  · intro h
    refine ⟨?_, fun pre logged post hsplit hpre => ?_⟩
    · rintro logged rfl halive
      exact h [] logged marks rfl halive
    · exact h (m :: pre) logged post (by rw [hsplit]; rfl) ((hlast pre).trans hpre)
  · rintro ⟨hfirst, hrest⟩ pre logged post hsplit hpre
    cases pre with
    | nil =>
      obtain ⟨rfl, rfl⟩ := List.cons.inj hsplit
      exact hfirst logged rfl hpre
    | cons m' pre =>
      obtain ⟨rfl, rfl⟩ := List.cons.inj hsplit
      exact hrest pre logged post rfl ((hlast pre).symm.trans hpre)

/-- An episode goes on for as long as the checks fail. -/
theorem episodeEntries_eq_nil_iff (hright : ∀ m ∈ marks, m.Right) :
    episodeEntries marks = [] ↔ ∀ alive ∈ (checks marks).head?, alive = true := by
  induction marks with
  | nil => simp [episodeEntries, checks]
  | cons m marks ih =>
    rw [List.forall_mem_cons] at hright
    cases m with
    | nic evt logged => exact ih hright.2
    | check alive logged =>
      have hlogged : logged = if alive then [] else [(msgTypeLiveness, 0)] := hright.1
      cases alive <;> simp [episodeEntries, hlogged]

/-- Every episode is logged once exactly if no check fails right after one that failed. -/
theorem episodesOnceFrom_iff (hright : ∀ m ∈ marks, m.Right) :
    (alive :: checks marks).IsChain OneAlive ↔
      EpisodesOnceFrom alive marks ∧ ∀ alive' ∈ (checks marks).head?, OneAlive alive alive' := by
  induction marks generalizing alive with
  | nil =>
    have hnone : EpisodesOnceFrom alive [] := by
      intro pre logged post hsplit
      simp at hsplit
    simp [checks, hnone]
  | cons m marks ih =>
    rw [List.forall_mem_cons] at hright
    rw [episodesOnceFrom_cons]
    cases m with
    | nic evt logged =>
      rw [checks_nic, ih hright.2]
      simp [LogMark.next]
    | check alive' logged =>
      have hnil := episodeEntries_eq_nil_iff hright.2
      have hlogged : logged = if alive' then [] else [(msgTypeLiveness, 0)] := hright.1
      rw [checks_check, List.isChain_cons_cons, ih hright.2]
      cases alive' with
      | true => simp [LogMark.next, OneAlive]
      | false =>
        have hepisode : episodeEntries (.check false logged :: marks) =
            (msgTypeLiveness, 0) :: episodeEntries marks := by
          rw [hlogged]
          rfl
        have hrest : (∀ logged', LogMark.check false logged = .check false logged' → alive = true →
            (msgTypeLiveness, 0) :: episodeEntries marks = [(msgTypeLiveness, (0 : UInt32))]) ↔
            (alive = true → ∀ alive' ∈ (checks marks).head?, alive' = true) := by
          rw [← hnil]
          simp
        rw [hepisode, hrest]
        cases alive <;> simp [LogMark.next, OneAlive, and_comm]

theorem episodesLoggedOnce_iff (hright : ∀ m ∈ marks, m.Right) :
    EpisodesLoggedOnce marks ↔ NeverSilentTwice marks := by
  have hiff := @episodesOnceFrom_iff marks true hright
  have hchain : (true :: checks marks).IsChain OneAlive ↔ NeverSilentTwice marks := by
    rw [List.isChain_cons, NeverSilentTwice]
    simp [OneAlive]
  rw [← hchain, hiff]
  simp only [OneAlive, true_or, implies_true, and_true]
  rfl

/-! ## Whole runs -/

variable {cfg : TickConfig} {fw fw' : Firmware} {tr evs : List FwEvent} {a : FwAction}

/-- What is observed of a run is all that is logged. -/
structure MarksInv (fw : Firmware) (tr : List FwEvent) (marks : List LogMark) : Prop where
  log : LogInv fw tr
  right : ∀ m ∈ marks, m.Right
  logged : marks.flatMap LogMark.logged = entriesLogged tr

theorem logMarks_spec (hs : FwStep cfg fw a fw' evs) :
    (∀ m ∈ logMarks cfg fw a evs, m.Right) ∧
      (logMarks cfg fw a evs).flatMap LogMark.logged = entriesLogged evs := by
  cases hs with
  | nic locals evt q hp hq => simp [logMarks, hp, LogMark.Right, LogMark.logged, entriesLogged]
  | nicDone locals hp hq => simp [logMarks, hp, entriesLogged]
  | alive locals hp hl => simp [logMarks, hp, hl, LogMark.Right, LogMark.logged, entriesLogged]
  | silent locals hp hl => simp [logMarks, hp, hl, LogMark.Right, LogMark.logged, entriesLogged]
  | wake locals hp hr => simp [logMarks, hp, entriesLogged]
  | rxDone locals hp hq => simp [logMarks, hp, entriesLogged]
  | rx locals raw q fq dispatched hp hq hd =>
    rw [entriesLogged_quiet (isLog_rx raw _ hd)]
    simp [logMarks, hp]
  | _ => simp [logMarks, entriesLogged]

theorem marksInv_of_exec {ticks : ℕ} {acts : List FwAction}
    (hrun : (firmware cfg).exec (firmwareInit cfg ticks) acts = some (fw, tr)) :
    MarksInv fw tr ((firmware cfg).observe (logMarks cfg) (firmwareInit cfg ticks) acts) := by
  refine Machine.invariant_observe ⟨logInv_init cfg ticks, by simp, rfl⟩ ?_ hrun
  intro fw tr marks a fw' evs h hs
  have hstep := firmware_step_cases hs
  obtain ⟨hright, hlogged⟩ := logMarks_spec hstep
  refine ⟨h.log.step hstep, fun m hm => ?_, ?_⟩
  · exact (List.mem_append.1 hm).elim (h.right m) (hright m)
  · rw [List.flatMap_append, h.logged, hlogged, entriesLogged_append]

/-- If no two checks fail in a row, the ring has room for the entries of all incidents. -/
theorem MarksInv.keepsNicEvents {marks : List LogMark} (h : MarksInv fw tr marks)
    (hchain : NeverSilentTwice marks) : KeepsNicEvents fw.sel marks := by
  rintro pre evt logged post rfl hlt
  have hright := h.right
  rw [List.forall_mem_append, List.forall_mem_cons] at hright
  have hpost := isChain_lastCheck hchain
  rw [checks_nic] at hpost
  rw [incidents_eq hright.2.2 hpost] at hlt
  have hlogged : logged = [(evt.eventType, evt.eventData)] := hright.2.1
  have hentries := h.logged
  rw [List.flatMap_append, List.flatMap_cons, LogMark.logged, hlogged] at hentries
  set later := post.flatMap LogMark.logged with hlater
  have hlen : (entriesLogged tr).length = (pre.flatMap LogMark.logged).length + 1 + later.length := by
    rw [← hentries, List.length_append, List.length_append, List.length_singleton]
    omega
  have hk : later.length < min (entriesLogged tr).length 32 := by omega
  have hindex : (entriesLogged tr).length - 1 - later.length =
      (pre.flatMap LogMark.logged).length := by omega
  refine ⟨by rw [h.log.indices.1]; exact hk, ?_⟩
  rw [h.log.recent hk, hindex, ← hentries, List.getElem?_append_right (Nat.le_refl _)]
  simp

/-- Every episode of silence adds one entry to the log exactly in the runs in which no liveness check
fails right after one that failed. In these runs the log keeps every NIC event until 32 incidents have
come after it. -/
theorem bmcMgr_silence_loggedOnce (cfg : TickConfig) (ticks : ℕ) (acts : List FwAction)
    (fw : Firmware) (tr : List FwEvent)
    (hrun : (firmware cfg).exec (firmwareInit cfg ticks) acts = some (fw, tr)) :
    let marks := (firmware cfg).observe (logMarks cfg) (firmwareInit cfg ticks) acts
    (EpisodesLoggedOnce marks ↔ NeverSilentTwice marks) ∧
      (NeverSilentTwice marks → KeepsNicEvents fw.sel marks) := by
  have hinv := marksInv_of_exec hrun
  exact ⟨episodesLoggedOnce_iff hinv.right, hinv.keepsNicEvents⟩

/-- One turn of the loop of `bmc_mgr_task`, woken by its timeout, with nothing in the queues. -/
def idleTurn : List FwAction :=
  [.waitTimeout, .bmcMgrTask zeroLocals, .bmcMgrTask zeroLocals, .bmcMgrTask zeroLocals]

/-- A NIC event that arrives while the task waits, and is logged. -/
def nicAlertRun : List FwAction :=
  [.nicPost nicAlertEvent, .waitTimeout, .bmcMgrTask zeroLocals, .bmcMgrTask zeroLocals]

/-- A NIC event is logged while the BMC is alive. Then 5 s pass, and the task goes round `turns` times
with the BMC silent. -/
def silentRun (turns : ℕ) : List FwAction :=
  nicAlertRun ++ [.bmcMgrTask zeroLocals, .bmcMgrTask zeroLocals, .clock 500] ++
    (List.replicate turns idleTurn).flatten

theorem bmcMgr_silence_loggedOnce_turn :
    ∃ fw tr, (firmware ⟨10, 100⟩).exec (firmwareInit ⟨10, 100⟩ 0) (silentRun 1) = some (fw, tr) ∧
      (entriesLogged tr).length = 2 ∧
      KeepsNicEvents fw.sel
        ((firmware ⟨10, 100⟩).observe (logMarks ⟨10, 100⟩) (firmwareInit ⟨10, 100⟩ 0) (silentRun 1)) :=
  ⟨_, _, rfl, rfl, (bmcMgr_silence_loggedOnce ⟨10, 100⟩ 0 (silentRun 1) _ _ rfl).2
    (by unfold NeverSilentTwice; decide +kernel)⟩

/-- The BMC falls silent once, one incident after the NIC event, and after 32 turns of the loop every
slot of the log holds an entry for this silence. -/
theorem nicEvent_erased :
    ∃ fw tr, (firmware ⟨10, 100⟩).exec (firmwareInit ⟨10, 100⟩ 0) (silentRun 32) = some (fw, tr) ∧
      nicLogged tr = [nicAlertEvent] ∧
      (∀ entry ∈ fw.sel.sSelLog.toList, entry.content = (msgTypeLiveness, 0)) ∧
      ¬ KeepsNicEvents fw.sel ((firmware ⟨10, 100⟩).observe (logMarks ⟨10, 100⟩)
        (firmwareInit ⟨10, 100⟩ 0) (silentRun 32)) := by
  have heval : ((firmware ⟨10, 100⟩).exec (firmwareInit ⟨10, 100⟩ 0) (silentRun 32)).any (fun r =>
      nicLogged r.2 = [nicAlertEvent] ∧ r.1.sel.sSelCount.toNat = 32 ∧
        ∀ entry ∈ r.1.sel.sSelLog.toList, entry.content = (msgTypeLiveness, 0)) = true := by
    decide +kernel
  obtain ⟨fw, tr, hrun, hnic, hcount, hslots⟩ := Machine.exists_of_any heval
  refine ⟨fw, tr, hrun, hnic, hslots, fun h => ?_⟩
  -- the event is the first mark, and 32 entries came after it
  have hkeep := h [] nicAlertEvent [(nicEventHwError, 0)] (.check true [] ::
    List.replicate 32 (.check false [(msgTypeLiveness, 0)])) (by decide +kernel) (by decide)
  have hlt : 32 < fw.sel.sSelCount.toNat := hkeep.1
  exact absurd hlt (Nat.not_lt.2 (Nat.le_of_eq hcount))

end NicObFw
