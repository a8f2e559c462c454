import NicObFw.Proofs.FlashBusyProofs
import NicObFw.Proofs.StagingFailureProofs

/-!
# Proofs: the update state

`s_fw_state` and `s_update_active` between two commands of the flash thread. What a command leaves in
them is said once (`nicFlashMgrTask_step_st`); the history of a run decides the rest
(`nicFlashMgrTask_state_truthful`).
-/

namespace NicObFw

open Traced

variable {W : Type} {env : FlashEnv W} {polls : ℕ}

/-! ## One update -/

/-- Whatever the range, a staging write stops at its first failure. -/
theorem writeImageToStaging_endsCleanly (offset : UInt32) (data : ℕ → UInt8) (size : UInt32) (w : W) :
    EndsCleanly (writeImageToStaging env polls offset data size w).ret
      (writeImageToStaging env polls offset data size w).trace := by
  have hoperation : ∀ (tx : List UInt8) (n : ℕ) (timeoutMs : UInt32),
      Triple (fun tr _ => NoFailure tr) (flashOperation env polls tx n timeoutMs)
        (Ends (fun _ tr _ => NoFailure tr) fun ret tr _ => EndsCleanly ret tr) := by
    intro tx n timeoutMs tr w h
    have hends : EndsCleanly (flashOperation env polls tx n timeoutMs w).ret
        (tr ++ (flashOperation env polls tx n timeoutMs w).trace) :=
      EndsCleanly.append h (flashOperation_outcome tx n timeoutMs w).endsCleanly
    generalize flashOperation env polls tx n timeoutMs w = o at hends ⊢
    obtain ⟨ret, evs, w'⟩ := o
    cases ret with
    | done _ => exact hends
    | error _ => exact hends
    | running => exact hends
  refine writeImageLoop_triple (I := fun _ _ _ tr _ => NoFailure tr)
    (M := fun _ _ _ tr _ => NoFailure tr) (Q := fun ret tr _ => EndsCleanly ret tr) ?_ ?_ ?_
    offset data size [] w (fun e he => absurd he List.not_mem_nil)
  · intro addr data remaining _
    by_cases hboundary : addr.toNat % 4096 = 0
    · rw [eraseSectorEntered_boundary hboundary]
      exact hoperation _ _ _
    · rw [eraseSectorEntered_inside hboundary]
      exact triple_pure fun _ _ h => h
  · intro addr data remaining _
    rw [writePage_chunk]
    exact hoperation _ _ _
  · exact fun _ _ _ _ _ _ h => h

/-- What `handle_update_start` leaves in the static variables, if it comes to its end. -/
theorem handleUpdateStart_st {data : ℕ → UInt8} {cmd : FlashCmd} {w : W} {st : FlashMgrState}
    {err : RtosErr} (h : (handleUpdateStart env polls data cmd w).ret = .done (st, err)) :
    (st = ⟨.idle, false⟩ ∧ NoFailure (handleUpdateStart env polls data cmd w).trace) ∨
    (st = ⟨.error, true⟩ ∧ ¬ NoFailure (handleUpdateStart env polls data cmd w).trace) := by
  have hends : EndsCleanly (writeImageToStaging env polls cmd.imageOffset data cmd.imageSize w).ret
      (writeImageToStaging env polls cmd.imageOffset data cmd.imageSize w).trace :=
    writeImageToStaging_endsCleanly cmd.imageOffset data cmd.imageSize w
  rw [handleUpdateStart_apply] at h ⊢
  generalize writeImageToStaging env polls cmd.imageOffset data cmd.imageSize w = o at h hends ⊢
  obtain ⟨ret, evs, w'⟩ := o
  cases ret with
  | done _ =>
    obtain ⟨rfl, -⟩ := Prod.mk.inj (Ret.done.inj h)
    exact Or.inl ⟨rfl, hends⟩
  | error e =>
    obtain ⟨rfl, -⟩ := Prod.mk.inj (Ret.done.inj h)
    refine Or.inr ⟨rfl, fun hno => ?_⟩
    have hdone := (hends.done_iff (by simp)).2 hno
    cases hdone
  | running => cases h

/-! ## One command -/

/-- What a command leaves in the static variables, once it has come to its end. -/
theorem nicFlashMgrTask_step_st {t t' : FlashTask W} {job : FlashJob W} {evs : List FlashEvent}
    (hs : (nicFlashMgrTask env).step t job = some (t', evs)) (hended : t'.stuck = false) :
    (job.cmd.cmdType = flashCmdUpdateStart ∧
      (t'.st = ⟨.idle, false⟩ ∧ NoFailure evs ∨ t'.st = ⟨.error, true⟩ ∧ ¬ NoFailure evs)) ∨
    (job.cmd.cmdType = flashCmdUpdateAbort ∧ t'.st = ⟨.idle, false⟩) ∨
    (job.cmd.isUpdate = false ∧ t'.st = t.st) := by
  cases (nicFlashMgrTask_step_cases hs).2 with
  | ended st err hstart hret => exact Or.inl ⟨hstart, handleUpdateStart_st hret⟩
  | stuck hstart => cases hended
  | abort hstart habort => exact Or.inr (Or.inl ⟨habort, rfl⟩)
  | other hstart habort => exact Or.inr (Or.inr ⟨by simp [FlashCmd.isUpdate, hstart, habort], rfl⟩)

/-! ## The history -/

/-- The static variables tell the truth about the history. -/
structure Truthful (st : FlashMgrState) (taken : List (FlashCmd × List FlashEvent)) : Prop where
  state : st = ⟨.idle, false⟩ ∨ st = ⟨.error, true⟩
  failed : st = ⟨.error, true⟩ ↔ LastUpdateFailed taken

/-- A command that is not an update changes nothing about it. -/
theorem lastUpdateFailed_snoc_other {taken : List (FlashCmd × List FlashEvent)} {cmd : FlashCmd}
    (evs : List FlashEvent) (h : cmd.isUpdate = false) :
    LastUpdateFailed (taken ++ [(cmd, evs)]) ↔ LastUpdateFailed taken := by
  simp [LastUpdateFailed, h]

/-- An update command decides it. -/
theorem lastUpdateFailed_snoc_update {taken : List (FlashCmd × List FlashEvent)} {cmd : FlashCmd}
    (evs : List FlashEvent) (h : cmd.isUpdate = true) :
    LastUpdateFailed (taken ++ [(cmd, evs)]) ↔
      cmd.cmdType = flashCmdUpdateStart ∧ ∃ e ∈ evs, e.fails = true := by
  have hlast : ((taken ++ [(cmd, evs)]).filter fun c => c.1.isUpdate).getLast? =
      some (cmd, evs) := by
    rw [List.filter_append]
    simp [h]
  unfold LastUpdateFailed
  rw [hlast]
  constructor
  · rintro ⟨cmd', evs', heq, hstart, hfail⟩
    obtain ⟨rfl, rfl⟩ := Prod.mk.inj (Option.some.inj heq)
    exact ⟨hstart, hfail⟩
  · rintro ⟨hstart, hfail⟩
    exact ⟨cmd, evs, rfl, hstart, hfail⟩

theorem not_noFailure_iff {evs : List FlashEvent} : ¬ NoFailure evs ↔ ∃ e ∈ evs, e.fails = true := by
  simp [NoFailure]

theorem Truthful.step {t t' : FlashTask W} {taken : List (FlashCmd × List FlashEvent)}
    {job : FlashJob W} {evs : List FlashEvent} (h : Truthful t.st taken)
    (hs : (nicFlashMgrTask env).step t job = some (t', evs)) (hended : t'.stuck = false) :
    Truthful t'.st (taken ++ [(job.cmd, evs)]) := by
  have hne : (⟨.idle, false⟩ : FlashMgrState) ≠ ⟨.error, true⟩ := by decide
  rcases nicFlashMgrTask_step_st hs hended with
    ⟨hstart, ⟨hst, hno⟩ | ⟨hst, hfail⟩⟩ | ⟨habort, hst⟩ | ⟨hother, hst⟩
  · have hupd : job.cmd.isUpdate = true := by simp [FlashCmd.isUpdate, hstart]
    refine ⟨Or.inl hst, ?_⟩
    rw [hst, lastUpdateFailed_snoc_update evs hupd, ← not_noFailure_iff]
    exact iff_of_false hne fun hf => hf.2 hno
  · have hupd : job.cmd.isUpdate = true := by simp [FlashCmd.isUpdate, hstart]
    refine ⟨Or.inr hst, ?_⟩
    rw [hst, lastUpdateFailed_snoc_update evs hupd, ← not_noFailure_iff]
    exact iff_of_true rfl ⟨hstart, hfail⟩
  · have hupd : job.cmd.isUpdate = true := by simp [FlashCmd.isUpdate, habort]
    have hnot : ¬ job.cmd.cmdType = flashCmdUpdateStart := by
      rw [habort]
      decide
    refine ⟨Or.inl hst, ?_⟩
    rw [hst, lastUpdateFailed_snoc_update evs hupd]
    exact iff_of_false hne fun hf => hnot hf.1
  · rw [hst]
    exact ⟨h.state, h.failed.trans (lastUpdateFailed_snoc_other evs hother).symm⟩

/-- Between two commands the update state is (`IDLE`, false) or (`ERROR`, true), and it is the second
exactly if the last update command started an update during which a transfer failed or a wait timed
out. -/
theorem nicFlashMgrTask_state_truthful (env : FlashEnv W) (w : W) (jobs : List (FlashJob W))
    (t : FlashTask W) (tr : List FlashEvent)
    (hrun : (nicFlashMgrTask env).exec (flashTaskInit env w) jobs = some (t, tr))
    (hended : t.stuck = false) :
    (t.st = ⟨.idle, false⟩ ∨ t.st = ⟨.error, true⟩) ∧
    (t.st = ⟨.error, true⟩ ↔ LastUpdateFailed (takenCmds env (flashTaskInit env w) jobs)) := by
  have hinit : Truthful (flashTaskInit env w).st [] := by
    refine ⟨Or.inl rfl, iff_of_false (by simp [flashTaskInit]) ?_⟩
    rintro ⟨cmd, evs, h, -⟩
    simp at h
  have htruth : t.stuck = false → Truthful t.st (takenCmds env (flashTaskInit env w) jobs) :=
    Machine.invariant_observe
      (I := fun t _ taken => t.stuck = false → Truthful t.st taken) (fun _ => hinit)
      (fun t tr taken job t' evs hI hs hended' =>
        (hI (nicFlashMgrTask_step_cases hs).1).step hs hended') hrun
  exact ⟨(htruth hended).state, (htruth hended).failed⟩

/-- An update, an abort, another update, and a command that is none of them. -/
def fourCommands : List (FlashJob (NorFlash.Chip × ℕ)) :=
  let job := fun cmd : FlashCmd => FlashJob.mk cmd id (fun _ => 0) 2
  [job ⟨flashCmdUpdateStart, 0, 0, 0, 1⟩, job ⟨flashCmdUpdateAbort, 0, 0, 0, 0⟩,
    job ⟨flashCmdUpdateStart, 0, 0, 0, 1⟩, job ⟨7, 0, 0, 0, 0⟩]

/-- On a bus that breaks after three transfers, the state follows the second update. -/
theorem nicFlashMgrTask_state_truthful_four :
    ∃ t tr, (nicFlashMgrTask (breakingEnv 3)).exec
        (flashTaskInit (breakingEnv 3) (⟨fun _ => 0xFF, false, false⟩, 0)) fourCommands =
          some (t, tr) ∧
      t.st = ⟨.error, true⟩ ∧ (t.st = ⟨.idle, false⟩ ∨ t.st = ⟨.error, true⟩) ∧
      (t.st = ⟨.error, true⟩ ↔ LastUpdateFailed (takenCmds (breakingEnv 3)
        (flashTaskInit (breakingEnv 3) (⟨fun _ => 0xFF, false, false⟩, 0)) fourCommands)) := by
  have heval : ((nicFlashMgrTask (breakingEnv 3)).exec
      (flashTaskInit (breakingEnv 3) (⟨fun _ => 0xFF, false, false⟩, 0)) fourCommands).any
      (fun r => decide (r.1.st = ⟨.error, true⟩ ∧ r.1.stuck = false)) = true := by decide +kernel
  obtain ⟨t, tr, hrun, hst, hended⟩ := Machine.exists_of_any heval
  exact ⟨t, tr, hrun, hst, nicFlashMgrTask_state_truthful _ _ _ t tr hrun hended⟩

end NicObFw
