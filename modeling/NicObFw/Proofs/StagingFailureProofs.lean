import NicObFw.Proofs.StagingFrameProofs
import NicObFw.Proofs.StagingImageProofs
import NicObFw.Proofs.WaitReadyProofs

/-!
# A staging write that fails

How a failure ends `write_image_to_staging`: nothing is sent after it, and the pages that were finished
before it keep the image. Every operation of the loop is described once, by the entries that it leaves
(`flashOperation_outcome`); what a failure does is read off that description.
-/

namespace NicObFw

open Traced NorFlash

variable {W : Type} {env : FlashEnv W} {chipOf : W → Chip} {polls : ℕ}

/-! ## What an operation leaves in the trace -/

/-- A status read that succeeded. -/
def FlashEvent.GoodRead (e : FlashEvent) : Prop := ∃ rx, e = .spi (some readStatusTx) rx true

/-- A transfer that failed. -/
def FlashEvent.BadTransfer (tx : List UInt8) (e : FlashEvent) : Prop :=
  (∃ rx, e = .spi (some tx) rx false) ∨ e = .spiRefused (some tx)

/-- How the polling loop can end, with the entries that it leaves. -/
inductive PollOutcome : Ret RtosErr Unit → List FlashEvent → Prop
  | ended (ret : Ret RtosErr Unit) (reads : List FlashEvent) (hreads : ∀ e ∈ reads, e.GoodRead)
      (hret : ret = .done () ∨ ret = .running ∨ ret = .error .timeout) : PollOutcome ret reads
  | failed (reads : List FlashEvent) (e : FlashEvent) (hreads : ∀ e ∈ reads, e.GoodRead)
      (he : e.BadTransfer readStatusTx) : PollOutcome (.error .fail) (reads ++ [e])

/-- How an operation can end, with the entries that it leaves. -/
inductive OperationOutcome (tx : List UInt8) (timeoutMs : UInt32) :
    Ret RtosErr Unit → List FlashEvent → Prop
  | notEnabled (e : FlashEvent) (he : e.BadTransfer [flashCmdWriteEnable]) :
      OperationOutcome tx timeoutMs (.error .fail) [e]
  | notSent (rx : List UInt8) (e : FlashEvent) (he : e.BadTransfer tx) :
      OperationOutcome tx timeoutMs (.error .fail) [.spi (some [flashCmdWriteEnable]) rx true, e]
  | waited (rx rx' : List UInt8) (ret : Ret RtosErr Unit) (reads : List FlashEvent)
      (h : PollOutcome ret reads) :
      OperationOutcome tx timeoutMs ret
        (.spi (some [flashCmdWriteEnable]) rx true :: .spi (some tx) rx' true ::
          (reads ++ [.waitReady timeoutMs ret]))

theorem pollEvent_good {w : W} (h : pollSucceeds env w) : (pollEvent env w).GoodRead := by
  unfold pollEvent
  rw [if_pos h.1, h.2]
  exact ⟨_, rfl⟩

theorem pollEvent_bad {w : W} (h : ¬ pollSucceeds env w) :
    (pollEvent env w).BadTransfer readStatusTx := by
  unfold pollEvent
  by_cases hi : env.sInitialized = true
  · rw [if_pos hi]
    have hok : (env.spiDeviceTransmit w (some readStatusTx) 2).1 = false := by
      simpa [pollSucceeds, hi] using h
    rw [hok]
    exact Or.inl ⟨_, rfl⟩
  · rw [if_neg hi]
    exact Or.inr rfl

theorem PollOutcome.cons {ret : Ret RtosErr Unit} {evs : List FlashEvent} (h : PollOutcome ret evs)
    {e : FlashEvent} (he : e.GoodRead) : PollOutcome ret (e :: evs) := by
  cases h with
  | ended _ _ hreads hret => exact .ended ret _ (List.forall_mem_cons.2 ⟨he, hreads⟩) hret
  | failed reads e' hreads he' =>
    exact .failed (e :: reads) e' (List.forall_mem_cons.2 ⟨he, hreads⟩) he'

theorem waitReadyLoop_outcome (timeoutMs start : UInt32) (polls : ℕ) (w : W) :
    PollOutcome (waitReadyLoop env timeoutMs start polls w).ret
      (waitReadyLoop env timeoutMs start polls w).trace := by
  induction polls generalizing w with
  | zero => exact .ended .running [] (fun e he => absurd he List.not_mem_nil) (Or.inr (Or.inl rfl))
  | succ polls ih =>
    rcases waitReadyLoop_turn timeoutMs start polls w with
      ⟨hno, he⟩ | ⟨hs, -, he⟩ | ⟨hs, -, -, he⟩ | ⟨hs, -, -, he⟩
    · rw [he]
      exact .failed [] _ (fun e he => absurd he List.not_mem_nil) (pollEvent_bad hno)
    · rw [he]
      exact .ended _ _ (List.forall_mem_singleton.2 (pollEvent_good hs)) (Or.inl rfl)
    · rw [he]
      exact (ih (afterTest env w)).cons (pollEvent_good hs)
    · rw [he]
      exact .ended _ _ (List.forall_mem_singleton.2 (pollEvent_good hs)) (Or.inr (Or.inr rfl))

/-- Everything that an operation can leave behind. -/
theorem flashOperation_outcome (tx : List UInt8) (n : ℕ) (timeoutMs : UInt32) (w : W) :
    OperationOutcome tx timeoutMs (flashOperation env polls tx n timeoutMs w).ret
      (flashOperation env polls tx n timeoutMs w).trace := by
  refine (triple_from_start (Q := fun r tr _ => OperationOutcome tx timeoutMs r tr)).1 ?_
  unfold flashOperation
  refine triple_seq (M := fun _ tr _ => ∃ rx, tr = [.spi (some [flashCmdWriteEnable]) rx true])
    (sendCommand_triple ?_ ?_ ?_) fun _ => ?_
  · rintro tr w rx w' ⟨rfl, -⟩ -
    exact ⟨rx.toList, rfl⟩
  · rintro tr w rx w' ⟨rfl, -⟩ -
    exact .notEnabled _ (Or.inl ⟨_, rfl⟩)
  · rintro tr w ⟨rfl, -⟩ -
    exact .notEnabled _ (Or.inr rfl)
  refine triple_seq (M := fun _ tr _ => ∃ rx rx', tr =
    [.spi (some [flashCmdWriteEnable]) rx true, .spi (some tx) rx' true])
    (sendCommand_triple ?_ ?_ ?_) fun _ => ?_
  · rintro tr w rx' w' ⟨rx, rfl⟩ -
    exact ⟨rx, rx'.toList, rfl⟩
  · rintro tr w rx' w' ⟨rx, rfl⟩ -
    exact .notSent rx _ (Or.inl ⟨_, rfl⟩)
  · rintro tr w ⟨rx, rfl⟩ -
    exact .notSent rx _ (Or.inr rfl)
  rintro tr w ⟨rx, rx', rfl⟩
  rw [spiFlashCmdWaitReady_apply]
  exact .waited rx rx' _ _ (waitReadyLoop_outcome timeoutMs (startMs env w) polls (afterStart env w))

/-! ## Where a trace stops -/

/-- Nothing in the trace failed. -/
def NoFailure (tr : List FlashEvent) : Prop := ∀ e ∈ tr, e.fails = false

/-- A program that ends with an error has stopped at a failure; no other has met one. -/
def EndsCleanly : Ret RtosErr Unit → List FlashEvent → Prop
  | .error _, tr => StopsAtFailure tr
  | _, tr => NoFailure tr

theorem NoFailure.append {tr evs : List FlashEvent} (h : NoFailure tr) (h' : NoFailure evs) :
    NoFailure (tr ++ evs) :=
  List.forall_mem_append.2 ⟨h, h'⟩

theorem EndsCleanly.append {ret : Ret RtosErr Unit} {tr evs : List FlashEvent} (h : NoFailure tr)
    (h' : EndsCleanly ret evs) : EndsCleanly ret (tr ++ evs) := by
  cases ret with
  | error _ =>
    obtain ⟨before, e, after, rfl, hbefore, he, hafter⟩ := h'
    exact ⟨tr ++ before, e, after, by simp, h.append hbefore, he, hafter⟩
  | done _ => exact h.append h'
  | running => exact h.append h'

theorem EndsCleanly.done_iff {ret : Ret RtosErr Unit} {tr : List FlashEvent}
    (h : EndsCleanly ret tr) (hret : ret ≠ .running) : ret = .done () ↔ NoFailure tr := by
  cases ret with
  | done _ => exact ⟨fun _ => h, fun _ => rfl⟩
  | error _ =>
    obtain ⟨before, e, after, rfl, -, he, -⟩ := h
    refine ⟨fun hdone => (by cases hdone), fun hno => ?_⟩
    rw [hno e (by simp)] at he
    cases he
  | running => exact absurd rfl hret

theorem FlashEvent.BadTransfer.fails {tx : List UInt8} {e : FlashEvent} (h : e.BadTransfer tx) :
    e.fails = true := by
  rcases h with ⟨rx, rfl⟩ | rfl
  · rfl
  · rfl

theorem FlashEvent.GoodRead.not_fails {e : FlashEvent} (h : e.GoodRead) : e.fails = false := by
  obtain ⟨rx, rfl⟩ := h
  rfl

theorem PollOutcome.endsCleanly {ret : Ret RtosErr Unit} {reads : List FlashEvent}
    (h : PollOutcome ret reads) (timeoutMs : UInt32) :
    EndsCleanly ret (reads ++ [.waitReady timeoutMs ret]) := by
  cases h with
  | ended _ _ hreads hret =>
    have hgood : NoFailure reads := fun e he => (hreads e he).not_fails
    rcases hret with rfl | rfl | rfl
    · exact hgood.append (List.forall_mem_singleton.2 rfl)
    · exact hgood.append (List.forall_mem_singleton.2 rfl)
    · exact ⟨reads, _, [], rfl, hgood, rfl, fun x hx => absurd hx List.not_mem_nil⟩
  | failed reads e hreads he =>
    refine ⟨reads, e, [.waitReady timeoutMs (.error .fail)], by simp,
      fun x hx => (hreads x hx).not_fails, he.fails, List.forall_mem_singleton.2 rfl⟩

/-- An operation that fails stops there. -/
theorem OperationOutcome.endsCleanly {tx : List UInt8} {timeoutMs : UInt32} {ret : Ret RtosErr Unit}
    {evs : List FlashEvent} (h : OperationOutcome tx timeoutMs ret evs) : EndsCleanly ret evs := by
  cases h with
  | notEnabled e he =>
    exact ⟨[], e, [], rfl, fun x hx => absurd hx List.not_mem_nil, he.fails,
      fun x hx => absurd hx List.not_mem_nil⟩
  | notSent rx e he =>
    exact ⟨[_], e, [], rfl, List.forall_mem_singleton.2 rfl, he.fails,
      fun x hx => absurd hx List.not_mem_nil⟩
  | waited rx rx' _ reads hpoll =>
    have hsent : NoFailure [.spi (some [flashCmdWriteEnable]) rx true, .spi (some tx) rx' true] :=
      List.forall_mem_cons.2 ⟨rfl, List.forall_mem_singleton.2 rfl⟩
    exact EndsCleanly.append hsent (hpoll.endsCleanly timeoutMs)

/-- An operation that comes to its end has met no failure. -/
theorem OperationOutcome.allSucceeded {tx : List UInt8} {timeoutMs : UInt32} {a : Unit}
    {evs : List FlashEvent} (h : OperationOutcome tx timeoutMs (.done a) evs) : AllSucceeded evs := by
  cases h with
  | waited rx rx' _ reads hpoll =>
    cases hpoll with
    | ended _ _ hreads _ =>
      refine List.forall_mem_cons.2 ⟨rfl, List.forall_mem_cons.2 ⟨rfl, fun e he => ?_⟩⟩
      rcases List.mem_append.1 he with he | he
      · obtain ⟨rx, rfl⟩ := hreads e he
        rfl
      · obtain rfl := List.mem_singleton.1 he
        rfl

/-! ## Pages -/

/-- Whether a command programs a page. -/
def isPageProgram (tx : List UInt8) : Bool :=
  match decode tx with
  | .pageProgram _ _ => true
  | _ => false

theorem pageProgress_append (tr evs : List FlashEvent) :
    pageProgress (tr ++ evs) = evs.foldl pageStep (pageProgress tr) := by
  simp [pageProgress]

theorem pageStep_bad {tx : List UInt8} {e : FlashEvent} (h : e.BadTransfer tx) (p : Bool × ℕ) :
    pageStep p e = p := by
  rcases h with ⟨rx, rfl⟩ | rfl
  · rfl
  · rfl

theorem pageStep_reads {reads : List FlashEvent} (h : ∀ e ∈ reads, e.GoodRead) (p : Bool × ℕ) :
    reads.foldl pageStep p = p := by
  induction reads with
  | nil => rfl
  | cons e reads ih =>
    obtain ⟨⟨rx, rfl⟩, hreads⟩ := List.forall_mem_cons.1 h
    exact ih hreads

theorem pageStep_sent (tx rx : List UInt8) (k : ℕ) :
    pageStep (false, k) (.spi (some tx) rx true) = (isPageProgram tx, k) := by
  cases h : decode tx <;> simp [pageStep, isPageProgram, h]

/-- What an operation adds to the pages: one, if it programs a page and comes to its end. -/
theorem OperationOutcome.pages {tx : List UInt8} {timeoutMs : UInt32} {ret : Ret RtosErr Unit}
    {evs : List FlashEvent} (h : OperationOutcome tx timeoutMs ret evs) (k : ℕ) :
    (ret = .done () → evs.foldl pageStep (false, k) =
      (false, if isPageProgram tx then k + 1 else k)) ∧
    (ret ≠ .done () → (evs.foldl pageStep (false, k)).2 = k) := by
  cases h with
  | notEnabled e he => exact ⟨fun hdone => (by cases hdone), fun _ => by simp [pageStep_bad he]⟩
  | notSent rx e he =>
    refine ⟨fun hdone => (by cases hdone), fun _ => ?_⟩
    simp [pageStep_bad he, pageStep_sent]
  | waited rx rx' _ reads hpoll =>
    have hwe : isPageProgram [flashCmdWriteEnable] = false := rfl
    simp only [List.foldl_cons, List.foldl_append, List.foldl_nil, pageStep_sent, hwe]
    cases hpoll with
    | ended _ _ hreads hret =>
      rw [pageStep_reads hreads]
      rcases hret with rfl | rfl | rfl
      · exact ⟨fun _ => rfl, fun hno => absurd rfl hno⟩
      · exact ⟨fun hdone => (by cases hdone), fun _ => rfl⟩
      · exact ⟨fun hdone => (by cases hdone), fun _ => rfl⟩
    | failed reads e hreads he =>
      refine ⟨fun hdone => (by cases hdone), fun _ => ?_⟩
      simp only [List.foldl_append, List.foldl_cons, List.foldl_nil, pageStep_reads hreads,
        pageStep_bad he]
      rfl

/-! ## One operation of the loop -/

/-- The bytes from `offset` up to `limit` are those of the image. -/
def HoldsPrefix (image : ℕ → UInt8) (offset limit : ℕ) (mem : ℕ → UInt8) : Prop :=
  ∀ a, offset ≤ a → a < limit → mem a = image (a - offset)

/-- Between two operations: nothing has failed, the chip is idle and holds `mem`, and `k` pages are
finished. -/
structure Between (chipOf : W → Chip) (mem : ℕ → UInt8) (k : ℕ) (tr : List FlashEvent) (w : W) :
    Prop where
  succeeded : AllSucceeded tr
  idle : Idle (chipOf w) mem
  pages : pageProgress tr = (false, k)

/-- Every end of the staging write: a failure stops it, and the finished pages hold the image. -/
def Stopped (chipOf : W → Chip) (image : ℕ → UInt8) (offset size : ℕ) :
    Ret RtosErr Unit → List FlashEvent → W → Prop :=
  fun ret tr w => EndsCleanly ret tr ∧
    HoldsPrefix image offset (offset + min (256 * completedPages tr) size) (chipOf w).mem

theorem noFailure_of_allSucceeded {tr : List FlashEvent} (h : AllSucceeded tr) : NoFailure tr := by
  intro e he
  have hs := h e he
  cases e with
  | spi tx rx ok =>
    obtain rfl : ok = true := hs
    rfl
  | spiRefused tx => cases hs
  | waitReady timeoutMs ret =>
    obtain rfl : ret = .done () := of_decide_eq_true hs
    rfl

variable {old image : ℕ → UInt8} {offset size : ℕ}

/-- An operation that touches nothing below `limit`, in a flash that holds the image up to there: it
does what its command does, or stops and leaves the finished pages alone. -/
theorem flashOperation_step (hdev : DrivesChip env chipOf) {tx : List UInt8} {n : ℕ}
    {timeoutMs : UInt32} {mem mem' : ℕ → UInt8} {k k' limit : ℕ} (hlen : tx.length = n)
    (hcmd : decode tx ≠ .other) (heffect : ∀ c, Enabled c mem → (c.exec (decode tx)).mem = mem')
    (hk' : (if isPageProgram tx then k + 1 else k) = k') (hheld : HoldsPrefix image offset limit mem)
    (hpages : offset + min (256 * k) size ≤ limit)
    (huntouched : ∀ a < limit, ¬ (decode tx).Touches a) :
    Triple (Between chipOf mem k) (flashOperation env polls tx n timeoutMs)
      (Ends (fun _ => Between chipOf mem' k') (Stopped chipOf image offset size)) := by
  intro tr w h
  have houtcome : OperationOutcome tx timeoutMs (flashOperation env polls tx n timeoutMs w).ret
      (flashOperation env polls tx n timeoutMs w).trace := flashOperation_outcome tx n timeoutMs w
  have heff : Ends (fun _ tr w => AllSucceeded tr → Idle (chipOf w) mem') Failed
      (flashOperation env polls tx n timeoutMs w).ret
      (tr ++ (flashOperation env polls tx n timeoutMs w).trace)
      (flashOperation env polls tx n timeoutMs w).world :=
    flashOperation_effect hdev hlen hcmd heffect tr w fun _ => h.idle
  have hkept : ∀ a < limit,
      (chipOf (flashOperation env polls tx n timeoutMs w).world).mem a = (chipOf w).mem a :=
    fun a ha => flashOperation_frame hdev hlen hcmd (huntouched a ha) tr w rfl
  generalize flashOperation env polls tx n timeoutMs w = o at houtcome heff hkept ⊢
  obtain ⟨ret, evs, w'⟩ := o
  obtain ⟨hdone, hstop⟩ := houtcome.pages k
  have hprogress : pageProgress (tr ++ evs) = evs.foldl pageStep (false, k) := by
    rw [pageProgress_append, h.pages]
  have hstopped : ret ≠ .done () → Stopped chipOf image offset size ret (tr ++ evs) w' := by
    intro hne
    refine ⟨EndsCleanly.append (noFailure_of_allSucceeded h.succeeded) houtcome.endsCleanly, ?_⟩
    rw [completedPages, hprogress, hstop hne]
    intro a hle hlt
    rw [hkept a (Nat.lt_of_lt_of_le hlt hpages), h.idle.mem]
    exact hheld a hle (Nat.lt_of_lt_of_le hlt hpages)
  cases ret with
  | done _ =>
    have hall : AllSucceeded (tr ++ evs) :=
      List.forall_mem_append.2 ⟨h.succeeded, houtcome.allSucceeded⟩
    exact ⟨hall, heff hall, by rw [hprogress, hdone rfl, hk']⟩
  | error _ => exact hstopped (by simp)
  | running => exact hstopped (by simp)

/-! ## The loop -/

theorem holdsPrefix_stagedUpTo (addr top : ℕ) :
    HoldsPrefix image offset addr (stagedUpTo old image offset addr top) := by
  intro a hle hlt
  exact if_pos ⟨hle, hlt⟩

theorem isPageProgram_sectorEraseTx (addr : UInt32) : isPageProgram (sectorEraseTx addr) = false := by
  simp [isPageProgram]

theorem isPageProgram_pageProgramTx (addr : UInt32) (data : ℕ → UInt8) {len : ℕ} (h : 0 < len) :
    isPageProgram (pageProgramTx addr data len) = true := by
  simp [isPageProgram, decode_pageProgramTx addr data h]

theorem eraseSectorEntered_step (hdev : DrivesChip env chipOf) {addr : UInt32} {k : ℕ}
    (hcap : addr.toNat < 2 ^ 24) (hk : addr.toNat = offset + min (256 * k) size) :
    Triple (Between chipOf (stagedUpTo old image offset addr.toNat (roundUp addr.toNat)) k)
      (eraseSectorEntered env polls addr)
      (Ends (fun _ => Between chipOf
          (stagedUpTo old image offset addr.toNat (sectorEnd addr.toNat)) k)
        (Stopped chipOf image offset size)) := by
  by_cases hboundary : addr.toNat % 4096 = 0
  · rw [eraseSectorEntered_boundary hboundary]
    refine flashOperation_step hdev (length_sectorEraseTx addr) (by simp)
      (fun c hc => hc.sectorErase hcap hboundary) (by simp [isPageProgram_sectorEraseTx])
      (holdsPrefix_stagedUpTo addr.toNat _) (Nat.le_of_eq hk.symm) ?_
    intro a ha htouch
    rw [decode_sectorEraseTx, Nat.mod_eq_of_lt hcap] at htouch
    have hsec : a / 4096 = addr.toNat / 4096 := htouch
    omega
  · rw [eraseSectorEntered_inside hboundary, roundUp_of_inside hboundary]
    exact triple_pure fun _ _ h => h

theorem writePage_step (hdev : DrivesChip env chipOf) {addr remaining : UInt32} {data : ℕ → UInt8}
    {k : ℕ} (hat : AtChunk image offset size addr data remaining) (hpos : 0 < remaining.toNat)
    (hcap : offset + size ≤ 2 ^ 24) (hk : addr.toNat = offset + min (256 * k) size) :
    Triple (Between chipOf (stagedUpTo old image offset addr.toNat (sectorEnd addr.toNat)) k)
      (writePage env polls addr data (pageChunk remaining))
      (Ends (fun _ => Between chipOf (stagedUpTo old image offset
          (addr + (pageChunk remaining).toUInt32).toNat
          (roundUp (addr + (pageChunk remaining).toUInt32).toNat)) (k + 1))
        (Stopped chipOf image offset size)) := by
  have htotal := hat.total
  have haligned := hat.aligned hpos
  have hlen := pageChunk_toNat remaining
  have hchunk : 0 < (pageChunk remaining).toNat := by omega
  have hdec := decode_pageProgramTx addr data hchunk
  rw [writePage_chunk]
  refine flashOperation_step hdev (length_pageProgramTx addr data (pageChunk remaining).toNat)
    (by simp [hdec]) (fun c hc => hc.pageProgram hat hpos hcap)
    (by simp [isPageProgram_pageProgramTx addr data hchunk]) (holdsPrefix_stagedUpTo addr.toNat _)
    (Nat.le_of_eq hk.symm) ?_
  intro a ha htouch
  rw [hdec, Nat.mod_eq_of_lt (show addr.toNat < 2 ^ 24 by omega)] at htouch
  have hpage : a / 256 = addr.toNat / 256 := htouch
  omega

/-- However the staging write ends, it has stopped cleanly. -/
theorem writeImageToStaging_stopped (hdev : DrivesChip env chipOf) (offset size : UInt32)
    (image : ℕ → UInt8) (w : W) (haligned : offset.toNat % 4096 = 0)
    (hcap : offset.toNat + size.toNat ≤ 2 ^ 24) (hidle : (chipOf w).busy = false) :
    Stopped chipOf image offset.toNat size.toNat
      (writeImageToStaging env polls offset image size w).ret
      (writeImageToStaging env polls offset image size w).trace
      (writeImageToStaging env polls offset image size w).world := by
  have hstart : (chipOf w).mem = stagedUpTo (chipOf w).mem image offset.toNat offset.toNat
      (roundUp offset.toNat) := (stagedUpTo_start haligned).symm
  have h : Triple _ (writeImageLoop env polls offset image size) _ := writeImageLoop_triple
    (I := fun addr data remaining tr w' =>
      AtChunk image offset.toNat size.toNat addr data remaining ∧
        ∃ k, addr.toNat = offset.toNat + min (256 * k) size.toNat ∧
          Between chipOf (stagedUpTo (chipOf w).mem image offset.toNat addr.toNat
            (roundUp addr.toNat)) k tr w')
    (M := fun addr data remaining tr w' =>
      AtChunk image offset.toNat size.toNat addr data remaining ∧
        ∃ k, addr.toNat = offset.toNat + min (256 * k) size.toNat ∧
          Between chipOf (stagedUpTo (chipOf w).mem image offset.toNat addr.toNat
            (sectorEnd addr.toNat)) k tr w')
    (Q := Stopped chipOf image offset.toNat size.toNat)
    ?_ ?_ ?_ offset image size
  · refine h [] w ⟨⟨Nat.le_refl _, rfl, fun _ => by omega, by simp⟩, 0, by simp, ?_⟩
    exact ⟨fun e he => absurd he List.not_mem_nil, ⟨hidle, hstart⟩, rfl⟩
  · rintro addr data remaining hpos tr w' ⟨hat, k, hk, hbetween⟩
    have htotal := hat.total
    refine (eraseSectorEntered_step hdev (by omega) hk).done_imp (fun _ tr w hb => ?_) tr w' hbetween
    exact ⟨hat, k, hk, hb⟩
  · rintro addr data remaining hpos tr w' ⟨hat, k, hk, hbetween⟩
    have htotal := hat.total
    refine (writePage_step hdev hat hpos hcap hk).done_imp (fun _ tr w hb => ?_) tr w' hbetween
    refine ⟨hat.next hcap hpos, k + 1, ?_, hb⟩
    rw [hat.nextAddr hcap, pageChunk_toNat]
    omega
  · rintro addr data remaining tr w' hzero ⟨hat, k, hk, hb⟩
    refine ⟨noFailure_of_allSucceeded hb.succeeded, ?_⟩
    rw [completedPages, hb.pages, hb.idle.mem, ← hk]
    exact holdsPrefix_stagedUpTo addr.toNat _

/-! ## The write comes to its end -/

theorem sendCommand_ends (tx : List UInt8) (n : ℕ) (w : W) :
    (sendCommand env tx n w).ret ≠ .running := by
  rw [sendCommand_apply]
  cases env.sInitialized with
  | false => simp
  | true =>
    rcases env.spiDeviceTransmit w (some tx) n with ⟨ok, rx, w'⟩
    cases ok with
    | true => simp
    | false => simp

theorem flashOperation_terminates {now : W → ℕ} (hclock : ClockRuns env now) (tx : List UInt8)
    (n : ℕ) {timeoutMs : UInt32} (hsmall : timeoutMs.toNat ≤ 2 ^ 31) :
    Terminates fun polls => flashOperation env polls tx n timeoutMs := by
  refine terminates_bind (terminates_const (sendCommand_ends _ _)) fun _ => ?_
  refine terminates_bind (terminates_const (sendCommand_ends _ _)) fun _ => ?_
  exact spiFlashCmdWaitReady_terminates hclock hsmall

/-- If the clock runs, the staging write comes to its end. -/
theorem writeImageLoop_terminates {now : W → ℕ} (hclock : ClockRuns env now) (addr : UInt32)
    (data : ℕ → UInt8) (remaining : UInt32) :
    Terminates fun polls => writeImageLoop env polls addr data remaining := by
  induction hn : remaining.toNat using Nat.strongRecOn generalizing addr data remaining with
  | ind n ih =>
    subst hn
    rcases Nat.eq_zero_or_pos remaining.toNat with hzero | hpos
    · simp only [writeImageLoop_of_zero hzero]
      exact terminates_const fun w => by simp [pure]
    · simp only [writeImageLoop_of_pos hpos]
      refine terminates_bind ?_ fun _ => terminates_bind ?_ fun _ => ?_
      · by_cases hboundary : addr.toNat % 4096 = 0
        · simp only [eraseSectorEntered_boundary hboundary]
          exact flashOperation_terminates hclock _ _ (by decide)
        · simp only [eraseSectorEntered_inside hboundary]
          exact terminates_const fun w => by simp [pure]
      · simp only [writePage_chunk]
        exact flashOperation_terminates hclock _ _ (by decide)
      · exact ih _ (by rw [pageChunk_remaining]; omega) _ _ _ rfl

/-- A failed update stops cleanly. When the staging write returns, it returns `RTOS_OK` exactly if no
transfer failed and no wait timed out; with an error, no transaction follows the failure, the finished
pages hold the image, and the rest of the flash is as it was. If the clock runs, it returns. -/
theorem writeImageToStaging_failsCleanly (env : FlashEnv W) (chipOf : W → Chip)
    (hdev : DrivesChip env chipOf) (offset size : UInt32) (image : ℕ → UInt8) (w : W)
    (haligned : offset.toNat % 4096 = 0) (hcap : offset.toNat + size.toNat ≤ 2 ^ 24)
    (hidle : (chipOf w).busy = false) :
    (∀ polls,
      let o := writeImageToStaging env polls offset image size w
      o.ret ≠ .running →
        (o.ret = .done () ↔ ∀ e ∈ o.trace, e.fails = false) ∧
        ∀ err, o.ret = .error err →
          StopsAtFailure o.trace ∧
          (∀ a, offset.toNat ≤ a →
            a < offset.toNat + min (256 * completedPages o.trace) size.toNat →
              (chipOf o.world).mem a = image (a - offset.toNat)) ∧
          ∀ a < capacity, ¬ InUpdateSectors offset.toNat size.toNat a →
            (chipOf o.world).mem a = (chipOf w).mem a) ∧
    ∀ now, ClockRuns env now →
      ∃ n, ∀ polls, n ≤ polls →
        (writeImageToStaging env polls offset image size w).ret ≠ .running := by
  constructor
  · intro polls o hret
    obtain ⟨hends, hheld⟩ : Stopped chipOf image offset.toNat size.toNat o.ret o.trace o.world :=
      writeImageToStaging_stopped hdev offset size image w haligned hcap hidle
    refine ⟨hends.done_iff hret, fun err herr => ⟨?_, hheld, fun a ha hout => ?_⟩⟩
    · rw [herr] at hends
      exact hends
    · refine writeImageToStaging_frame hdev image w (clear_of_outside ?_ ha hout)
      omega
  · intro now hclock
    exact (writeImageLoop_terminates hclock offset image size).exists_bound w

/-! ## A transfer that fails -/

/-- A chip that finishes everything at once, behind a driver that fails from the tick `broken` on,
without an effect on the chip. Every transfer and every delay takes one tick of 1 ms. -/
def breakingEnv (broken : ℕ) : FlashEnv (Chip × ℕ) where
  cfg := ⟨1, 1000⟩
  sInitialized := true
  spiDeviceTransmit c tx n :=
    if c.2 < broken then
      (true, Vector.replicate n 0,
        match tx with
        | some tx => { c.1.exec (decode tx) with busy := false }
        | none => c.1, c.2 + 1)
    else (false, Vector.replicate n 0, c.1, c.2 + 1)
  xTaskGetTickCount c := (c.2, c)
  vTaskDelay c _ := (c.1, c.2 + 1)

theorem breakingEnv_drivesChip (broken : ℕ) : DrivesChip (breakingEnv broken) Prod.fst where
  transmitted := by
    rintro c tx n rx c' - - h
    by_cases hlt : c.2 < broken
    · simp only [breakingEnv, hlt, if_true, Prod.mk.injEq, true_and] at h
      obtain ⟨-, rfl⟩ := h
      exact ⟨rfl, rfl, by simp⟩
    · simp [breakingEnv, hlt] at h
  failed := by
    rintro c tx n rx c' - - h
    by_cases hlt : c.2 < broken
    · simp [breakingEnv, hlt] at h
    · simp only [breakingEnv, hlt, if_false, Prod.mk.injEq, true_and] at h
      obtain ⟨-, rfl⟩ := h
      exact Or.inl (Later.refl c.1)
  status := by
    rintro c rx c' h -
    by_cases hlt : c.2 < broken
    · simp only [breakingEnv, hlt, if_true, Prod.mk.injEq, true_and] at h
      obtain ⟨-, rfl⟩ := h
      rfl
    · simp [breakingEnv, hlt] at h
  tick := fun c => Later.refl c.1
  delay := fun c _ => Later.refl c.1

theorem breakingEnv_transmit_time (broken : ℕ) (c : Chip × ℕ) (tx : Option (List UInt8)) (n : ℕ) :
    ((breakingEnv broken).spiDeviceTransmit c tx n).2.2.2 = c.2 + 1 := by
  by_cases hlt : c.2 < broken
  · simp [breakingEnv, hlt]
  · simp [breakingEnv, hlt]

/-- A turn of the polling loop takes two ticks. -/
theorem breakingEnv_pollWorld (broken : ℕ) (c : Chip × ℕ) (i : ℕ) :
    (pollWorld (breakingEnv broken) c i).2 = c.2 + 2 * i := by
  induction i with
  | zero => rfl
  | succ i ih =>
    have hstep : (pollWorld (breakingEnv broken) c (i + 1)).2 =
        (afterPoll (breakingEnv broken) (pollWorld (breakingEnv broken) c i)).2 + 1 := rfl
    rw [hstep, afterPoll, breakingEnv_transmit_time, ih]
    omega

theorem breakingEnv_clockRuns (broken : ℕ) : ClockRuns (breakingEnv broken) Prod.snd where
  transmit c tx n := by
    rw [breakingEnv_transmit_time]
    exact Nat.le_succ c.2
  delay c _ := Nat.le_succ c.2
  tick c := Nat.le_refl c.2
  read _ := rfl
  period := Nat.one_pos
  advances c bound := ⟨bound, by rw [breakingEnv_pollWorld]; omega⟩
  gaps c i := by
    rw [breakingEnv_pollWorld, breakingEnv_pollWorld]
    show _ * 1 < _
    omega

/-- The write of an image of 600 bytes on a bus that breaks after 10 transfers. -/
def brokenWrite (polls : ℕ) : Outcome (Chip × ℕ) FlashEvent RtosErr Unit :=
  writeImageToStaging (breakingEnv 10) polls 4096 (fun i => UInt8.ofNat i) 600
    (⟨fun _ => 0, false, false⟩, 0)

/-- The bus breaks during the third page: the two pages before it hold the image, and outside the sector
the flash is as it was. -/
theorem writeImageToStaging_failsCleanly_breaking :
    (brokenWrite 5).ret = .error .fail ∧
    StopsAtFailure (brokenWrite 5).trace ∧
    (∀ a, 4096 ≤ a → a < 4608 → (brokenWrite 5).world.1.mem a = UInt8.ofNat (a - 4096)) ∧
    (∀ a < capacity, ¬ InUpdateSectors 4096 600 a → (brokenWrite 5).world.1.mem a = 0) ∧
    ∃ n, ∀ polls, n ≤ polls → (brokenWrite polls).ret ≠ .running := by
  have hret : (brokenWrite 5).ret = .error .fail := by decide +kernel
  have hpages : completedPages (brokenWrite 5).trace = 2 := by decide +kernel
  have hclean := writeImageToStaging_failsCleanly (breakingEnv 10) Prod.fst (breakingEnv_drivesChip 10)
    4096 600 (fun i => UInt8.ofNat i) (⟨fun _ => 0, false, false⟩, 0) (by decide) (by decide) rfl
  have hrunning : (brokenWrite 5).ret ≠ .running := by
    rw [hret]
    exact fun h => nomatch h
  obtain ⟨hstops, hprefix, hrest⟩ := (hclean.1 5 hrunning).2 .fail hret
  refine ⟨hret, hstops, fun a ha hlt => hprefix a ha ?_, hrest,
    hclean.2 Prod.snd (breakingEnv_clockRuns 10)⟩
  show a < 4096 + min (256 * completedPages (brokenWrite 5).trace) 600
  rw [hpages]
  exact hlt

end NicObFw
