import NicObFw.Proofs.FlashDeviceProofs

/-!
# The staging write writes the image

What the flash holds after `write_image_to_staging` has found an idle device and met no failure. Between
two chunks the flash holds the image up to the running address, `0xFF` from there to the end of the last
sector entered, and the old bytes elsewhere.
-/

namespace NicObFw

open Traced NorFlash

variable {W : Type} {env : FlashEnv W} {chipOf : W → Chip} {polls : ℕ}

/-! ## Traces without a failure -/

/-- Every transfer and every wait of the trace succeeded. -/
def AllSucceeded (tr : List FlashEvent) : Prop := ∀ e ∈ tr, e.succeeded = true

theorem AllSucceeded.of_snoc {tr : List FlashEvent} {e : FlashEvent} (h : AllSucceeded (tr ++ [e])) :
    AllSucceeded tr ∧ e.succeeded = true :=
  ⟨fun e' he' => h e' (List.mem_append_left _ he'), h e (by simp)⟩

/-- What a program that does not come to a result says of its trace: something failed. -/
def Failed : Ret RtosErr Unit → List FlashEvent → W → Prop := fun _ tr _ => ¬ AllSucceeded tr

theorem not_allSucceeded_snoc {tr : List FlashEvent} {e : FlashEvent} (he : e.succeeded = false) :
    ¬ AllSucceeded (tr ++ [e]) := by
  intro h
  rw [h.of_snoc.2] at he
  cases he

/-! ## An operation on an idle chip -/

/-- The chip is idle and holds `mem`. -/
structure Idle (c : Chip) (mem : ℕ → UInt8) : Prop where
  busy : c.busy = false
  mem : c.mem = mem

/-- The chip is idle, holds `mem`, and its write-enable latch is set. -/
structure Enabled (c : Chip) (mem : ℕ → UInt8) : Prop extends Idle c mem where
  wel : c.wel = true

theorem Idle.enabled {c c' : Chip} {mem : ℕ → UInt8} (h : Idle c mem)
    (hl : Later (c.exec .writeEnable) c') : Enabled c' mem := by
  have hexec : c.exec .writeEnable = { c with wel := true } := by simp [Chip.exec, h.busy]
  rw [hexec] at hl
  exact ⟨⟨hl.idle h.busy, hl.mem.trans h.mem⟩, hl.wel⟩

theorem DrivesChip.waitStable_succeeded (hdev : DrivesChip env chipOf) (mem : ℕ → UInt8) :
    WaitStable env fun tr w => AllSucceeded tr → (chipOf w).mem = mem where
  read tr w ok rx w' h ht hall := by
    obtain ⟨htr, hok⟩ := hall.of_snoc
    obtain rfl : ok = true := hok
    have hl := hdev.transmitted w _ 2 rx w' rfl (by simp) ht
    exact hl.mem.trans (h htr)
  refused tr w h hall := h hall.of_snoc.1
  tick tr w h hall := (hdev.tick w).mem.trans (h hall)
  delay tr w ticks h hall := (hdev.delay w ticks).mem.trans (h hall)

/-- An operation that meets no failure does what its command does to an enabled chip. -/
theorem flashOperation_effect (hdev : DrivesChip env chipOf) {tx : List UInt8} {n : ℕ}
    {timeoutMs : UInt32} {mem mem' : ℕ → UInt8} (hlen : tx.length = n) (hcmd : decode tx ≠ .other)
    (heffect : ∀ c, Enabled c mem → (c.exec (decode tx)).mem = mem') :
    Triple (fun tr w => AllSucceeded tr → Idle (chipOf w) mem)
      (flashOperation env polls tx n timeoutMs)
      (Ends (fun _ tr w => AllSucceeded tr → Idle (chipOf w) mem') Failed) := by
  unfold flashOperation
  refine triple_seq (M := fun _ tr w => AllSucceeded tr → Enabled (chipOf w) mem)
    (sendCommand_triple ?_ ?_ ?_) fun _ => ?_
  · intro tr w rx w' h ht hall
    exact (h hall.of_snoc.1).enabled (hdev.transmitted w _ 1 rx w' rfl (by simp) ht)
  · exact fun tr w rx w' _ _ => not_allSucceeded_snoc rfl
  · exact fun tr w _ _ => not_allSucceeded_snoc rfl
  refine triple_seq (M := fun _ tr w => AllSucceeded tr → (chipOf w).mem = mem')
    (sendCommand_triple ?_ ?_ ?_) fun _ => ?_
  · intro tr w rx w' h ht hall
    have hl := hdev.transmitted w tx n rx w' hlen hcmd ht
    exact hl.mem.trans (heffect _ (h hall.of_snoc.1))
  · exact fun tr w rx w' _ _ => not_allSucceeded_snoc rfl
  · exact fun tr w _ _ => not_allSucceeded_snoc rfl
  · refine spiFlashCmdWaitReady_triple (K := fun _ w => (chipOf w).busy = false)
      (hdev.waitStable_succeeded mem') ?_ polls timeoutMs fun r tr w h => ?_
    · intro tr w rx w' _ ht hready
      exact hdev.status w rx w' ht hready
    · cases r with
      | done _ => exact fun hall => ⟨h.2 rfl, h.1 hall.of_snoc.1⟩
      | error _ => exact not_allSucceeded_snoc rfl
      | running => exact not_allSucceeded_snoc rfl

/-! ## The memory between two chunks -/

/-- The image from `offset` up to `addr`, `0xFF` from there to `top`, and the old bytes elsewhere. -/
def stagedUpTo (old : ℕ → UInt8) (image : ℕ → UInt8) (offset addr top a : ℕ) : UInt8 :=
  if offset ≤ a ∧ a < addr then image (a - offset)
  else if addr ≤ a ∧ a < top then 0xFF
  else old a

variable {old image : ℕ → UInt8} {offset : ℕ}

theorem erased_stagedUpTo {addr : ℕ} (haddr : addr % 4096 = 0) :
    erased (stagedUpTo old image offset addr addr) addr =
      stagedUpTo old image offset addr (addr + 4096) := by
  funext a
  by_cases hsec : a / 4096 = addr / 4096
  · rw [erased_of_sector hsec]
    unfold stagedUpTo
    rw [if_neg (by omega), if_pos (by omega)]
  · rw [erased_of_not_sector hsec]
    unfold stagedUpTo
    by_cases hin : offset ≤ a ∧ a < addr
    · rw [if_pos hin, if_pos hin]
    · rw [if_neg hin, if_neg hin, if_neg (by omega), if_neg (by omega)]

theorem programmed_stagedUpTo {addr top len : ℕ} (hoff : offset ≤ addr) (htop : addr + len ≤ top)
    (hpage : addr % 256 + len ≤ 256) :
    programmed (stagedUpTo old image offset addr top) addr
        ((List.range len).map fun i => image (addr - offset + i)) =
      stagedUpTo old image offset (addr + len) top := by
  have hpage' : addr % pageSize +
      ((List.range len).map fun i => image (addr - offset + i)).length ≤ pageSize := by
    simpa using hpage
  funext a
  by_cases hin : addr ≤ a ∧ a < addr + len
  · obtain ⟨i, rfl⟩ := Nat.exists_eq_add_of_le hin.1
    have hbyte : stagedUpTo old image offset addr top (addr + i) = 0xFF := by
      unfold stagedUpTo
      rw [if_neg (by omega), if_pos (by omega)]
    rw [programmed_of_lt hpage' (by simp; omega), hbyte, erased_and]
    unfold stagedUpTo
    rw [if_pos (by omega)]
    simp only [List.getElem_map, List.getElem_range]
    congr 1
    omega
  · rw [programmed_of_outside hpage' (by simp; omega)]
    unfold stagedUpTo
    by_cases hbefore : offset ≤ a ∧ a < addr
    · rw [if_pos hbefore, if_pos (by omega)]
    · rw [if_neg hbefore, if_neg (show ¬ (offset ≤ a ∧ a < addr + len) by omega)]
      by_cases hafter : addr + len ≤ a ∧ a < top
      · rw [if_pos (by omega), if_pos hafter]
      · rw [if_neg (by omega), if_neg hafter]

/-! ## The loop -/

/-- Where the loop is: `addr`, `data` and `remaining` at its head, for the image of `size` bytes. -/
structure AtChunk (image : ℕ → UInt8) (offset size : ℕ) (addr : UInt32) (data : ℕ → UInt8)
    (remaining : UInt32) : Prop where
  start : offset ≤ addr.toNat
  total : addr.toNat + remaining.toNat = offset + size
  aligned : 0 < remaining.toNat → addr.toNat % 256 = 0
  data : data = fun i => image (addr.toNat - offset + i)

/-- The address of the next chunk. -/
theorem AtChunk.nextAddr {size : ℕ} {addr remaining : UInt32} {data : ℕ → UInt8}
    (h : AtChunk image offset size addr data remaining) (hcap : offset + size ≤ 2 ^ 24) :
    (addr + (pageChunk remaining).toUInt32).toNat = addr.toNat + (pageChunk remaining).toNat := by
  have htotal := h.total
  rw [nextAddr_toNat, pageChunk_toNat, Nat.mod_eq_of_lt (by omega)]

theorem AtChunk.next {size : ℕ} {addr remaining : UInt32} {data : ℕ → UInt8}
    (h : AtChunk image offset size addr data remaining) (hcap : offset + size ≤ 2 ^ 24)
    (hpos : 0 < remaining.toNat) :
    AtChunk image offset size (addr + (pageChunk remaining).toUInt32)
      (fun i => data ((pageChunk remaining).toNat + i))
      (remaining - (pageChunk remaining).toUInt32) := by
  have hstart := h.start
  have htotal := h.total
  have haligned := h.aligned hpos
  have hlen := pageChunk_toNat remaining
  have haddr := h.nextAddr hcap
  refine ⟨by omega, ?_, ?_, ?_⟩
  · rw [haddr, pageChunk_remaining]
    omega
  · rw [haddr, pageChunk_remaining]
    omega
  · funext i
    rw [h.data, haddr]
    show image _ = image _
    congr 1
    omega

/-- The end of the last sector that the loop has entered before it comes to `addr`. -/
def roundUp (addr : ℕ) : ℕ := (addr + 4095) / 4096 * 4096

/-- The end of the sector of `addr`. -/
def sectorEnd (addr : ℕ) : ℕ := addr / 4096 * 4096 + 4096

theorem roundUp_of_boundary {addr : ℕ} (h : addr % 4096 = 0) : roundUp addr = addr := by
  unfold roundUp
  omega

theorem roundUp_of_inside {addr : ℕ} (h : ¬ addr % 4096 = 0) : roundUp addr = sectorEnd addr := by
  unfold roundUp sectorEnd
  omega

/-- A page lies in one sector. -/
theorem roundUp_of_page {addr len : ℕ} (haligned : addr % 256 = 0) (hpos : 0 < len) (hlen : len ≤ 256) :
    roundUp (addr + len) = sectorEnd addr := by
  unfold roundUp sectorEnd
  omega

/-- Nothing is staged at the start. -/
theorem stagedUpTo_start (haligned : offset % 4096 = 0) :
    stagedUpTo old image offset offset (roundUp offset) = old := by
  funext a
  unfold stagedUpTo
  rw [roundUp_of_boundary haligned, if_neg (by omega), if_neg (by omega)]

/-- The erase at the start of a sector. -/
theorem Enabled.sectorErase {c : Chip} {addr : UInt32} (hcap : addr.toNat < 2 ^ 24)
    (hboundary : addr.toNat % 4096 = 0)
    (hc : Enabled c (stagedUpTo old image offset addr.toNat (roundUp addr.toNat))) :
    (c.exec (decode (sectorEraseTx addr))).mem =
      stagedUpTo old image offset addr.toNat (sectorEnd addr.toNat) := by
  have hend : sectorEnd addr.toNat = addr.toNat + 4096 := by
    unfold sectorEnd
    omega
  rw [decode_sectorEraseTx, Nat.mod_eq_of_lt hcap]
  simp only [Chip.exec, hc.wel, hc.busy, hc.mem]
  rw [roundUp_of_boundary hboundary, hend]
  exact erased_stagedUpTo hboundary

/-- The program of a chunk. -/
theorem Enabled.pageProgram {c : Chip} {size : ℕ} {addr remaining : UInt32} {data : ℕ → UInt8}
    (hat : AtChunk image offset size addr data remaining) (hpos : 0 < remaining.toNat)
    (hcap : offset + size ≤ 2 ^ 24)
    (hc : Enabled c (stagedUpTo old image offset addr.toNat (sectorEnd addr.toNat))) :
    (c.exec (decode (pageProgramTx addr data (pageChunk remaining).toNat))).mem =
      stagedUpTo old image offset (addr + (pageChunk remaining).toUInt32).toNat
        (roundUp (addr + (pageChunk remaining).toUInt32).toNat) := by
  have hstart := hat.start
  have htotal := hat.total
  have haligned := hat.aligned hpos
  have hlen := pageChunk_toNat remaining
  have hchunk : 0 < (pageChunk remaining).toNat := by omega
  rw [hat.nextAddr hcap, roundUp_of_page haligned hchunk (by omega),
    decode_pageProgramTx addr data hchunk, Nat.mod_eq_of_lt (show addr.toNat < 2 ^ 24 by omega), hat.data]
  simp only [Chip.exec, hc.wel, hc.busy, hc.mem]
  exact programmed_stagedUpTo hstart (by unfold sectorEnd; omega) (by omega)

theorem eraseSectorEntered_effect (hdev : DrivesChip env chipOf) {addr : UInt32}
    (hcap : addr.toNat < 2 ^ 24) :
    Triple (fun tr w => AllSucceeded tr →
        Idle (chipOf w) (stagedUpTo old image offset addr.toNat (roundUp addr.toNat)))
      (eraseSectorEntered env polls addr)
      (Ends (fun _ tr w => AllSucceeded tr →
        Idle (chipOf w) (stagedUpTo old image offset addr.toNat (sectorEnd addr.toNat))) Failed) := by
  by_cases hboundary : addr.toNat % 4096 = 0
  · rw [eraseSectorEntered_boundary hboundary]
    exact flashOperation_effect hdev rfl (by simp) fun c hc => hc.sectorErase hcap hboundary
  · rw [eraseSectorEntered_inside hboundary, roundUp_of_inside hboundary]
    exact triple_pure fun _ _ h => h

theorem writePage_effect (hdev : DrivesChip env chipOf) {size : ℕ} {addr remaining : UInt32}
    {data : ℕ → UInt8} (hat : AtChunk image offset size addr data remaining)
    (hpos : 0 < remaining.toNat) (hcap : offset + size ≤ 2 ^ 24) :
    Triple (fun tr w => AllSucceeded tr →
        Idle (chipOf w) (stagedUpTo old image offset addr.toNat (sectorEnd addr.toNat)))
      (writePage env polls addr data (pageChunk remaining))
      (Ends (fun _ tr w => AllSucceeded tr →
        Idle (chipOf w) (stagedUpTo old image offset
          (addr + (pageChunk remaining).toUInt32).toNat
          (roundUp (addr + (pageChunk remaining).toUInt32).toNat))) Failed) := by
  have hlen := pageChunk_toNat remaining
  have hdec := decode_pageProgramTx addr data (show 0 < (pageChunk remaining).toNat by omega)
  rw [writePage_chunk]
  exact flashOperation_effect hdev (by simp) (by simp [hdec]) fun c hc =>
    hc.pageProgram hat hpos hcap

/-- From a sector boundary, an idle device and no failure, the staging write returns `RTOS_OK`, and
the flash holds the image, `0xFF` in the rest of the last sector, and the old bytes elsewhere. -/
theorem writeImageToStaging_stages (env : FlashEnv W) (chipOf : W → Chip)
    (hdev : DrivesChip env chipOf) (polls : ℕ) (offset size : UInt32) (image : ℕ → UInt8) (w : W)
    (haligned : offset.toNat % 4096 = 0) (hcap : offset.toNat + size.toNat ≤ 2 ^ 24)
    (hidle : (chipOf w).busy = false)
    (hok : ∀ e ∈ (writeImageToStaging env polls offset image size w).trace, e.succeeded = true) :
    (writeImageToStaging env polls offset image size w).ret = .done () ∧
      ∀ a, (chipOf (writeImageToStaging env polls offset image size w).world).mem a =
        stagedMem (chipOf w).mem offset.toNat size.toNat image a := by
  have hstart : (chipOf w).mem = stagedUpTo (chipOf w).mem image offset.toNat offset.toNat
      (roundUp offset.toNat) := (stagedUpTo_start haligned).symm
  have h : Triple _ (writeImageLoop env polls offset image size) _ := writeImageLoop_triple
    (I := fun addr data remaining tr w' =>
      AtChunk image offset.toNat size.toNat addr data remaining ∧
        (AllSucceeded tr → Idle (chipOf w')
          (stagedUpTo (chipOf w).mem image offset.toNat addr.toNat (roundUp addr.toNat))))
    (M := fun addr data remaining tr w' =>
      AtChunk image offset.toNat size.toNat addr data remaining ∧
        (AllSucceeded tr → Idle (chipOf w')
          (stagedUpTo (chipOf w).mem image offset.toNat addr.toNat (sectorEnd addr.toNat))))
    (Q := fun r tr w' => AllSucceeded tr → r = .done () ∧ (chipOf w').mem =
      stagedUpTo (chipOf w).mem image offset.toNat (offset.toNat + size.toNat)
        (roundUp (offset.toNat + size.toNat)))
    ?_ ?_ ?_ offset image size
  · obtain ⟨hret, hmem⟩ := h [] w
      ⟨⟨Nat.le_refl _, rfl, fun _ => by omega, by simp⟩, fun _ => ⟨hidle, hstart⟩⟩ hok
    refine ⟨hret, fun a => (congrFun hmem a).trans ?_⟩
    rfl
  · intro addr data remaining hpos
    refine triple_of_imp fun hat => ?_
    have htotal := hat.total
    refine (eraseSectorEntered_effect hdev (by omega)).post fun r tr w' hr => ?_
    cases r with
    | done _ => exact ⟨hat, hr⟩
    | error _ => exact fun hall => absurd hall hr
    | running => exact fun hall => absurd hall hr
  · intro addr data remaining hpos
    refine triple_of_imp fun hat => ?_
    refine (writePage_effect hdev hat hpos hcap).post fun r tr w' hr => ?_
    cases r with
    | done _ => exact ⟨hat.next hcap hpos, hr⟩
    | error _ => exact fun hall => absurd hall hr
    | running => exact fun hall => absurd hall hr
  · rintro addr data remaining tr w' hzero ⟨hat, hmem⟩ hall
    have haddr : addr.toNat = offset.toNat + size.toNat := by
      have := hat.total
      omega
    rw [← haddr]
    exact ⟨rfl, (hmem hall).mem⟩

/-- An image of 300 bytes at the second sector of a device that holds zeros. -/
theorem writeImageToStaging_stages_twoPages :
    (writeImageToStaging idealEnv 1 4096 (fun i => UInt8.ofNat i) 300
        ⟨fun _ => 0, false, false⟩).ret = .done () ∧
      ∀ a, (writeImageToStaging idealEnv 1 4096 (fun i => UInt8.ofNat i) 300
          ⟨fun _ => 0, false, false⟩).world.mem a =
        stagedMem (fun _ => 0) 4096 300 (fun i => UInt8.ofNat i) a :=
  writeImageToStaging_stages idealEnv id idealEnv_drivesChip 1 4096 300 (fun i => UInt8.ofNat i)
    ⟨fun _ => 0, false, false⟩ (by decide) (by decide) rfl (by decide +kernel)

end NicObFw
