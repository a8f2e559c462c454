import NicObFw.Proofs.FlashDeviceProofs

/-!
# Legal programming

Which page programs of `write_image_to_staging` are legal. From a sector boundary on every chunk begins
at a page boundary, in a sector that the loop has erased on entering it; from anywhere else the first
chunk is programmed into a sector that has not been erased.
-/

namespace NicObFw

open Trace Traced NorFlash

variable {W : Type} {env : FlashEnv W} {polls : ℕ}

/-! ## Traces and programs -/

theorem SectorErased.append {tr : List FlashEvent} {a : ℕ} (h : SectorErased tr a)
    (evs : List FlashEvent) : SectorErased (tr ++ evs) a := by
  obtain ⟨e, he, hcmd⟩ := h
  exact ⟨e, List.mem_append_left evs he, hcmd⟩

theorem SectorErased.of_sector {tr : List FlashEvent} {a b : ℕ} (h : SectorErased tr a)
    (hab : a / sectorSize = b / sectorSize) : SectorErased tr b := by
  obtain ⟨e, he, hok, addr, hcmd, hsec⟩ := h
  exact ⟨e, he, hok, addr, hcmd, hsec.trans hab⟩

/-- The entry is not a page program. -/
def FlashEvent.NotProgram (e : FlashEvent) : Prop := ∀ addr data, e.cmd ≠ some (.pageProgram addr data)

theorem programLegal_of_notProgram {tr : List FlashEvent} {e : FlashEvent} (h : e.NotProgram) :
    ProgramLegal tr e :=
  fun addr data hcmd => absurd hcmd (h addr data)

theorem notProgram_writeEnable (rx : List UInt8) (ok : Bool) :
    FlashEvent.NotProgram (.spi (some [flashCmdWriteEnable]) rx ok) := by
  intro addr data
  simp

theorem notProgram_readStatus (rx : List UInt8) (ok : Bool) :
    FlashEvent.NotProgram (.spi (some readStatusTx) rx ok) := by
  intro addr data
  simp

theorem notProgram_sectorErase (addr : UInt32) (rx : List UInt8) (ok : Bool) :
    FlashEvent.NotProgram (.spi (some (sectorEraseTx addr)) rx ok) := by
  intro a data
  simp

theorem notProgram_spiRefused (tx : Option (List UInt8)) : FlashEvent.NotProgram (.spiRefused tx) := by
  intro addr data
  simp [FlashEvent.cmd]

theorem notProgram_waitReady (timeoutMs : UInt32) (r : Ret RtosErr Unit) :
    FlashEvent.NotProgram (.waitReady timeoutMs r) := by
  intro addr data
  simp [FlashEvent.cmd]

/-! ## From a sector boundary -/

/-- What every end of the staging write says of the trace. -/
def ProgramsLegal : Ret RtosErr Unit → List FlashEvent → W → Prop :=
  fun _ tr _ => EachGiven ProgramLegal tr

/-- A property of traces that implies that programs were legal, and that whatever is not a program
preserves. -/
structure LegalInv (T : List FlashEvent → Prop) : Prop where
  legal : ∀ tr, T tr → EachGiven ProgramLegal tr
  snoc : ∀ tr e, T tr → e.NotProgram → T (tr ++ [e])

/-- An operation leads from one such property to another if its command does. -/
theorem flashOperation_legal {T T' : List FlashEvent → Prop} (hT : LegalInv T) (hT' : LegalInv T')
    {tx : List UInt8} {n : ℕ} {timeoutMs : UInt32}
    (hok : ∀ tr rx, T tr → T' (tr ++ [.spi (some tx) rx true]))
    (hfail : ∀ tr rx, T tr → EachGiven ProgramLegal (tr ++ [.spi (some tx) rx false])) :
    Triple (fun tr _ => T tr) (flashOperation env polls tx n timeoutMs)
      (Ends (fun _ tr _ => T' tr) ProgramsLegal) := by
  unfold flashOperation
  refine triple_seq (M := fun _ tr _ => T tr) (sendCommand_triple ?_ ?_ ?_) fun _ => ?_
  · intro tr w rx w' h _
    exact hT.snoc _ _ h (notProgram_writeEnable rx.toList true)
  · intro tr w rx w' h _
    exact hT.legal _ (hT.snoc _ _ h (notProgram_writeEnable rx.toList false))
  · intro tr w h _
    exact hT.legal _ (hT.snoc _ _ h (notProgram_spiRefused _))
  refine triple_seq (M := fun _ tr _ => T' tr) (sendCommand_triple ?_ ?_ ?_) fun _ => ?_
  · intro tr w rx w' h _
    exact hok tr rx.toList h
  · intro tr w rx w' h _
    exact hfail tr rx.toList h
  · intro tr w h _
    exact hT.legal _ (hT.snoc _ _ h (notProgram_spiRefused _))
  · have hstable : WaitStable env fun tr _ => T' tr :=
      { read := fun tr _ ok rx _ h _ => hT'.snoc tr _ h (notProgram_readStatus rx.toList ok)
        refused := fun tr _ h => hT'.snoc tr _ h (notProgram_spiRefused _)
        tick := fun _ _ h => h
        delay := fun _ _ _ h => h }
    refine spiFlashCmdWaitReady_triple (K := fun _ _ => True) hstable
      (fun _ _ _ _ _ _ _ => trivial) polls timeoutMs fun r tr w h => ?_
    have h' := hT'.snoc tr _ h.1 (notProgram_waitReady timeoutMs r)
    cases r with
    | done _ => exact h'
    | error _ => exact hT'.legal _ h'
    | running => exact hT'.legal _ h'

/-- What holds at the head of the loop: the programs so far were legal, and the next one will begin at
a page boundary, in a sector that is erased unless the loop is about to enter it. -/
structure LegalSoFar (addr remaining : ℕ) (tr : List FlashEvent) : Prop where
  legal : EachGiven ProgramLegal tr
  inRange : addr + remaining ≤ 2 ^ 24
  aligned : 0 < remaining → addr % 256 = 0
  entered : 0 < remaining → addr % 4096 ≠ 0 → SectorErased tr addr

/-- What holds before a page is written. -/
structure LegalToWrite (addr remaining : ℕ) (tr : List FlashEvent) : Prop where
  legal : EachGiven ProgramLegal tr
  inRange : addr + remaining ≤ 2 ^ 24
  aligned : addr % 256 = 0
  erased : SectorErased tr addr

theorem legalSoFar_inv (addr remaining : ℕ) : LegalInv (LegalSoFar addr remaining) where
  legal _ h := h.legal
  snoc _ e h he :=
    ⟨eachGiven_snoc.2 ⟨h.legal, programLegal_of_notProgram he⟩, h.inRange, h.aligned,
      fun hpos hne => (h.entered hpos hne).append [e]⟩

theorem legalToWrite_inv (addr remaining : ℕ) : LegalInv (LegalToWrite addr remaining) where
  legal _ h := h.legal
  snoc _ e h he :=
    ⟨eachGiven_snoc.2 ⟨h.legal, programLegal_of_notProgram he⟩, h.inRange, h.aligned,
      h.erased.append [e]⟩

/-- The program of the next chunk is legal. -/
theorem LegalToWrite.program {addr remaining : UInt32} {tr : List FlashEvent}
    (h : LegalToWrite addr.toNat remaining.toNat tr) (hpos : 0 < remaining.toNat)
    (data : ℕ → UInt8) (rx : List UInt8) (ok : Bool) :
    EachGiven ProgramLegal
      (tr ++ [.spi (some (pageProgramTx addr data (pageChunk remaining).toNat)) rx ok]) := by
  have hlen := pageChunk_toNat remaining
  have hin := h.inRange
  have hal := h.aligned
  refine eachGiven_snoc.2 ⟨h.legal, fun a bytes hcmd => ?_⟩
  rw [cmd_pageProgramTx addr data (by omega)] at hcmd
  obtain ⟨ha, rfl⟩ : addr.toNat % capacity = a ∧ (List.range _).map data = bytes := by
    simpa using hcmd
  obtain rfl : addr.toNat = a := by
    rw [← ha]
    exact (Nat.mod_eq_of_lt (show addr.toNat < 2 ^ 24 by omega)).symm
  rw [List.length_map, List.length_range]
  refine ⟨by unfold pageSize; omega, fun i hi => h.erased.of_sector ?_⟩
  unfold sectorSize
  omega

/-- After a chunk the loop is at the next page of the same sector, at the next sector, or at its end. -/
theorem LegalToWrite.next {addr remaining : UInt32} {tr : List FlashEvent}
    (h : LegalToWrite addr.toNat remaining.toNat tr) :
    LegalSoFar (addr + (pageChunk remaining).toUInt32).toNat
      (remaining - (pageChunk remaining).toUInt32).toNat tr := by
  have hin := h.inRange
  have hal := h.aligned
  rw [nextAddr_toNat, pageChunk_remaining, Nat.mod_eq_of_lt (by omega)]
  refine ⟨h.legal, by omega, by omega, fun hpos hne => h.erased.of_sector ?_⟩
  unfold sectorSize
  omega

theorem eraseSectorEntered_legal (addr remaining : UInt32) (hpos : 0 < remaining.toNat) :
    Triple (fun tr _ => LegalSoFar addr.toNat remaining.toNat tr) (eraseSectorEntered env polls addr)
      (Ends (fun _ tr _ => LegalToWrite addr.toNat remaining.toNat tr) ProgramsLegal) := by
  by_cases hboundary : addr.toNat % 4096 = 0
  · rw [eraseSectorEntered_boundary hboundary]
    refine flashOperation_legal (legalSoFar_inv _ _) (legalToWrite_inv _ _) ?_ ?_
    · intro tr rx h
      have h' := (legalSoFar_inv _ _).snoc tr _ h (notProgram_sectorErase addr rx true)
      refine ⟨h'.legal, h'.inRange, h'.aligned hpos, _, List.mem_append_right tr (by simp), rfl,
        addr.toNat % capacity, cmd_sectorEraseTx addr rx true, ?_⟩
      have hin := h.inRange
      rw [Nat.mod_eq_of_lt (show addr.toNat < 2 ^ 24 by omega)]
    · intro tr rx h
      exact ((legalSoFar_inv _ _).snoc tr _ h (notProgram_sectorErase addr rx false)).legal
  · rw [eraseSectorEntered_inside hboundary]
    exact triple_pure fun tr w h => ⟨h.legal, h.inRange, h.aligned hpos, h.entered hpos hboundary⟩

theorem writePage_legal (addr : UInt32) (data : ℕ → UInt8) (remaining : UInt32)
    (hpos : 0 < remaining.toNat) :
    Triple (fun tr _ => LegalToWrite addr.toNat remaining.toNat tr)
      (writePage env polls addr data (pageChunk remaining))
      (Ends (fun _ tr _ => LegalSoFar (addr + (pageChunk remaining).toUInt32).toNat
        (remaining - (pageChunk remaining).toUInt32).toNat tr) ProgramsLegal) := by
  rw [writePage_chunk]
  refine flashOperation_legal (legalToWrite_inv _ _) (legalSoFar_inv _ _) ?_ ?_
  · intro tr rx h
    refine LegalToWrite.next ⟨h.program hpos data rx true, h.inRange, h.aligned, ?_⟩
    exact h.erased.append _
  · intro tr rx h
    exact h.program hpos data rx false

/-- From a sector boundary on every program is legal. -/
theorem writeImageToStaging_legal (offset : UInt32) (data : ℕ → UInt8) (size : UInt32) (w : W)
    (hcap : offset.toNat + size.toNat ≤ 2 ^ 24) (hal : offset.toNat % 4096 = 0) :
    EachGiven ProgramLegal (writeImageToStaging env polls offset data size w).trace := by
  refine writeImageLoop_triple
    (I := fun addr _ remaining tr _ => LegalSoFar addr.toNat remaining.toNat tr)
    (M := fun addr _ remaining tr _ => LegalToWrite addr.toNat remaining.toNat tr)
    (Q := ProgramsLegal) ?_ ?_ ?_ offset data size [] w ?_
  · exact fun addr _ remaining hpos => eraseSectorEntered_legal addr remaining hpos
  · exact fun addr data remaining hpos => writePage_legal addr data remaining hpos
  · exact fun _ _ _ _ _ _ h => h.legal
  · exact ⟨eachGiven_nil, hcap, by omega, fun _ hne => absurd hal hne⟩

/-! ## From anywhere else -/

/-- A page that is written first, its write-enable going through, is programmed illegally. -/
theorem writePage_first_illegal {w : W} (hwe : (spiFlashCmdWriteEnable env w).ret = .done ())
    (addr : UInt32) (data : ℕ → UInt8) {remaining : UInt32} (hpos : 0 < remaining.toNat) :
    Triple (fun tr w' => tr = [] ∧ w' = w) (writePage env polls addr data (pageChunk remaining))
      fun _ tr _ => ¬ EachGiven ProgramLegal tr := by
  have hlen := pageChunk_toNat remaining
  obtain ⟨hi, hok⟩ := sendCommand_done_iff.1 hwe
  rw [writePage_chunk]
  unfold flashOperation
  refine triple_seq (M := fun _ tr _ => ∃ rx, tr = [.spi (some [flashCmdWriteEnable]) rx true])
    (sendCommand_triple ?_ ?_ ?_) fun _ => ?_
  · rintro tr w₁ rx w' ⟨rfl, rfl⟩ _
    exact ⟨rx.toList, rfl⟩
  · rintro tr w₁ rx w' ⟨rfl, rfl⟩ ht
    rw [ht] at hok
    cases hok
  · rintro tr w₁ ⟨rfl, rfl⟩ hi'
    rw [hi] at hi'
    cases hi'
  refine triple_seq (M := fun _ tr _ => ¬ EachGiven ProgramLegal tr) ?_ fun _ =>
    triple_of_not_eachGiven _
  have hillegal : ∀ rx rx' ok, ¬ EachGiven ProgramLegal
      ([.spi (some [flashCmdWriteEnable]) rx true] ++
        [.spi (some (pageProgramTx addr data (pageChunk remaining).toNat)) rx' ok]) := by
    intro rx rx' ok h
    obtain ⟨-, herased⟩ := (eachGiven_snoc.1 h).2 _ _ (cmd_pageProgramTx addr data (by omega) rx' ok)
    obtain ⟨e, he, -, a, hcmd, -⟩ := herased 0 (by simp; omega)
    obtain rfl := List.mem_singleton.1 he
    simp at hcmd
  refine sendCommand_triple ?_ ?_ ?_
  · rintro tr w₁ rx w' ⟨rx₀, rfl⟩ _
    exact hillegal rx₀ rx.toList true
  · rintro tr w₁ rx w' ⟨rx₀, rfl⟩ _
    exact hillegal rx₀ rx.toList false
  · rintro tr w₁ - hi'
    rw [hi] at hi'
    cases hi'

/-- Nothing is programmed if the first write-enable does not go through. -/
theorem writePage_first_fails {w : W} (hwe : (spiFlashCmdWriteEnable env w).ret ≠ .done ())
    (addr : UInt32) (data : ℕ → UInt8) (remaining : UInt32) :
    Triple (fun tr w' => tr = [] ∧ w' = w) (writePage env polls addr data (pageChunk remaining))
      (Ends (fun _ _ _ => False) ProgramsLegal) := by
  rw [writePage_chunk]
  unfold flashOperation
  refine triple_seq (M := fun _ _ _ => False) (triple_from_start.2 ?_) fun _ tr w h => h.elim
  rw [spiFlashCmdWriteEnable_eq, sendCommand_apply] at hwe
  rw [sendCommand_apply]
  cases hi : env.sInitialized with
  | false =>
    exact eachGiven_snoc.2 ⟨eachGiven_nil, programLegal_of_notProgram (notProgram_spiRefused _)⟩
  | true =>
    rcases ht : env.spiDeviceTransmit w (some [flashCmdWriteEnable]) 1 with ⟨ok, rx, w'⟩
    cases ok with
    | true => simp [hi, ht] at hwe
    | false =>
      exact eachGiven_snoc.2 ⟨eachGiven_nil,
        programLegal_of_notProgram (notProgram_writeEnable rx.toList false)⟩

/-- The programs of a staging write of a range within the flash are all legal exactly when the offset
is at a sector boundary, or there is nothing to write, or not even the first write-enable goes through. -/
theorem writeImageToStaging_programs_legal_iff (env : FlashEnv W) (polls : ℕ)
    (offset : UInt32) (data : ℕ → UInt8) (size : UInt32) (w : W)
    (hcap : offset.toNat + size.toNat ≤ 2 ^ 24) :
    EachGiven ProgramLegal (writeImageToStaging env polls offset data size w).trace ↔
      size.toNat = 0 ∨ offset.toNat % 4096 = 0 ∨ (spiFlashCmdWriteEnable env w).ret ≠ .done () := by
  by_cases hal : offset.toNat % 4096 = 0
  · exact ⟨fun _ => Or.inr (Or.inl hal), fun _ => writeImageToStaging_legal offset data size w hcap hal⟩
  unfold writeImageToStaging
  rcases Nat.eq_zero_or_pos size.toNat with hzero | hpos
  · rw [writeImageLoop_of_zero hzero]
    exact ⟨fun _ => Or.inl hzero, fun _ => eachGiven_nil⟩
  rw [writeImageLoop_of_pos hpos, eraseSectorEntered_inside hal]
  by_cases hwe : (spiFlashCmdWriteEnable env w).ret = .done ()
  · refine ⟨fun h => absurd h ?_, by rintro (h | h | h) <;> first | omega | exact absurd hwe h⟩
    suffices h : Triple (fun tr w' => tr = [] ∧ w' = w) _ fun _ tr _ => ¬ EachGiven ProgramLegal tr from
      triple_from_start.1 h
    refine triple_seq (M := fun _ tr w' => tr = [] ∧ w' = w) (triple_pure fun _ _ h => h) fun _ => ?_
    refine triple_seq (M := fun _ tr _ => ¬ EachGiven ProgramLegal tr)
      (writePage_first_illegal hwe offset data hpos).ends fun _ => ?_
    exact triple_of_not_eachGiven _
  · refine ⟨fun _ => Or.inr (Or.inr hwe), fun _ => ?_⟩
    suffices h : Triple (fun tr w' => tr = [] ∧ w' = w) _ ProgramsLegal from triple_from_start.1 h
    refine triple_seq (M := fun _ tr w' => tr = [] ∧ w' = w) (triple_pure fun _ _ h => h) fun _ => ?_
    exact triple_seq (writePage_first_fails hwe offset data size) fun _ tr w h => h.elim

/-- An image that spans two sectors, written from the start of the second one. -/
theorem writeImageToStaging_programs_legal_twoSectors :
    EachGiven ProgramLegal (writeImageToStaging idealEnv 1 4096 (fun i => UInt8.ofNat i) 5000
      ⟨fun _ => 0, false, false⟩).trace :=
  (writeImageToStaging_programs_legal_iff idealEnv 1 4096 (fun i => UInt8.ofNat i) 5000
    ⟨fun _ => 0, false, false⟩ (by decide)).2 (Or.inr (Or.inl (by decide)))

/-- At offset 128 the first program wraps in its page, in a sector that was not erased. -/
theorem unaligned_program_illegal :
    ¬ EachGiven ProgramLegal (writeImageToStaging idealEnv 1 128 (fun _ => 0) 256
      ⟨fun _ => 0xFF, false, false⟩).trace := by
  intro h
  have hcmd : FlashEvent.cmd (.spi (some (pageProgramTx 128 (fun _ => 0) 256))
      (List.replicate 260 0) true) = some (.pageProgram 128 (List.replicate 256 0)) := by
    decide +kernel
  have hwrap := (h [.spi (some [0x06]) [0] true]
    (.spi (some (pageProgramTx 128 (fun _ => 0) 256)) (List.replicate 260 0) true)
    [.spi (some readStatusTx) [0, 0] true, .waitReady 100 (.done ())] (by decide +kernel) _ _ hcmd).1
  rw [List.length_replicate] at hwrap
  exact absurd hwrap (by decide)

end NicObFw
