import NicObFw.NicFlashMgr

/-!
# The programs of the flash thread

What each program of the flash thread adds to a trace and does to the world, as rules. The claims about
the flash instantiate the assertions of these rules; they do not look into the programs again.
-/

namespace NicObFw

open Traced

variable {W : Type} {env : FlashEnv W} {polls : ℕ}
  {P : List FlashEvent → W → Prop} {Q : Ret RtosErr Unit → List FlashEvent → W → Prop}

/-! ## Transfers -/

/-- What a transfer does, in one piece. -/
theorem nicChipHalSpiTransfer_apply (tx : Option (List UInt8)) (n : ℕ) (w : W) :
    nicChipHalSpiTransfer env tx n w =
      if env.sInitialized then
        let (ok, rx, w') := env.spiDeviceTransmit w tx n
        ⟨if ok then .done rx else .error .fail, [.spi tx rx.toList ok], w'⟩
      else ⟨.error .fail, [.spiRefused tx], w⟩ := by
  unfold nicChipHalSpiTransfer
  cases env.sInitialized with
  | false => rfl
  | true =>
    rcases ht : env.spiDeviceTransmit w tx n with ⟨ok, rx, w'⟩
    cases ok with
    | true => simp [Bind.bind, Traced.bind, act, emit, pure, ht]
    | false => simp [Bind.bind, Traced.bind, act, emit, fail, ht]

theorem nicChipHalSpiTransfer_triple {tx : Option (List UInt8)} {n : ℕ}
    {Q : Ret RtosErr (Vector UInt8 n) → List FlashEvent → W → Prop}
    (hok : ∀ tr w rx w', P tr w → env.spiDeviceTransmit w tx n = (true, rx, w') →
      Q (.done rx) (tr ++ [.spi tx rx.toList true]) w')
    (hfail : ∀ tr w rx w', P tr w → env.spiDeviceTransmit w tx n = (false, rx, w') →
      Q (.error .fail) (tr ++ [.spi tx rx.toList false]) w')
    (href : ∀ tr w, P tr w → env.sInitialized = false →
      Q (.error .fail) (tr ++ [.spiRefused tx]) w) :
    Triple P (nicChipHalSpiTransfer env tx n) Q := by
  intro tr w hp
  rw [nicChipHalSpiTransfer_apply]
  cases hi : env.sInitialized with
  | false => exact href tr w hp hi
  | true =>
    rcases ht : env.spiDeviceTransmit w tx n with ⟨ok, rx, w'⟩
    cases ok with
    | true => exact hok tr w rx w' hp ht
    | false => exact hfail tr w rx w' hp ht

/-- A command that only sends: what the write-enable, erase and program functions do. -/
def sendCommand (env : FlashEnv W) (tx : List UInt8) (n : ℕ) : FlashM W Unit := do
  let _ ← nicChipHalSpiTransfer env (some tx) n
  pure ()

theorem spiFlashCmdWriteEnable_eq :
    spiFlashCmdWriteEnable env = sendCommand env [flashCmdWriteEnable] 1 := rfl

theorem spiFlashCmdPageProgram_eq {addr : UInt32} {data : ℕ → UInt8} {len : UInt16}
    (h : len.toNat ≤ 256) :
    spiFlashCmdPageProgram env addr data len =
      sendCommand env (flashCmdPageProgram :: addrBytes addr ++ (List.range len.toNat).map data)
        (4 + len.toNat) := by
  unfold spiFlashCmdPageProgram
  rw [if_neg (Nat.not_lt.2 h)]
  rfl

/-- What a command does, in one piece. -/
theorem sendCommand_apply (tx : List UInt8) (n : ℕ) (w : W) :
    sendCommand env tx n w =
      if env.sInitialized then
        let (ok, rx, w') := env.spiDeviceTransmit w (some tx) n
        ⟨if ok then .done () else .error .fail, [.spi (some tx) rx.toList ok], w'⟩
      else ⟨.error .fail, [.spiRefused (some tx)], w⟩ := by
  unfold sendCommand
  cases hi : env.sInitialized with
  | false => simp [Bind.bind, Traced.bind, nicChipHalSpiTransfer_apply, hi]
  | true =>
    rcases ht : env.spiDeviceTransmit w (some tx) n with ⟨ok, rx, w'⟩
    cases ok with
    | true => simp [Bind.bind, Traced.bind, nicChipHalSpiTransfer_apply, pure, hi, ht]
    | false => simp [Bind.bind, Traced.bind, nicChipHalSpiTransfer_apply, hi, ht]

theorem sendCommand_done_iff {tx : List UInt8} {n : ℕ} {w : W} :
    (sendCommand env tx n w).ret = .done () ↔
      env.sInitialized = true ∧ (env.spiDeviceTransmit w (some tx) n).1 = true := by
  rw [sendCommand_apply]
  cases env.sInitialized with
  | false => simp
  | true =>
    rcases env.spiDeviceTransmit w (some tx) n with ⟨ok, rx, w'⟩
    cases ok with
    | true => simp
    | false => simp

theorem sendCommand_triple {tx : List UInt8} {n : ℕ}
    (hok : ∀ tr w rx w', P tr w → env.spiDeviceTransmit w (some tx) n = (true, rx, w') →
      Q (.done ()) (tr ++ [.spi (some tx) rx.toList true]) w')
    (hfail : ∀ tr w rx w', P tr w → env.spiDeviceTransmit w (some tx) n = (false, rx, w') →
      Q (.error .fail) (tr ++ [.spi (some tx) rx.toList false]) w')
    (href : ∀ tr w, P tr w → env.sInitialized = false →
      Q (.error .fail) (tr ++ [.spiRefused (some tx)]) w) :
    Triple P (sendCommand env tx n) Q :=
  triple_seq (M := fun _ => Q (.done ()))
    (nicChipHalSpiTransfer_triple hok hfail href)
    fun _ => triple_pure fun _ _ h => h

/-! ## Waiting -/

/-- The bytes of a status read. -/
def readStatusTx : List UInt8 := [flashCmdReadStatus, 0x00]

/-- `J` survives whatever a wait does: status reads, and the passing of time. -/
structure WaitStable (env : FlashEnv W) (J : List FlashEvent → W → Prop) : Prop where
  read : ∀ tr w ok rx w', J tr w → env.spiDeviceTransmit w (some readStatusTx) 2 = (ok, rx, w') →
    J (tr ++ [.spi (some readStatusTx) rx.toList ok]) w'
  refused : ∀ tr w, J tr w → J (tr ++ [.spiRefused (some readStatusTx)]) w
  tick : ∀ tr w, J tr w → J tr (env.xTaskGetTickCount w).2
  delay : ∀ tr w ticks, J tr w → J tr (env.vTaskDelay w ticks)

/-- The status read that ends a wait has found the device ready, and so establishes `K`. -/
def SeenReady (env : FlashEnv W) (J K : List FlashEvent → W → Prop) : Prop :=
  ∀ tr w (rx : Vector UInt8 2) w', J tr w →
    env.spiDeviceTransmit w (some readStatusTx) 2 = (true, rx, w') →
    statusByte rx &&& flashStatusBusy = 0 →
    K (tr ++ [.spi (some readStatusTx) rx.toList true]) w'

/-- What holds when a wait ends: `J`, and after a wait that succeeds also `K`. -/
def WaitEnds (J K : List FlashEvent → W → Prop) : Ret RtosErr Unit → List FlashEvent → W → Prop :=
  fun r tr w => J tr w ∧ (r = .done () → K tr w)

variable {J K : List FlashEvent → W → Prop}

theorem waitReadyLoop_triple (hJ : WaitStable env J) (hK : SeenReady env J K)
    (timeoutMs start : UInt32) (polls : ℕ) :
    Triple J (waitReadyLoop env timeoutMs start polls) (WaitEnds J K) := by
  induction polls with
  | zero => exact triple_running fun tr w hj => ⟨hj, by simp⟩
  | succ polls ih =>
    unfold waitReadyLoop readStatus
    refine triple_seq (M := fun status tr w => J tr w ∧ (status &&& flashStatusBusy = 0 → K tr w))
      ?_ fun status => ?_
    · refine triple_seq (M := fun rx tr w => J tr w ∧ (statusByte rx &&& flashStatusBusy = 0 → K tr w))
        (nicChipHalSpiTransfer_triple ?_ ?_ ?_) fun rx => triple_pure fun _ _ h => h
      · intro tr w rx w' hj ht
        exact ⟨hJ.read tr w true rx w' hj ht, hK tr w rx w' hj ht⟩
      · intro tr w rx w' hj ht
        exact ⟨hJ.read tr w false rx w' hj ht, by simp⟩
      · intro tr w hj _
        exact ⟨hJ.refused tr w hj, by simp⟩
    · split
      · rename_i hready
        exact triple_pure fun tr w h => ⟨h.1, fun _ => h.2 hready⟩
      · refine triple_seq (M := fun _ => J) (triple_act fun tr w h => hJ.delay tr w _ h.1) fun _ => ?_
        refine triple_seq (M := fun _ => J) (triple_act fun tr w h => hJ.tick tr w h) fun now => ?_
        split
        · exact ih
        · exact triple_fail fun tr w hj => ⟨hj, by simp⟩

/-- A wait, up to the entry that reports how it ended. -/
theorem spiFlashCmdWaitReady_triple (hJ : WaitStable env J) (hK : SeenReady env J K)
    (polls : ℕ) (timeoutMs : UInt32)
    (hQ : ∀ r tr w, WaitEnds J K r tr w → Q r (tr ++ [.waitReady timeoutMs r]) w) :
    Triple J (spiFlashCmdWaitReady env polls timeoutMs) Q := by
  refine triple_reported (R := WaitEnds J K) ?_ hQ
  refine triple_seq (M := fun _ => J) (triple_act fun tr w h => hJ.tick tr w h) fun start => ?_
  exact waitReadyLoop_triple hJ hK timeoutMs start polls

/-! ## Operations -/

/-- An operation on the flash: write-enable, one command, and a wait. Both parts of the body of the
staging loop have this shape. -/
def flashOperation (env : FlashEnv W) (polls : ℕ) (tx : List UInt8) (n : ℕ) (timeoutMs : UInt32) :
    FlashM W Unit := do
  sendCommand env [flashCmdWriteEnable] 1
  sendCommand env tx n
  spiFlashCmdWaitReady env polls timeoutMs

/-- The bytes of a sector erase. -/
def sectorEraseTx (addr : UInt32) : List UInt8 := flashCmdSectorErase :: addrBytes addr

/-- The bytes of a page program. -/
def pageProgramTx (addr : UInt32) (data : ℕ → UInt8) (len : ℕ) : List UInt8 :=
  flashCmdPageProgram :: addrBytes addr ++ (List.range len).map data

theorem eraseSectorEntered_boundary {addr : UInt32} (h : addr.toNat % 4096 = 0) :
    eraseSectorEntered env polls addr = flashOperation env polls (sectorEraseTx addr) 4 3000 :=
  if_pos h

theorem eraseSectorEntered_inside {addr : UInt32} (h : addr.toNat % 4096 ≠ 0) :
    eraseSectorEntered env polls addr = pure () :=
  if_neg h

theorem writePage_chunk (addr : UInt32) (data : ℕ → UInt8) (remaining : UInt32) :
    writePage env polls addr data (pageChunk remaining) =
      flashOperation env polls (pageProgramTx addr data (pageChunk remaining).toNat)
        (4 + (pageChunk remaining).toNat) 100 := by
  have hlen := pageChunk_toNat remaining
  unfold writePage
  rw [spiFlashCmdPageProgram_eq (by omega)]
  rfl

/-! ## The loop -/

/-- One turn of the loop. -/
theorem writeImageLoop_of_pos {remaining : UInt32} (h : 0 < remaining.toNat) (addr : UInt32)
    (data : ℕ → UInt8) :
    writeImageLoop env polls addr data remaining = (do
      eraseSectorEntered env polls addr
      writePage env polls addr data (pageChunk remaining)
      writeImageLoop env polls (addr + (pageChunk remaining).toUInt32)
        (fun i => data ((pageChunk remaining).toNat + i))
        (remaining - (pageChunk remaining).toUInt32)) := by
  rw [writeImageLoop]
  exact if_pos (UInt32.lt_iff_toNat_lt.2 (by simpa using h))

theorem writeImageLoop_of_zero {remaining : UInt32} (h : remaining.toNat = 0) (addr : UInt32)
    (data : ℕ → UInt8) : writeImageLoop env polls addr data remaining = pure () := by
  rw [writeImageLoop]
  exact if_neg fun hpos => absurd (UInt32.lt_iff_toNat_lt.1 hpos) (by simp [h])

/-- The loop keeps `I`, which speaks of the values of `addr`, `data` and `remaining` at its head, if
the two parts of its body do, `M` holding between them. -/
theorem writeImageLoop_triple
    {I M : UInt32 → (ℕ → UInt8) → UInt32 → List FlashEvent → W → Prop}
    (herase : ∀ addr data remaining, 0 < remaining.toNat →
      Triple (I addr data remaining) (eraseSectorEntered env polls addr)
        (Ends (fun _ => M addr data remaining) Q))
    (hpage : ∀ addr data remaining, 0 < remaining.toNat →
      Triple (M addr data remaining) (writePage env polls addr data (pageChunk remaining))
        (Ends (fun _ => I (addr + (pageChunk remaining).toUInt32)
          (fun i => data ((pageChunk remaining).toNat + i))
          (remaining - (pageChunk remaining).toUInt32)) Q))
    (hexit : ∀ addr data remaining tr w, remaining.toNat = 0 → I addr data remaining tr w →
      Q (.done ()) tr w)
    (addr : UInt32) (data : ℕ → UInt8) (remaining : UInt32) :
    Triple (I addr data remaining) (writeImageLoop env polls addr data remaining) Q := by
  induction hn : remaining.toNat using Nat.strongRecOn generalizing addr data remaining with
  | ind n ih =>
    subst hn
    rcases Nat.eq_zero_or_pos remaining.toNat with hzero | hpos
    · rw [writeImageLoop_of_zero hzero]
      exact triple_pure fun tr w hi => hexit addr data remaining tr w hzero hi
    · rw [writeImageLoop_of_pos hpos]
      refine triple_seq (herase addr data remaining hpos) fun _ => ?_
      refine triple_seq (hpage addr data remaining hpos) fun _ => ?_
      exact ih _ (by rw [pageChunk_remaining]; omega) _ _ _ rfl

end NicObFw
