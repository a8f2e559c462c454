import NicObFw.FlashSystem

/-!
# Staging plans

What the flash thread is to put on the SPI bus for an update, as a list of operations that depends on the
update alone, and what such a list looks like on a bus where transfers and waits can fail.
-/

namespace NicObFw

/-! ## Plans -/

/-- An operation on the flash. -/
inductive FlashOperation where
  | sectorErase (addr : ℕ)
  | pageProgram (addr : ℕ) (bytes : List UInt8)
deriving DecidableEq, Repr

/-- The bytes that give it to the flash. -/
def FlashOperation.tx : FlashOperation → List UInt8
  | sectorErase addr => flashCmdSectorErase :: addrBytes (UInt32.ofNat addr)
  | pageProgram addr bytes => flashCmdPageProgram :: addrBytes (UInt32.ofNat addr) ++ bytes

/-- How long its end is waited for. -/
def FlashOperation.timeoutMs : FlashOperation → UInt32
  | sectorErase _ => 3000
  | pageProgram .. => 100

/-- The operations for the page `k` of an image: a page at a sector boundary is the first of its sector. -/
def pageOperations (offset size : ℕ) (image : ℕ → UInt8) (k : ℕ) : List FlashOperation :=
  let addr := offset + flashPageSize * k
  let bytes := (List.range (min flashPageSize (size - flashPageSize * k))).map fun i =>
    image (flashPageSize * k + i)
  if addr % flashSectorSize = 0 then [.sectorErase addr, .pageProgram addr bytes]
  else [.pageProgram addr bytes]

/-- The number of pages of an image. -/
def pageCount (size : ℕ) : ℕ := (size + flashPageSize - 1) / flashPageSize

/-- The operations for an image. -/
def stagingPlan (offset size : ℕ) (image : ℕ → UInt8) : List FlashOperation :=
  (List.range (pageCount size)).flatMap (pageOperations offset size image)

/-! ## Plans on the bus -/

/-- A status read that found the flash busy, or ready. -/
def FlashEvent.reads (busy : Bool) : FlashEvent → Bool
  | .spi (some tx) rx true =>
    tx = [flashCmdReadStatus, 0x00] && (rx.getD 1 0 &&& flashStatusBusy ≠ 0) = busy
  | _ => false

/-- A transfer of these bytes that failed. -/
def FlashEvent.failsToSend (tx : List UInt8) : FlashEvent → Bool
  | .spi (some tx') _ false => tx' = tx
  | .spiRefused (some tx') => tx' = tx
  | _ => false

/-- What a wait leaves on the bus, with its result: status reads that find the flash busy, until one
finds it ready, one fails, or the wait gives up. -/
inductive WaitTranscript (timeoutMs : UInt32) : Ret RtosErr Unit → List FlashEvent → Prop
  | ready (reads : List FlashEvent) (e : FlashEvent) (hreads : ∀ b ∈ reads, b.reads true = true)
      (he : e.reads false = true) :
    WaitTranscript timeoutMs (.done ()) (reads ++ [e, .waitReady timeoutMs (.done ())])
  | gaveUp (ret : Ret RtosErr Unit) (reads : List FlashEvent)
      (hreads : ∀ b ∈ reads, b.reads true = true) (hret : ret = .running ∨ ret = .error .timeout) :
    WaitTranscript timeoutMs ret (reads ++ [.waitReady timeoutMs ret])
  | failed (reads : List FlashEvent) (e : FlashEvent) (hreads : ∀ b ∈ reads, b.reads true = true)
      (he : e.failsToSend [flashCmdReadStatus, 0x00] = true) :
    WaitTranscript timeoutMs (.error .fail) (reads ++ [e, .waitReady timeoutMs (.error .fail)])

/-- What an operation leaves on the bus, with its result: a write-enable, the bytes of the operation and a
wait, up to the first that fails. -/
inductive OperationTranscript (op : FlashOperation) : Ret RtosErr Unit → List FlashEvent → Prop
  | notEnabled (e : FlashEvent) (he : e.failsToSend [flashCmdWriteEnable] = true) :
    OperationTranscript op (.error .fail) [e]
  | notSent (rx : List UInt8) (e : FlashEvent) (he : e.failsToSend op.tx = true) :
    OperationTranscript op (.error .fail) [.spi (some [flashCmdWriteEnable]) rx true, e]
  | sent (rx rx' : List UInt8) (ret : Ret RtosErr Unit) (wait : List FlashEvent)
      (h : WaitTranscript op.timeoutMs ret wait) :
    OperationTranscript op ret
      (.spi (some [flashCmdWriteEnable]) rx true :: .spi (some op.tx) rx' true :: wait)

/-- The trace is the plan, carried out up to its end or to the first failure. -/
def FollowsPlan (plan : List FlashOperation) (tr : List FlashEvent) : Prop :=
  ∃ ret, Traced.InTurn OperationTranscript plan ret tr ∧ (ret = .done () ↔ ∀ e ∈ tr, e.succeeded = true)

/-! ## Executions -/

/-- An update that the flash thread has executed, or is executing: the command, the image, and what the
execution put on the bus. -/
structure UpdateExecution where
  cmd : FlashCmd
  image : ℕ → UInt8
  trace : List FlashEvent

/-- What a step of the system executes. -/
def updatesExecuted {W : Type} (s : FlashSystem W) (a : FlashSystemAction W)
    (evs : List FlashSystemEvent) : List UpdateExecution :=
  match a with
  | .firmware _ => []
  | .execute _ data _ => s.fw.flashTask.toList.map fun cmd => ⟨cmd, data, flashEvents evs⟩

/-- The plan of an execution. -/
def UpdateExecution.plan (x : UpdateExecution) : List FlashOperation :=
  stagingPlan x.cmd.imageOffset.toNat x.cmd.imageSize.toNat x.image

/-! ## Commands -/

/-- The command that the flash takes an operation for. -/
def FlashOperation.cmd : FlashOperation → NorFlash.Cmd
  | sectorErase addr => .sectorErase addr
  | pageProgram addr bytes => .pageProgram addr bytes

/-- The erase and program commands that were given to the flash. -/
def commandsGiven (tr : List FlashEvent) : List NorFlash.Cmd :=
  (tr.filter FlashEvent.modifies).filterMap FlashEvent.cmd

/-- The sectors that commands erase, by number. -/
def sectorsErased (cmds : List NorFlash.Cmd) : List ℕ :=
  cmds.filterMap fun
    | .sectorErase addr => some (addr / NorFlash.sectorSize)
    | _ => none

/-- The bytes that commands program, with their addresses. -/
def bytesProgrammed (cmds : List NorFlash.Cmd) : List (ℕ × UInt8) :=
  cmds.flatMap fun
    | .pageProgram addr data => data.mapIdx fun i byte => (addr + i, byte)
    | _ => []

/-- The execution tells the flash to erase each sector of the range at most once and to program each byte
of the image at most once, at its place, both in ascending order; and all of them, if nothing fails. -/
def UpdateExecution.ProgramsOnce (x : UpdateExecution) : Prop :=
  let offset := x.cmd.imageOffset.toNat
  let size := x.cmd.imageSize.toNat
  let cmds := commandsGiven x.trace
  let sectors := (List.range ((size + NorFlash.sectorSize - 1) / NorFlash.sectorSize)).map
    (offset / NorFlash.sectorSize + ·)
  let bytes := (List.range size).map fun i => (offset + i, x.image i)
  sectorsErased cmds <+: sectors ∧ bytesProgrammed cmds <+: bytes ∧
    ((∀ e ∈ x.trace, e.succeeded = true) → sectorsErased cmds = sectors ∧ bytesProgrammed cmds = bytes)

end NicObFw
