import NicObFw.Answers
import NicObFw.FlashDevice

/-!
# The firmware and the flash

The machine of `BmcMgr.lean` together with the flash thread and the world behind the SPI bus: what the
flash thread takes from its queue is now executed. The thread shares nothing but its queue with the
others, so the steps that these take during an execution can as well come before it, and the execution of
a command is one step. While a command is in execution (`fw.flashTask`) the world and the update state
are therefore still those of before, not the ones that it has at that moment.
-/

namespace NicObFw

/-- The firmware, and the flash thread with the world that its commands change. -/
structure FlashSystem (W : Type) where
  fw : Firmware
  task : FlashTask W

inductive FlashSystemAction (W : Type) where
  /-- A step of the firmware; the end of a command comes with its execution. -/
  | firmware (a : FwAction)
  /-- The flash thread executes the command it has taken. What `elapse` does to the world happened
  while the thread was blocked; a wait that polls more than `polls` times does not come to an end. -/
  | execute (elapse : W → W) (data : ℕ → UInt8) (polls : ℕ)

inductive FlashSystemEvent where
  | firmware (e : FwEvent)
  | flash (e : FlashEvent)
deriving DecidableEq

variable {W : Type}

/-- The steps of all threads. -/
def flashSystem (cfg : TickConfig) (env : FlashEnv W) :
    Machine (FlashSystem W) (FlashSystemAction W) FlashSystemEvent where
  step s
    | .firmware .flashFinish => none
    | .firmware a =>
      ((firmware cfg).step s.fw a).map fun r => ({ s with fw := r.1 }, r.2.map .firmware)
    | .execute elapse data polls =>
      s.fw.flashTask.bind fun cmd =>
        ((nicFlashMgrTask env).step s.task ⟨cmd, elapse, data, polls⟩).bind fun r =>
          if r.1.stuck then some ({ s with task := r.1 }, r.2.map .flash)
          else
            ((firmware cfg).step s.fw .flashFinish).map fun q =>
              (⟨q.1, r.1⟩, r.2.map .flash ++ q.2.map .firmware)

/-- The tasks start in the world `w`, which `nic_flash_mgr_init` has left. -/
def flashSystemInit (cfg : TickConfig) (ticks : ℕ) (w : W) : FlashSystem W where
  fw := firmwareInit cfg ticks
  task := ⟨⟨.idle, false⟩, w, false⟩

/-! ## Histories -/

/-- What the firmware reported. -/
def firmwareEvents (tr : List FlashSystemEvent) : List FwEvent :=
  tr.filterMap fun
    | .firmware e => some e
    | .flash _ => none

/-- What went over the SPI bus. -/
def flashEvents (tr : List FlashSystemEvent) : List FlashEvent :=
  tr.filterMap fun
    | .flash e => some e
    | .firmware _ => none

/-- The update that the frame grants, as the answer to `request`. -/
def grantedBy (request : Option (List UInt8)) (frame : List UInt8) : List FlashCmd :=
  request.toList.filterMap fun message =>
    if IsUpdateRequest message ∧ frame.getD 7 0 = pldmCcSuccess then some (updateCmdOf message) else none

/-- The updates granted so far, and the request that was received last and not answered yet. -/
def noteAnswer (p : List FlashCmd × Option (List UInt8)) :
    FwEvent → List FlashCmd × Option (List UInt8)
  | .mctpComplete _ message => (p.1, some message)
  | .transmit frame _ => (p.1 ++ grantedBy p.2 frame, none)
  | _ => p

/-- The updates that the BMC has asked for and that were answered with `PLDM_CC_SUCCESS`, from the
messages received and the frames sent. -/
def grantedUpdates (tr : List FwEvent) : List FlashCmd := (tr.foldl noteAnswer ([], none)).1

/-- The commands that the flash thread has finished. -/
def flashCommandsFinished (tr : List FwEvent) : List FlashCmd :=
  tr.filterMap fun
    | .flashFinished cmd => some cmd
    | _ => none

/-- What a step of the system executes to the end: a command and its image. -/
def commandsExecuted (_ : FlashSystem W) (a : FlashSystemAction W) (evs : List FlashSystemEvent) :
    List (FlashCmd × (ℕ → UInt8)) :=
  match a with
  | .firmware _ => []
  | .execute _ data _ =>
    (firmwareEvents evs).filterMap fun
      | .flashFinished cmd => some (cmd, data)
      | _ => none

/-- The flash after the images of these commands have been staged, one after the other. -/
def stagedAll (old : ℕ → UInt8) (executed : List (FlashCmd × (ℕ → UInt8))) : ℕ → UInt8 :=
  executed.foldl (fun mem u => stagedMem mem u.1.imageOffset.toNat u.1.imageSize.toNat u.2) old

/-- The update begins at a sector boundary and ends inside the flash. -/
def FlashCmd.Stageable (cmd : FlashCmd) : Prop :=
  cmd.imageOffset.toNat % NorFlash.sectorSize = 0 ∧
    cmd.imageOffset.toNat + cmd.imageSize.toNat ≤ NorFlash.capacity

instance (cmd : FlashCmd) : Decidable cmd.Stageable := inferInstanceAs (Decidable (_ ∧ _))

/-- Whatever happens to the world while the flash thread is blocked, for the chip time passes. -/
def OnlyTimePasses (chipOf : W → NorFlash.Chip) (acts : List (FlashSystemAction W)) : Prop :=
  ∀ elapse data polls, .execute elapse data polls ∈ acts →
    ∀ w, NorFlash.Later (chipOf w) (chipOf (elapse w))

end NicObFw
