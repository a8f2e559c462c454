import NicObFw.Answers
import NicObFw.FlashDevice

/-!
# The handoff of updates

The part of the firmware that an update passes on its way to the flash: `dispatch_pldm` posts commands
to the flash queue, and `nic_flash_mgr_task` takes and executes them. Any PLDM message can be dispatched
at any time, with any sensor cache.

A call of `dispatch_pldm` is one step. It touches the queue once, so what the flash thread does in the
middle of a call could as well have happened before or after it.
-/

namespace NicObFw

/-- The flash queue, and the command that the flash thread is executing. -/
structure UpdateHandoff where
  sFlashCmdQueue : FreeRtos.Queue FlashCmd queueDepthFlash
  flashTask : Option FlashCmd

inductive HandoffAction where
  | dispatchPldm (msg : PldmMsg) (sCache : SensorCache) (locals : TaskLocals)
  /-- The flash thread, idle, takes a command. -/
  | flashReceive
  /-- The flash thread finishes its command. -/
  | flashFinish

inductive HandoffEvent where
  /-- The message was answered with this frame. -/
  | answered (msg : PldmMsg) (frame : List UInt8)
  | taken (cmd : FlashCmd)
  | finished (cmd : FlashCmd)
deriving DecidableEq

/-- The steps of the two threads. -/
def updateHandoff : Machine UpdateHandoff HandoffAction HandoffEvent where
  step h
    | .dispatchPldm msg sCache locals =>
      let (sFlashCmdQueue, events) := dispatchPldm sCache h.sFlashCmdQueue msg locals
      some ({ h with sFlashCmdQueue }, (framesSent events).map (.answered msg))
    | .flashReceive =>
      match h.flashTask, rtosQueueReceive h.sFlashCmdQueue with
      | none, (.ok, some cmd, sFlashCmdQueue) =>
        some ({ sFlashCmdQueue, flashTask := some cmd }, [.taken cmd])
      | _, _ => none
    | .flashFinish =>
      match h.flashTask with
      | some cmd => some ({ h with flashTask := none }, [.finished cmd])
      | none => none

/-- `init_queues` creates the queue before any task is started. -/
def updateHandoffInit : UpdateHandoff where
  sFlashCmdQueue := .create _ _
  flashTask := none

/-! ## Histories -/

/-- The completion code in a response frame. -/
def completionCodeOf (frame : List UInt8) : UInt8 := frame.getD 7 0

/-- The `REQUEST_UPDATE` messages that were answered with `PLDM_CC_SUCCESS`. -/
def acceptedUpdates (tr : List HandoffEvent) : List PldmMsg :=
  tr.filterMap fun
    | .answered msg frame =>
      if msg.RequestsUpdate ∧ completionCodeOf frame = pldmCcSuccess then some msg else none
    | _ => none

/-- The commands that the flash thread has taken. -/
def takenCommands (tr : List HandoffEvent) : List FlashCmd :=
  tr.filterMap fun
    | .taken cmd => some cmd
    | _ => none

/-- The commands that the flash thread has finished. -/
def finishedCommands (tr : List HandoffEvent) : List FlashCmd :=
  tr.filterMap fun
    | .finished cmd => some cmd
    | _ => none

/-- The offset and the size that a command asks for. -/
def FlashCmd.range (cmd : FlashCmd) : ℕ × ℕ := (cmd.imageOffset.toNat, cmd.imageSize.toNat)

/-! ## One update at a time -/

/-- The commands that are being executed or wait in the queue. -/
def UpdateHandoff.outstanding (h : UpdateHandoff) : List FlashCmd :=
  h.flashTask.toList ++ h.sFlashCmdQueue.items

/-- A `REQUEST_UPDATE` is answered with `PLDM_CC_SUCCESS` only if no command is outstanding, and with
`PLDM_CC_ERROR` if one is. -/
def OneUpdateAtATime (h : UpdateHandoff) (_ : List HandoffEvent) : HandoffAction → Prop
  | .dispatchPldm msg sCache locals =>
    msg.RequestsUpdate →
      ∀ frame ∈ framesSent (dispatchPldm sCache h.sFlashCmdQueue msg locals).2,
        (completionCodeOf frame = pldmCcSuccess → h.outstanding = []) ∧
        (h.outstanding ≠ [] → completionCodeOf frame = pldmCcError)
  | _ => True

/-- A `REQUEST_UPDATE` comes when no command is outstanding. -/
def UpdatesApart (h : UpdateHandoff) (_ : List HandoffEvent) : HandoffAction → Prop
  | .dispatchPldm msg _ _ => msg.RequestsUpdate → h.outstanding = []
  | _ => True

end NicObFw
