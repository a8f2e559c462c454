import NicObFw.CommonTypes

/-!
# NIC General Manager

The system event log of `nic_gen_mgr.c`, a circular log. Its functions are called in the thread of the
BMC Manager.
-/

namespace NicObFw

@[simp] abbrev selMaxEntries : ℕ := 32

/-- `sel_entry_t`. -/
structure SelEntry where
  eventType : UInt8
  eventData : UInt32
  timestampMs : UInt32
deriving DecidableEq, Repr

/-- The static variables of the log. -/
structure SelState where
  sSelLog : Vector SelEntry selMaxEntries
  sSelHead : UInt8
  sSelCount : UInt8
deriving DecidableEq, Repr

/-- `nic_gen_mgr_init`, as far as the log is concerned. -/
def nicGenMgrInit : SelState where
  sSelLog := Vector.replicate _ ⟨0, 0, 0⟩
  sSelHead := 0
  sSelCount := 0

/-- `nic_gen_mgr_log_sel_event` at the time `tickMs`. -/
def nicGenMgrLogSelEvent (sel : SelState) (eventType : UInt8) (eventData tickMs : UInt32) : SelState :=
  { sSelLog := sel.sSelLog.setIfInBounds sel.sSelHead.toNat ⟨eventType, eventData, tickMs⟩
    sSelHead := (sel.sSelHead + 1) % 32
    sSelCount := if sel.sSelCount < 32 then sel.sSelCount + 1 else sel.sSelCount }

/-- `nic_gen_mgr_handle_nic_event`. -/
def nicGenMgrHandleNicEvent (sel : SelState) (event : NicEventMsg) (tickMs : UInt32) : SelState :=
  nicGenMgrLogSelEvent sel event.eventType event.eventData tickMs

end NicObFw
