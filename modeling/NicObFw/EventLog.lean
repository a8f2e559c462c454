import NicObFw.BmcMgr
import NicObFw.Lib.RingLog

/-!
# The history of the event log

What the entries of the system event log, the NIC events and the outcomes of the liveness check of a run
were, as the basis for statements about what the log still holds.
-/

namespace NicObFw

/-! ## Histories -/

/-- The type and the data of the entries written to the log. -/
def entriesLogged (tr : List FwEvent) : List (UInt8 × UInt32) :=
  tr.filterMap fun
    | .selLogged eventType eventData => some (eventType, eventData)
    | _ => none

/-- The events that the NIC event queue took. -/
def nicAccepted (tr : List FwEvent) : List NicEventMsg :=
  tr.filterMap fun
    | .nicPost evt true => some evt
    | _ => none

/-- The NIC events logged so far, and one that was received and is not logged yet. -/
def noteNicLogged (s : List NicEventMsg × Option NicEventMsg) :
    FwEvent → List NicEventMsg × Option NicEventMsg
  | .nicReceived evt => (s.1, some evt)
  | .selLogged eventType eventData =>
    match s.2 with
    | some evt =>
      if eventType = evt.eventType ∧ eventData = evt.eventData then (s.1 ++ [evt], none) else s
    | none => s
  | _ => s

/-- The NIC events that were received and then logged with their type and data. -/
def nicLogged (tr : List FwEvent) : List NicEventMsg := (tr.foldl noteNicLogged ([], none)).1

/-! ## The log -/

/-- The log as a ring. -/
def SelState.ring (sel : SelState) : RingLog SelEntry selMaxEntries where
  slots := sel.sSelLog
  head := sel.sSelHead.toNat
  count := sel.sSelCount.toNat

def SelEntry.content (entry : SelEntry) : UInt8 × UInt32 := (entry.eventType, entry.eventData)

/-- The slot of the log that the entry with `k` entries after it was written to. -/
def SelState.recent (sel : SelState) (k : ℕ) : Option SelEntry :=
  sel.sSelLog[(sel.sSelHead.toNat + 31 - k) % 32]?

/-! ## Silence of the BMC -/

/-- A step that concerns the log: the liveness check with its result, or the receipt of a NIC event; and
what the step logged. -/
inductive LogMark where
  | check (alive : Bool) (logged : List (UInt8 × UInt32))
  | nic (evt : NicEventMsg) (logged : List (UInt8 × UInt32))
deriving DecidableEq, Repr

def LogMark.logged : LogMark → List (UInt8 × UInt32)
  | check _ logged => logged
  | nic _ logged => logged

/-- What a step is for the log. -/
def logMarks (cfg : TickConfig) (fw : Firmware) (a : FwAction) (evs : List FwEvent) : List LogMark :=
  match a, fw.phase with
  | .bmcMgrTask _, .liveness => [.check (livenessCheck cfg fw) (entriesLogged evs)]
  | .bmcMgrTask _, .drainNic =>
    evs.filterMap fun
      | .nicReceived evt => some (.nic evt (entriesLogged evs))
      | _ => none
  | _, _ => []

/-- The results of the liveness checks. -/
def checks (marks : List LogMark) : List Bool :=
  marks.filterMap fun
    | .check alive _ => some alive
    | .nic .. => none

/-- The result of the last check; the BMC counts as alive before the first one. -/
def lastCheck (marks : List LogMark) : Bool := (checks marks).getLastD true

/-- The number of incidents: NIC events, and checks that fail after one that did not. `alive` is the
result of the check before. -/
def incidents (alive : Bool) : List LogMark → ℕ
  | [] => 0
  | .nic .. :: marks => incidents alive marks + 1
  | .check alive' _ :: marks =>
    (if alive = true ∧ alive' = false then 1 else 0) + incidents alive' marks

/-- The entries that the liveness checks log until one of them succeeds. -/
def episodeEntries (marks : List LogMark) : List (UInt8 × UInt32) :=
  (marks.takeWhile fun
    | .check alive _ => !alive
    | .nic .. => true).flatMap fun
      | .check _ logged => logged
      | .nic .. => []

/-- Every episode of silence adds one entry for it to the log. -/
def EpisodesLoggedOnce (marks : List LogMark) : Prop :=
  ∀ pre logged post, marks = pre ++ .check false logged :: post → lastCheck pre = true →
    episodeEntries (.check false logged :: post) = [(msgTypeLiveness, 0)]

/-- No check fails right after one that failed. -/
def NeverSilentTwice (marks : List LogMark) : Prop :=
  (checks marks).IsChain fun alive alive' => alive = true ∨ alive' = true

/-- The log `sel` still holds every NIC event that fewer than 32 incidents came after: in the slot that
the number of later entries gives, which is one of those in use. -/
def KeepsNicEvents (sel : SelState) (marks : List LogMark) : Prop :=
  ∀ pre evt logged post, marks = pre ++ .nic evt logged :: post →
    incidents (lastCheck pre) post < 32 →
    let later := (post.flatMap LogMark.logged).length
    later < sel.sSelCount.toNat ∧
      (sel.recent later).map SelEntry.content = some (evt.eventType, evt.eventData)

end NicObFw
