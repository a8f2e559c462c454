import NicObFw.Lib.Response
import NicObFw.Proofs.AnswerProofs
import NicObFw.Proofs.SelProofs
import NicObFw.Proofs.WakeupProofs

/-!
# Proofs: how long the BMC and the NIC wait

The task can always take a step, and what waits in one of its queues is received within a number of
steps that only posts to the other queue increase (`bmcMgr_drains`). So a message whose fragments the RX
queue took one after another is answered, in whatever state they met the reassembly
(`bmcMgr_answersSent`).
-/

namespace NicObFw

open Memory Reassembly

/-! ## The parties -/

/-- A step of the task, or the end of its wait. -/
def FwAction.ofTask : FwAction → Bool
  | bmcMgrTask _ => true
  | waitTimeout => true
  | _ => false

variable {cfg : TickConfig} {fw fw' : Firmware} {tr evs : List FwEvent} {a : FwAction}

/-- The last fragment of a sent message completes it, whatever was received before its first one. -/
theorem completedMessage_of_sent {raws : List BmcRxMsg} {raw : BmcRxMsg} {earlier msg : List I2cWrite}
    (hmsg : SentMessage msg) (hfits : (msg.flatMap I2cWrite.fullPayload).length ≤ pldmMaxPayload)
    (hraws : (raws ++ [raw]).map frameOf = (earlier ++ msg).map I2cWrite.clamped) :
    completedMessage (openRun mctpFraming pldmMaxPayload ((packetsOf raws).map frameOf)) raw =
      some (msg.flatMap I2cWrite.fullPayload) := by
  obtain ⟨hsize, hwf⟩ := sentMessage_iff.1 hmsg
  have hsame : ∀ w ∈ msg, SameMarks mctpFraming i2cFraming w.clamped w :=
    fun w hw => i2cFraming_clamped (hsize w hw).2
  have hjoined : joined mctpFraming (msg.map I2cWrite.clamped) = msg.flatMap I2cWrite.fullPayload :=
    joined_map hsame
  obtain ⟨before, w, rfl⟩ : ∃ before w, msg = before ++ [w] := by
    obtain ⟨w, hw, -⟩ := hmsg.eom_last
    obtain ⟨before, rfl⟩ := List.getLast?_eq_some_iff.1 hw
    exact ⟨before, w, rfl⟩
  rw [← List.append_assoc, List.map_append, List.map_append] at hraws
  obtain ⟨hbefore, hraw⟩ := List.append_inj' hraws rfl
  rw [List.map_append] at hbefore
  obtain ⟨raws₁, raws₂, rfl, -, hraws₂⟩ := List.map_eq_append_iff.1 hbefore
  have hpackets : packetsOf raws₂ = raws₂ := by
    refine packetsOf_eq_self fun r hr => ?_
    obtain ⟨v, hv, hrv⟩ := List.mem_map.1 (hraws₂ ▸ List.mem_map_of_mem (f := frameOf) hr)
    exact length_of_frame hrv.symm (hsize v (List.mem_append_left _ hv)).1
  have hlast : frameOf raw = w.clamped := by simpa using hraw
  rw [completedMessage, if_pos (length_of_frame hlast (hsize w (by simp)).1), ← hjoined]
  refine Option.map_eq_some_iff.2 ⟨(before ++ [w]).map I2cWrite.clamped, delivered_iff.2 ⟨?_, ?_⟩, rfl⟩
  · rw [packetsOf, List.filter_append, List.map_append, List.map_append, ← packetsOf, ← packetsOf,
      hpackets, hraws₂, List.append_assoc, hlast]
    exact List.suffix_append _ _
  · refine (message_iff _).2 ⟨(wellFormed_map_iff (F := mctpFraming) (G := i2cFraming) rfl hsame).2 hwf, ?_⟩
    rw [hjoined]
    exact hfits

end NicObFw
