import NicObFw.Proofs.MctpProofs

/-!
# Proofs: the fragment grammar of MCTP

Which raw messages make `mctp_process_rx` return true, over every history from `mctp_init`.
-/

namespace NicObFw

open Memory Reassembly

/-- The state after a sequence of calls of `mctp_process_rx`, each with the packet that its caller
passes for the output. -/
def mctpRun (st : MctpState) (calls : List (BmcRxMsg × MctpPacket)) : MctpState :=
  calls.foldl (fun st c => (mctpProcessRx st c.1 c.2).st) st

/-- The raw messages that hold a whole MCTP header. -/
def packetsOf (raws : List BmcRxMsg) : List BmcRxMsg := raws.filter fun raw => 4 ≤ raw.length.toNat

/-- The payload bytes of a raw message. -/
def BmcRxMsg.payload (raw : BmcRxMsg) : List UInt8 := load raw.data 4 (raw.length.toNat - 4)

/-- A well-formed fragment run: `SOM` on the first packet only, `EOM` on the last only, sequence
numbers consecutive modulo 4, and a total payload that fits the reassembly buffer. -/
structure FragmentRun (msg : List BmcRxMsg) : Prop where
  som_first : ∃ p ∈ msg.head?, isSom p.flagsSeq = true
  som_only : ∀ p ∈ msg.tail, isSom p.flagsSeq = false
  eom_only : ∀ p ∈ msg.dropLast, isEom p.flagsSeq = false
  eom_last : ∃ p ∈ msg.getLast?, isEom p.flagsSeq = true
  seq : msg.IsChain fun p q =>
    (extractSeq q.flagsSeq).toNat = ((extractSeq p.flagsSeq).toNat + 1) % 4
  total : (msg.map fun p => p.length.toNat - 4).sum ≤ pldmMaxPayload

/-- The marks of a raw message, read where the code reads them. -/
def rawFraming : Framing BmcRxMsg UInt8 where
  som raw := isSom raw.flagsSeq
  eom raw := isEom raw.flagsSeq
  seq raw := (extractSeq raw.flagsSeq).toNat
  modulus := 4
  payload := BmcRxMsg.payload

/-- The marks of a packet are those of its bytes. -/
theorem rawFraming_frameOf {raw : BmcRxMsg} (h : raw.IsPacket) :
    SameMarks mctpFraming rawFraming (frameOf raw) raw := by
  refine ⟨som_frameOf h, eom_frameOf h, seq_frameOf h, ?_⟩
  rw [← load_payload h, toNat_payloadLen h]
  rfl

theorem length_joined_rawFraming {msg : List BmcRxMsg} (h : ∀ p ∈ msg, p.IsPacket) :
    (joined rawFraming msg).length = (msg.map fun p => p.length.toNat - 4).sum := by
  rw [joined, List.length_flatMap]
  refine congrArg List.sum (List.map_congr_left fun p hp => ?_)
  rw [← (rawFraming_frameOf (h p hp)).2.2.2, length_payload (h p hp)]

/-- The grammar on raw messages is that of the library. -/
theorem fragmentRun_iff {msg : List BmcRxMsg} (h : ∀ p ∈ msg, p.IsPacket) :
    FragmentRun msg ↔ Message rawFraming pldmMaxPayload msg := by
  rw [message_iff, wellFormed_iff, length_joined_rawFraming h]
  exact ⟨fun r => ⟨⟨r.som_first, r.som_only, r.eom_only, r.eom_last, r.seq⟩, r.total⟩,
    fun ⟨⟨h1, h2, h3, h4, h5⟩, h6⟩ => ⟨h1, h2, h3, h4, h5, h6⟩⟩

/-! ## Runs of calls -/

section Runs

variable {calls : List (BmcRxMsg × MctpPacket)} {raw : BmcRxMsg}

theorem packetsOf_snoc {raws : List BmcRxMsg} (h : 4 ≤ raw.length.toNat) :
    packetsOf (raws ++ [raw]) = packetsOf raws ++ [raw] := by
  simp [packetsOf, h]

theorem packetsOf_snoc_short {raws : List BmcRxMsg} (h : raw.length.toNat < 4) :
    packetsOf (raws ++ [raw]) = packetsOf raws := by
  simp [packetsOf, h]

/-- No packet is ignored. -/
theorem packetsOf_eq_self {raws : List BmcRxMsg} (h : ∀ p ∈ raws, 4 ≤ p.length.toNat) :
    packetsOf raws = raws :=
  List.filter_eq_self.2 fun p hp => decide_eq_true (h p hp)

theorem isPacket_of_mem {raws : List BmcRxMsg}
    (h32 : ∀ p ∈ raws, p.length.toNat ≤ smbMaxBlockSize) : ∀ p ∈ packetsOf raws, p.IsPacket := by
  intro p hp
  obtain ⟨hmem, h4⟩ := List.mem_filter.1 hp
  exact ⟨by simpa using h4, h32 p hmem⟩

/-- After any history the static variables hold the open run of its packets. -/
theorem mctpRun_holds (h32 : ∀ c ∈ calls, c.1.length.toNat ≤ smbMaxBlockSize) :
    Holds (mctpRun mctpInit calls)
      (openRun mctpFraming pldmMaxPayload ((packetsOf (calls.map Prod.fst)).map frameOf)) := by
  induction calls using List.reverseRecOn with
  | nil => exact holds_init
  | append_singleton calls c ih =>
    have hold := ih fun d hd => h32 d (by simp [hd])
    have hc := h32 c (by simp)
    have hrun : mctpRun mctpInit (calls ++ [c]) =
        (mctpProcessRx (mctpRun mctpInit calls) c.1 c.2).st := by simp [mctpRun]
    rw [hrun, List.map_append, List.map_singleton]
    by_cases h4 : 4 ≤ c.1.length.toNat
    · rw [packetsOf_snoc h4, List.map_append, List.map_singleton, openRun_snoc]
      exact (mctpProcessRx_spec hold ⟨h4, hc⟩ c.2).1
    · rw [packetsOf_snoc_short (not_le.1 h4), mctpProcessRx_short (not_le.1 h4)]
      exact hold

/-- The messages that the packet `raw` completes after a history, on raw messages. -/
theorem delivered_raw_iff (h32 : ∀ c ∈ calls, c.1.length.toNat ≤ smbMaxBlockSize)
    (hraw : raw.IsPacket) (frames : List (List UInt8)) :
    delivered mctpFraming pldmMaxPayload
      (openRun mctpFraming pldmMaxPayload ((packetsOf (calls.map Prod.fst)).map frameOf))
      (frameOf raw) = some frames ↔
    ∃ earlier msg, packetsOf (calls.map Prod.fst ++ [raw]) = earlier ++ msg ∧ FragmentRun msg ∧
      frames = msg.map frameOf := by
  have hpk : ∀ p ∈ packetsOf (calls.map Prod.fst ++ [raw]), p.IsPacket := by
    refine isPacket_of_mem fun p hp => ?_
    rcases List.mem_append.1 hp with hp | hp
    · obtain ⟨c, hc, rfl⟩ := List.mem_map.1 hp
      exact h32 c hc
    · obtain rfl : p = raw := by simpa using hp
      exact hraw.2
  have hmsg : ∀ earlier msg, packetsOf (calls.map Prod.fst ++ [raw]) = earlier ++ msg →
      (FragmentRun msg ↔ Message mctpFraming pldmMaxPayload (msg.map frameOf)) := by
    intro earlier msg hsplit
    have hp : ∀ p ∈ msg, p.IsPacket := fun p hp => hpk p (by rw [hsplit]; simp [hp])
    rw [fragmentRun_iff hp]
    exact (message_map_iff (F := mctpFraming) (G := rawFraming) rfl
      fun p hp' => rawFraming_frameOf (hp p hp')).symm
  have hsnoc : (packetsOf (calls.map Prod.fst)).map frameOf ++ [frameOf raw] =
      (packetsOf (calls.map Prod.fst ++ [raw])).map frameOf := by
    rw [packetsOf_snoc hraw.1, List.map_append, List.map_singleton]
  rw [delivered_iff, hsnoc]
  constructor
  · rintro ⟨⟨pre, hpre⟩, hm⟩
    rw [eq_comm, List.map_eq_append_iff] at hpre
    obtain ⟨earlier, msg, hsplit, -, rfl⟩ := hpre
    exact ⟨earlier, msg, hsplit, (hmsg earlier msg hsplit).2 hm, rfl⟩
  · rintro ⟨earlier, msg, hsplit, hrun, rfl⟩
    exact ⟨⟨earlier.map frameOf, by rw [hsplit, List.map_append]⟩, (hmsg earlier msg hsplit).1 hrun⟩

/-- The payloads of a fragment run are what the receiver joins. -/
theorem joined_frames {msg : List BmcRxMsg} (h : ∀ p ∈ msg, p.IsPacket) :
    joined mctpFraming (msg.map frameOf) = msg.flatMap BmcRxMsg.payload := by
  rw [joined_map (F := mctpFraming) (G := rawFraming) fun p hp => rawFraming_frameOf (h p hp)]
  rfl

/-- A packet that completes a message completes a fragment run, and the packet handed out carries the
header of the last packet and the payloads of all. -/
theorem mctpRun_complete (h32 : ∀ c ∈ calls, c.1.length.toNat ≤ smbMaxBlockSize)
    (hraw : raw.IsPacket) {pkt : MctpPacket}
    (hc : (mctpProcessRx (mctpRun mctpInit calls) raw pkt).complete = true) :
    ∃ earlier msg, packetsOf (calls.map Prod.fst ++ [raw]) = earlier ++ msg ∧ FragmentRun msg ∧
      (mctpProcessRx (mctpRun mctpInit calls) raw pkt).pktOut =
        completedPacket raw (joined mctpFraming (msg.map frameOf)) pkt := by
  obtain ⟨-, hnone, hsome⟩ := mctpProcessRx_spec (mctpRun_holds h32) hraw pkt
  cases hd : delivered mctpFraming pldmMaxPayload
      (openRun mctpFraming pldmMaxPayload ((packetsOf (calls.map Prod.fst)).map frameOf))
      (frameOf raw) with
  | none =>
    rw [(hnone hd).1] at hc
    exact absurd hc (by simp)
  | some frames =>
    obtain ⟨earlier, msg, hsplit, hrun, rfl⟩ := (delivered_raw_iff h32 hraw frames).1 hd
    exact ⟨earlier, msg, hsplit, hrun, (hsome _ hd).2.1⟩

/-- `mctp_process_rx` accepts exactly its fragment grammar. After any history from `mctp_init`, a
raw message that is too short is ignored; any other one makes the call return true exactly if the
packets received so far end with a well-formed fragment run. The output then carries the payloads of
that run, and it is not written otherwise. -/
theorem mctpProcessRx_accepts_grammar (calls : List (BmcRxMsg × MctpPacket)) (raw : BmcRxMsg)
    (pkt : MctpPacket) (h32 : ∀ c ∈ calls, c.1.length.toNat ≤ smbMaxBlockSize)
    (hraw : raw.length.toNat ≤ smbMaxBlockSize) :
    let rx := mctpProcessRx (mctpRun mctpInit calls) raw pkt
    let packets := packetsOf (calls.map Prod.fst ++ [raw])
    (raw.length.toNat < 4 → rx.complete = false ∧ rx.st = mctpRun mctpInit calls) ∧
    (4 ≤ raw.length.toNat →
      (rx.complete = true ↔ ∃ earlier msg, packets = earlier ++ msg ∧ FragmentRun msg) ∧
      ∀ earlier msg, packets = earlier ++ msg → FragmentRun msg →
        rx.pktOut.payloadLen.toNat = (msg.map fun p => p.length.toNat - 4).sum ∧
        ((msg.map fun p => p.length.toNat - 4).sum ≤ mctpMaxPayload →
          load rx.pktOut.payload 0 rx.pktOut.payloadLen.toNat = msg.flatMap BmcRxMsg.payload)) ∧
    (rx.complete = false → rx.pktOut = pkt) := by
  intro rx packets
  by_cases h4 : raw.length.toNat < 4
  · have hshort : rx = ⟨false, mctpRun mctpInit calls, pkt, []⟩ := mctpProcessRx_short h4
    rw [hshort]
    exact ⟨fun _ => ⟨rfl, rfl⟩, fun h => absurd h4 (not_lt.2 h), fun _ => rfl⟩
  · have hp : raw.IsPacket := ⟨not_lt.1 h4, hraw⟩
    have hdel := delivered_raw_iff h32 hp
    obtain ⟨-, hnone, hsome⟩ := mctpProcessRx_spec (mctpRun_holds h32) hp pkt
    refine ⟨fun h => absurd h h4, fun _ => ⟨⟨?_, ?_⟩, ?_⟩, ?_⟩
    · intro hc
      obtain ⟨earlier, msg, hsplit, hrun, -⟩ := mctpRun_complete h32 hp hc
      exact ⟨earlier, msg, hsplit, hrun⟩
    · rintro ⟨earlier, msg, hsplit, hrun⟩
      exact (hsome _ ((hdel _).2 ⟨earlier, msg, hsplit, hrun, rfl⟩)).1
    · intro earlier msg hsplit hrun
      have hpk : ∀ p ∈ msg, p.IsPacket := by
        intro p hmem
        have hpackets : p ∈ packets := hsplit ▸ List.mem_append_right earlier hmem
        refine isPacket_of_mem ?_ p hpackets
        simpa [or_imp, forall_and, hraw] using fun q pkt hq => h32 (q, pkt) hq
      have hout := (hsome _ ((hdel _).2 ⟨earlier, msg, hsplit, hrun, rfl⟩)).2.1
      have hsum : (joined mctpFraming (msg.map frameOf)).length =
          (msg.map fun p => p.length.toNat - 4).sum := by
        rw [joined_frames hpk, ← length_joined_rawFraming hpk]
        rfl
      have hlen : rx.pktOut.payloadLen.toNat = (joined mctpFraming (msg.map frameOf)).length := by
        have htotal := hrun.total
        rw [← hsum] at htotal
        rw [hout]
        exact Nat.mod_eq_of_lt (lt_of_le_of_lt htotal (by decide))
      refine ⟨hlen.trans hsum, fun h64 => ?_⟩
      rw [hlen, hout, ← joined_frames hpk]
      exact load_store_zero _ (hsum ▸ h64)
    · intro hc
      cases hd : delivered mctpFraming pldmMaxPayload
          (openRun mctpFraming pldmMaxPayload ((packetsOf (calls.map Prod.fst)).map frameOf))
          (frameOf raw) with
      | none => exact (hnone hd).2.1
      | some frames =>
        rw [(hsome frames hd).1] at hc
        exact absurd hc (by simp)

/-- A packet with one payload byte. -/
def bytePacket (srcEid flagsSeq byte : UInt8) : BmcRxMsg where
  data := store (Vector.replicate _ 0) 0 [1, 8, srcEid, flagsSeq, byte]
  length := 5
  reserved := 0

/-- A stray last packet does not keep the message behind it from being delivered. -/
theorem mctpProcessRx_accepts_after_stray :
    (mctpProcessRx (mctpRun mctpInit [(bytePacket 9 0x70 7, ⟨0, 0, 0, 0, 0, 0, Vector.replicate _ 0⟩),
        (bytePacket 9 0xB0 1, ⟨0, 0, 0, 0, 0, 0, Vector.replicate _ 0⟩)]) (bytePacket 9 0x40 2)
      ⟨0, 0, 0, 0, 0, 0, Vector.replicate _ 0⟩).complete = true :=
  (((mctpProcessRx_accepts_grammar [(bytePacket 9 0x70 7, ⟨0, 0, 0, 0, 0, 0, Vector.replicate _ 0⟩),
        (bytePacket 9 0xB0 1, ⟨0, 0, 0, 0, 0, 0, Vector.replicate _ 0⟩)] (bytePacket 9 0x40 2)
      ⟨0, 0, 0, 0, 0, 0, Vector.replicate _ 0⟩ (by decide) (by decide)).2.1 (by decide)).1).2
    ⟨[bytePacket 9 0x70 7], [bytePacket 9 0xB0 1, bytePacket 9 0x40 2], by decide +kernel,
      ⟨by decide +kernel, by decide +kernel, by decide +kernel, by decide +kernel,
        by decide +kernel, by decide⟩⟩

end Runs

end NicObFw
