import NicObFw.ReceivePath
import NicObFw.Proofs.IsrProofs

/-!
# Proofs: the receive path

One write through the ISR and the protocol handler (`receiveWrite_spec`), and what follows for whole
runs: which runs stay inside the arrays, and what a delivered message consists of.
-/

namespace NicObFw

open Memory Reassembly

/-! ## `pldm_parse` -/

theorem pldmParse_short {pkt : MctpPacket} {out : PldmMsg} (h : pkt.payloadLen.toNat < 3) :
    pldmParse pkt out = (.fail, out, []) := by
  simp [pldmParse, h]

theorem toNat_dataLen {pkt : MctpPacket} (h : 3 ≤ pkt.payloadLen.toNat) :
    (pkt.payloadLen - 3).toNat = pkt.payloadLen.toNat - 3 :=
  UInt16.toNat_sub_of_le pkt.payloadLen 3 (by rw [UInt16.le_iff_toNat_le]; exact h)

/-- A packet of at least three bytes is parsed; the message holds the payload of the packet as far as
this lies inside the packet, and the accesses stay inside if all of it does. -/
theorem pldmParse_ok (pkt : MctpPacket) (out : PldmMsg) (h3 : 3 ≤ pkt.payloadLen.toNat)
    (hmax : pkt.payloadLen.toNat ≤ pldmMaxPayload) :
    let r := pldmParse pkt out
    r.1 = .ok ∧
    (pkt.payloadLen.toNat ≤ mctpMaxPayload →
      r.2.1.messageBytes = load pkt.payload 0 pkt.payloadLen.toNat) ∧
    (AllInBounds RxArray.size r.2.2 ↔ pkt.payloadLen.toNat ≤ mctpMaxPayload) := by
  have hlen := toNat_dataLen h3
  have hclamp : ¬ (pkt.payloadLen - 3).toNat > pldmMaxPayload := by
    simp only [pldmMaxPayload] at hmax ⊢; omega
  have hhead : load pkt.payload 0 3 = [pkt.payload[0], pkt.payload[1], pkt.payload[2]] := by
    obtain ⟨⟨l⟩, hl⟩ := pkt.payload
    match l, hl with
    | a :: b :: c :: l, hl => rfl
  have hsplit : load pkt.payload 0 pkt.payloadLen.toNat =
      load pkt.payload 0 3 ++ load pkt.payload 3 (pkt.payloadLen - 3).toNat := by
    rw [hlen, ← load_add, Nat.add_sub_cancel' h3]
  by_cases h0 : (pkt.payloadLen - 3).toNat > 0
  · simp only [pldmParse, not_lt.2 h3, if_false, hclamp, h0, if_true, PldmMsg.messageBytes,
      List.cons_append, List.nil_append, allInBounds_cons, allInBounds_nil, and_true, RxArray.size,
      true_and]
    refine ⟨fun h64 => ?_, ?_⟩
    · have hl : (load pkt.payload 3 (pkt.payloadLen - 3).toNat).length =
          (pkt.payloadLen - 3).toNat := by
        simp only [length_load, mctpMaxPayload] at h64 ⊢; omega
      have hfit : 0 + (load pkt.payload 3 (pkt.payloadLen - 3).toNat).length ≤ pldmMaxPayload := by
        simp only [pldmMaxPayload, hl] at hmax ⊢; omega
      have hback := load_store out.payload hfit
      rw [hl] at hback
      rw [hback, hsplit, hhead]
      rfl
    · simp only [mctpMaxPayload, pldmMaxPayload] at hmax ⊢
      omega
  · simp only [pldmParse, not_lt.2 h3, if_false, hclamp, h0, PldmMsg.messageBytes, List.cons_append,
      List.nil_append, allInBounds_cons, allInBounds_nil, and_true, RxArray.size, true_and]
    have hz : (pkt.payloadLen - 3).toNat = 0 := by omega
    refine ⟨fun _ => ?_, ?_⟩
    · rw [hsplit, hz, hhead]
      simp
    · simp only [mctpMaxPayload]
      omega

/-! ## `protocol_hdlr_process_rx` -/

/-- A packet, in a state that holds the open run `run`: the state follows the abstract receiver; a
message comes out exactly when the receiver delivers at least three bytes; and all accesses stay
inside the arrays unless the delivered message is longer than a packet's payload. -/
theorem protocolHdlrProcessRx_spec {st : MctpState} {run : List (List UInt8)} {raw : BmcRxMsg}
    (h : Holds st run) (hp : raw.IsPacket) (pkt : MctpPacket) (out : PldmMsg) :
    let rx := protocolHdlrProcessRx st raw pkt out
    Holds rx.st (step mctpFraming pldmMaxPayload run (frameOf raw)) ∧
    (delivered mctpFraming pldmMaxPayload run (frameOf raw) = none →
      rx.complete = false ∧ AllInBounds RxArray.size rx.accesses) ∧
    (∀ m, delivered mctpFraming pldmMaxPayload run (frameOf raw) = some m →
      (rx.complete = true ↔ 3 ≤ (joined mctpFraming m).length) ∧
      (rx.complete = true → (joined mctpFraming m).length ≤ mctpMaxPayload →
        rx.pldmOut.messageBytes = joined mctpFraming m) ∧
      (AllInBounds RxArray.size rx.accesses ↔ (joined mctpFraming m).length ≤ mctpMaxPayload)) := by
  obtain ⟨hst, hnone, hsome⟩ := mctpProcessRx_spec h hp pkt
  unfold protocolHdlrProcessRx
  generalize hrx : mctpProcessRx st raw pkt = rx at hst hnone hsome
  cases hd : delivered mctpFraming pldmMaxPayload run (frameOf raw) with
  | none =>
    obtain ⟨hc, -, hin⟩ := hnone hd
    simp only [hc, Bool.not_false, if_true]
    exact ⟨hst, fun _ => ⟨trivial, hin⟩, by simp⟩
  | some m =>
    obtain ⟨hc, hpkt, -, hin⟩ := hsome m hd
    have hfit := delivered_fits hd
    have hL : rx.pktOut.payloadLen.toNat = (joined mctpFraming m).length := by
      rw [hpkt]
      refine UInt16.toNat_ofNat_of_lt' ?_
      simp only [pldmMaxPayload, UInt16.size] at hfit ⊢
      omega
    simp only [hc, Bool.not_true, Bool.false_eq_true, if_false]
    by_cases h3 : (joined mctpFraming m).length < 3
    · rw [pldmParse_short (by rw [hL]; exact h3)]
      refine ⟨hst, by simp, ?_⟩
      intro m' hm'
      obtain rfl : m = m' := by simpa using hm'
      refine ⟨by simpa using h3, by simp, ?_⟩
      simpa using hin
    · obtain ⟨hok, hbytes, hpin⟩ :=
        pldmParse_ok rx.pktOut out (by rw [hL]; omega) (by rw [hL]; exact hfit)
      generalize hr : pldmParse rx.pktOut out = r at hok hbytes hpin
      obtain ⟨err, msg, log⟩ := r
      obtain rfl : err = .ok := hok
      refine ⟨hst, by simp, ?_⟩
      intro m' hm'
      obtain rfl : m = m' := by simpa using hm'
      refine ⟨by simpa using h3, fun _ h64 => ?_, ?_⟩
      · rw [← hL] at h64
        rw [hbytes h64, hL, hpkt]
        exact load_store_zero _ (by rw [← hL]; exact h64)
      · rw [hL] at hpin
        simp only [allInBounds_append, hin, hpin, and_self]

/-! ## One write -/

/-- A write that is too short for an MCTP header changes nothing. -/
theorem receiveWrite_short (st : MctpState) {i : RxInput} (h : ¬ i.write.IsPacket) :
    (receiveWrite st i).complete = false ∧ (receiveWrite st i).st = st ∧
    (receiveWrite st i).pldmOut = i.pldm ∧
    AllInBounds RxArray.size (receiveWrite st i).accesses := by
  obtain ⟨hlen, -, hlog⟩ := bmcI2cRxMsg_spec i.msgData i.write
  have hshort : (bmcI2cRxMsg i.msgData i.write).1.length.toNat < 4 := by
    rw [hlen, length_clamped]
    simp only [I2cWrite.IsPacket, smbMaxBlockSize] at h ⊢
    omega
  simp [receiveWrite, protocolHdlrProcessRx, mctpProcessRx_short hshort, hlog]

/-- A packet that passes the ISR and the protocol handler: the statement of
`protocolHdlrProcessRx_spec` for the clamped bytes of the write. -/
theorem receiveWrite_spec {st : MctpState} {run : List (List UInt8)} {i : RxInput}
    (h : Holds st run) (hp : i.write.IsPacket) :
    let rx := receiveWrite st i
    Holds rx.st (step mctpFraming pldmMaxPayload run i.write.clamped) ∧
    (delivered mctpFraming pldmMaxPayload run i.write.clamped = none →
      rx.complete = false ∧ AllInBounds RxArray.size rx.accesses) ∧
    (∀ m, delivered mctpFraming pldmMaxPayload run i.write.clamped = some m →
      (rx.complete = true ↔ 3 ≤ (joined mctpFraming m).length) ∧
      (rx.complete = true → (joined mctpFraming m).length ≤ mctpMaxPayload →
        rx.pldmOut.messageBytes = joined mctpFraming m) ∧
      (AllInBounds RxArray.size rx.accesses ↔ (joined mctpFraming m).length ≤ mctpMaxPayload)) := by
  obtain ⟨-, hframe, hlog⟩ := bmcI2cRxMsg_spec i.msgData i.write
  have hraw := bmcI2cRxMsg_isPacket hp i.msgData
  have hspec := protocolHdlrProcessRx_spec h hraw i.mctpPkt i.pldm
  rw [hframe] at hspec
  simpa only [receiveWrite, allInBounds_append, hlog, true_and] using hspec

/-- The accesses made for one packet stay inside the arrays exactly if the message it completes, if
any, fits the payload of a packet. -/
theorem receiveWrite_inBounds_iff {st : MctpState} {run : List (List UInt8)} {i : RxInput}
    (h : Holds st run) (hp : i.write.IsPacket) :
    AllInBounds RxArray.size (receiveWrite st i).accesses ↔
      ∀ m, delivered mctpFraming pldmMaxPayload run i.write.clamped = some m →
        (joined mctpFraming m).length ≤ mctpMaxPayload := by
  obtain ⟨-, hnone, hsome⟩ := receiveWrite_spec h hp
  cases hd : delivered mctpFraming pldmMaxPayload run i.write.clamped with
  | none => simpa using (hnone hd).2
  | some m => simpa using (hsome m hd).2.2

/-! ## Runs of writes -/

/-- The writes that hold a whole MCTP header. -/
def packetWrites (inputs : List RxInput) : List I2cWrite :=
  (inputs.map RxInput.write).filter fun w => w.IsPacket

/-- The packets of a run as the ISR posts them. -/
def framesOf (inputs : List RxInput) : List (List UInt8) :=
  (packetWrites inputs).map I2cWrite.clamped

theorem packetWrites_snoc_short {inputs : List RxInput} {i : RxInput} (h : ¬ i.write.IsPacket) :
    packetWrites (inputs ++ [i]) = packetWrites inputs := by
  simp [packetWrites, h]

theorem packetWrites_snoc {inputs : List RxInput} {i : RxInput} (h : i.write.IsPacket) :
    packetWrites (inputs ++ [i]) = packetWrites inputs ++ [i.write] := by
  simp [packetWrites, h]

theorem packetWrites_single {i : RxInput} (h : i.write.IsPacket) : packetWrites [i] = [i.write] := by
  simp [packetWrites, h]

theorem framesOf_snoc {inputs : List RxInput} {i : RxInput} (h : i.write.IsPacket) :
    framesOf (inputs ++ [i]) = framesOf inputs ++ [i.write.clamped] := by
  rw [framesOf, packetWrites_snoc h, List.map_append, ← framesOf]
  rfl

@[simp] theorem receiveState_snoc (st : MctpState) (inputs : List RxInput) (i : RxInput) :
    receiveState st (inputs ++ [i]) = (receiveWrite (receiveState st inputs) i).st := by
  simp [receiveState]

theorem receiveAccesses_snoc (st : MctpState) (inputs : List RxInput) (i : RxInput) :
    receiveAccesses st (inputs ++ [i]) =
      receiveAccesses st inputs ++ (receiveWrite (receiveState st inputs) i).accesses := by
  induction inputs generalizing st with
  | nil => simp [receiveAccesses, receiveState]
  | cons j inputs ih =>
    rw [List.cons_append, receiveAccesses, ih, receiveAccesses, List.append_assoc]
    rfl

/-- After any run of writes the static variables hold the open run of its packets. -/
theorem receiveState_holds (inputs : List RxInput) :
    Holds (receiveState protocolHdlrInit inputs)
      (openRun mctpFraming pldmMaxPayload (framesOf inputs)) := by
  induction inputs using List.reverseRecOn with
  | nil => exact holds_init
  | append_singleton inputs i ih =>
    rw [receiveState_snoc]
    by_cases hp : i.write.IsPacket
    · rw [framesOf_snoc hp, openRun_snoc]
      exact (receiveWrite_spec ih hp).1
    · rw [framesOf, packetWrites_snoc_short hp, ← framesOf, (receiveWrite_short _ hp).2.1]
      exact ih

/-! ## Staying inside the arrays -/

/-- No message that the packets of the run spell out is longer than the payload of a packet. -/
def MessagesFitPacket (inputs : List RxInput) : Prop :=
  ∀ m, m <:+: framesOf inputs → Message mctpFraming pldmMaxPayload m →
    (joined mctpFraming m).length ≤ mctpMaxPayload

/-- A run of writes stays inside every array exactly if no block of its packets is a message of more
than `MCTP_MAX_PAYLOAD` bytes. -/
theorem receiveAccesses_inBounds_iff (inputs : List RxInput) :
    AllInBounds RxArray.size (receiveAccesses protocolHdlrInit inputs) ↔ MessagesFitPacket inputs := by
  induction inputs using List.reverseRecOn with
  | nil =>
    refine ⟨fun _ m hm hmsg => ?_, fun _ => allInBounds_nil _⟩
    exact absurd (List.infix_nil.1 hm) hmsg.ne_nil
  | append_singleton inputs i ih =>
    rw [receiveAccesses_snoc, allInBounds_append, ih]
    by_cases hp : i.write.IsPacket
    · rw [receiveWrite_inBounds_iff (receiveState_holds inputs) hp]
      simp only [MessagesFitPacket, framesOf_snoc hp, List.infix_concat_iff, delivered_iff]
      constructor
      · rintro ⟨hold, hnew⟩ m (hsuf | hinf) hmsg
        · exact hnew m ⟨hsuf, hmsg⟩
        · exact hold m hinf hmsg
      · intro hall
        exact ⟨fun m hm hmsg => hall m (Or.inr hm) hmsg, fun m hm => hall m (Or.inl hm.1) hm.2⟩
    · have hin := (receiveWrite_short (receiveState protocolHdlrInit inputs) hp).2.2.2
      simp only [MessagesFitPacket, framesOf, packetWrites_snoc_short hp, hin, and_true]

/-- A write that fills an SMBus block, with the given flag byte; the automatic objects hold zeros. -/
def fullBlock (flagsSeq : UInt8) (extra : ℕ) (h : extra ≤ 8) : RxInput where
  write := ⟨[1, 8, 9, flagsSeq] ++ List.replicate (28 + extra) 0xAA, by simp; omega⟩
  msgData := Vector.replicate _ 0
  mctpPkt := ⟨0, 0, 0, 0, 0, 0, Vector.replicate _ 0⟩
  pldm := ⟨0, 0, 0, 0, 0, 0, Vector.replicate _ 0⟩

/-- Three full blocks that form one message: 84 bytes are copied into the 64 of a packet. -/
theorem three_full_blocks_overflow :
    ¬ AllInBounds RxArray.size (receiveAccesses protocolHdlrInit
      [fullBlock 0x80 0 (by decide), fullBlock 0x10 0 (by decide), fullBlock 0x60 0 (by decide)]) := by
  decide +kernel

/-! ## What a delivered message consists of -/

theorem joined_clamped (m : List I2cWrite) :
    joined mctpFraming (m.map I2cWrite.clamped) = m.flatMap fun w => w.clamped.drop 4 := by
  simp only [joined, List.flatMap_map]
  rfl

theorem length_clamped_payload (m : List I2cWrite) :
    (m.flatMap fun w => w.clamped.drop 4).length ≤ (m.flatMap I2cWrite.fullPayload).length := by
  induction m with
  | nil => simp
  | cons w m ih =>
    have := length_clamped w
    simp only [List.flatMap_cons, List.length_append, I2cWrite.fullPayload, List.length_drop] at ih ⊢
    omega

/-- Clamping loses nothing exactly if no write is longer than a block. -/
theorem clamped_payload_eq_iff (m : List I2cWrite) :
    (m.flatMap fun w => w.clamped.drop 4) = m.flatMap I2cWrite.fullPayload ↔
      ∀ w ∈ m, w.data.length ≤ smbMaxBlockSize := by
  induction m with
  | nil => simp
  | cons w m ih =>
    have hw := length_clamped w
    have hm := length_clamped_payload m
    rw [List.flatMap_cons, List.flatMap_cons, List.forall_mem_cons, ← ih]
    constructor
    · intro e
      have hlen := congrArg List.length e
      have hshort : w.data.length ≤ smbMaxBlockSize := by
        simp only [List.length_append, I2cWrite.fullPayload, List.length_drop, smbMaxBlockSize]
          at hlen hm hw ⊢
        omega
      refine ⟨hshort, ?_⟩
      rw [I2cWrite.clamped, List.take_of_length_le hshort] at e
      exact List.append_cancel_left e
    · rintro ⟨hshort, e⟩
      rw [e, I2cWrite.clamped, List.take_of_length_le hshort]
      rfl

/-- A message that comes out after the writes `inputs` and `i` is spelled out by the last packets of
the run. As long as it fits a packet, it consists of the payloads that the clamped writes carry, and
these are the full payloads exactly if none of the writes was cut off. -/
theorem receiveWrite_delivers (inputs : List RxInput) (i : RxInput)
    (hc : (receiveWrite (receiveState protocolHdlrInit inputs) i).complete = true) :
    ∃ earlier m, packetWrites (inputs ++ [i]) = earlier ++ m ∧
      Message mctpFraming pldmMaxPayload (m.map I2cWrite.clamped) ∧
      ((m.flatMap fun w => w.clamped.drop 4).length ≤ mctpMaxPayload →
        let bytes :=
          (receiveWrite (receiveState protocolHdlrInit inputs) i).pldmOut.messageBytes
        bytes = (m.flatMap fun w => w.clamped.drop 4) ∧
        (bytes = m.flatMap I2cWrite.fullPayload ↔ ∀ w ∈ m, w.data.length ≤ smbMaxBlockSize)) := by
  have hp : i.write.IsPacket := by
    by_contra h
    rw [(receiveWrite_short _ h).1] at hc
    exact absurd hc (by simp)
  obtain ⟨-, hnone, hsome⟩ := receiveWrite_spec (receiveState_holds inputs) hp
  cases hd : delivered mctpFraming pldmMaxPayload
      (openRun mctpFraming pldmMaxPayload (framesOf inputs)) i.write.clamped with
  | none =>
    rw [(hnone hd).1] at hc
    exact absurd hc (by simp)
  | some frames =>
    obtain ⟨⟨pre, hpre⟩, hmsg⟩ := delivered_iff.1 hd
    rw [← framesOf_snoc hp, framesOf, eq_comm, List.map_eq_append_iff] at hpre
    obtain ⟨earlier, m, hsplit, -, rfl⟩ := hpre
    refine ⟨earlier, m, hsplit, hmsg, fun h64 => ?_⟩
    rw [← joined_clamped] at h64
    have hbytes := (hsome _ hd).2.1 hc h64
    rw [joined_clamped] at hbytes
    exact ⟨hbytes, by rw [hbytes]; exact clamped_payload_eq_iff m⟩

/-- Two full blocks make a message of 56 bytes. -/
theorem receiveWrite_delivers_two_blocks :
    ∃ earlier m, packetWrites ([fullBlock 0x80 0 (by decide)] ++ [fullBlock 0x50 0 (by decide)]) =
        earlier ++ m ∧
      Message mctpFraming pldmMaxPayload (m.map I2cWrite.clamped) ∧
      ((m.flatMap fun w => w.clamped.drop 4).length ≤ mctpMaxPayload →
        let bytes := (receiveWrite (receiveState protocolHdlrInit [fullBlock 0x80 0 (by decide)])
          (fullBlock 0x50 0 (by decide))).pldmOut.messageBytes
        bytes = (m.flatMap fun w => w.clamped.drop 4) ∧
        (bytes = m.flatMap I2cWrite.fullPayload ↔ ∀ w ∈ m, w.data.length ≤ smbMaxBlockSize)) :=
  receiveWrite_delivers [fullBlock 0x80 0 (by decide)] (fullBlock 0x50 0 (by decide))
    (by decide +kernel)

/-- A single-packet write of 40 bytes comes out as a message, but not with its full payload. -/
theorem truncated_block_delivered :
    let i := fullBlock 0xC0 8 (by decide)
    let rx := receiveWrite protocolHdlrInit i
    rx.complete = true ∧
      ¬ ∃ earlier m, packetWrites [i] = earlier ++ m ∧
        Message mctpFraming pldmMaxPayload (m.map I2cWrite.clamped) ∧
        rx.pldmOut.messageBytes = m.flatMap I2cWrite.fullPayload := by
  have hbytes : (receiveWrite protocolHdlrInit (fullBlock 0xC0 8 (by decide))).pldmOut.messageBytes ≠
      [(fullBlock 0xC0 8 (by decide)).write].flatMap I2cWrite.fullPayload := by decide +kernel
  refine ⟨by decide +kernel, ?_⟩
  rintro ⟨earlier, m, hsplit, hmsg, e⟩
  have hm : m ≠ [] := by
    rintro rfl
    exact hmsg.ne_nil rfl
  rw [packetWrites_single (by decide), eq_comm, List.append_eq_singleton_iff] at hsplit
  rcases hsplit with ⟨-, rfl⟩ | ⟨-, h⟩
  · exact hbytes e
  · exact hm h

end NicObFw
