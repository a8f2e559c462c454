import NicObFw.Lib.Reassembly
import NicObFw.Mctp
import Mathlib.Tactic.SplitIfs

/-!
# Proofs: MCTP reassembly

`mctpProcessRx` implements the receiver of `Reassembly` on the byte frames of the raw messages: the
static variables hold the open run (`Holds`), and a call delivers exactly when the receiver does
(`mctpProcessRx_spec`).
-/

namespace NicObFw

open Memory Reassembly

/-- The bytes of a raw message. -/
def frameOf (raw : BmcRxMsg) : List UInt8 := load raw.data 0 raw.length.toNat

/-- How MCTP marks the fragments of a message; a fragment is the bytes of one packet, header
included. -/
def mctpFraming : Framing (List UInt8) UInt8 where
  som frame := isSom (frame.getD 3 0)
  eom frame := isEom (frame.getD 3 0)
  seq frame := (extractSeq (frame.getD 3 0)).toNat
  modulus := 4
  payload frame := frame.drop 4

/-! ## Bytes and lengths -/

theorem extractSeq_lt (f : UInt8) : (extractSeq f).toNat < 4 := by
  have h : f.toNat &&& 48 ≤ 48 := Nat.and_le_right
  have e : (extractSeq f).toNat = (f.toNat &&& 48) / 2 ^ 4 := by
    simp [extractSeq, mctpSeqMask, Nat.shiftRight_eq_div_pow]
  omega

theorem toNat_next_seq {s : UInt8} (h : s.toNat < 4) : ((s + 1) &&& 0x03).toNat = (s.toNat + 1) % 4 := by
  have hs : ∀ n < 4, (n + 1) % 256 &&& 3 = (n + 1) % 4 := by decide
  simpa using hs s.toNat h

/-- A raw message that holds a whole MCTP header and lies inside its array. -/
def BmcRxMsg.IsPacket (raw : BmcRxMsg) : Prop :=
  4 ≤ raw.length.toNat ∧ raw.length.toNat ≤ smbMaxBlockSize

instance (raw : BmcRxMsg) : Decidable raw.IsPacket := inferInstanceAs (Decidable (_ ∧ _))

theorem length_frameOf {raw : BmcRxMsg} (h : raw.IsPacket) :
    (frameOf raw).length = raw.length.toNat := by
  have := h.2
  simp only [frameOf, length_load]
  omega

theorem flags_frameOf {raw : BmcRxMsg} (h : raw.IsPacket) : (frameOf raw).getD 3 0 = raw.flagsSeq := by
  have h4 := h.1
  have hlt : 3 < (frameOf raw).length := by rw [length_frameOf h]; omega
  rw [List.getD_eq_getElem?_getD, List.getElem?_eq_getElem hlt]
  simp [frameOf, load, BmcRxMsg.flagsSeq]

theorem toNat_payloadLen {raw : BmcRxMsg} (h : raw.IsPacket) :
    (raw.length - 4).toNat = raw.length.toNat - 4 :=
  UInt16.toNat_sub_of_le raw.length 4 (by rw [UInt16.le_iff_toNat_le]; exact h.1)

theorem load_payload {raw : BmcRxMsg} (h : raw.IsPacket) :
    load raw.data 4 (raw.length - 4).toNat = mctpFraming.payload (frameOf raw) := by
  rw [toNat_payloadLen h]
  simp [mctpFraming, frameOf, load, List.drop_take]

theorem length_payload {raw : BmcRxMsg} (h : raw.IsPacket) :
    (mctpFraming.payload (frameOf raw)).length = raw.length.toNat - 4 := by
  simp [mctpFraming, length_frameOf h]

/-! ## The branches of `mctp_process_rx` -/

/-- The reassembly state after the `SOM` test. -/
def mctpEntry (st : MctpState) (flagsSeq : UInt8) : MctpState :=
  if isSom flagsSeq then
    { st with sReasmOffset := 0, sReasmActive := true, sExpectedSeq := extractSeq flagsSeq }
  else st

/-- The reassembly state after the payload of `raw` was appended. -/
def mctpAppend (st : MctpState) (raw : BmcRxMsg) : MctpState :=
  { st with
    sReasmBuf := store st.sReasmBuf st.sReasmOffset.toNat (load raw.data 4 (raw.length - 4).toNat)
    sReasmOffset := st.sReasmOffset + (raw.length - 4)
    sExpectedSeq := (st.sExpectedSeq + 1) &&& 0x03 }

/-- The packet in the state after the `SOM` test continues the message being assembled and fits. -/
def mctpAccepts (st : MctpState) (raw : BmcRxMsg) : Prop :=
  st.sReasmActive = true ∧ extractSeq raw.flagsSeq = st.sExpectedSeq ∧
    st.sReasmOffset.toNat + (raw.length - 4).toNat ≤ pldmMaxPayload

theorem mctpProcessRx_short {st : MctpState} {raw : BmcRxMsg} {pkt : MctpPacket}
    (h : raw.length.toNat < 4) : mctpProcessRx st raw pkt = ⟨false, st, pkt, []⟩ := by
  simp [mctpProcessRx, h]

theorem mctpProcessRx_idle {st : MctpState} {raw : BmcRxMsg} {pkt : MctpPacket} (h : raw.IsPacket)
    (hi : (mctpEntry st raw.flagsSeq).sReasmActive = false) :
    mctpProcessRx st raw pkt = ⟨false, mctpEntry st raw.flagsSeq, pkt, [⟨.rawData, 0, 4⟩]⟩ := by
  have h4 : ¬ raw.length.toNat < 4 := not_lt.2 h.1
  simp only [mctpEntry] at hi
  simp [mctpProcessRx, mctpEntry, h4, hi]

theorem mctpProcessRx_reject {st : MctpState} {raw : BmcRxMsg} {pkt : MctpPacket} (h : raw.IsPacket)
    (ha : (mctpEntry st raw.flagsSeq).sReasmActive = true)
    (hr : ¬ mctpAccepts (mctpEntry st raw.flagsSeq) raw) :
    mctpProcessRx st raw pkt =
      ⟨false, mctpReset (mctpEntry st raw.flagsSeq), pkt, [⟨.rawData, 0, 4⟩]⟩ := by
  have h4 : ¬ raw.length.toNat < 4 := not_lt.2 h.1
  simp only [mctpAccepts, ha, true_and, not_and, not_le] at hr
  simp only [mctpEntry] at ha hr
  by_cases hs : extractSeq raw.flagsSeq = (mctpEntry st raw.flagsSeq).sExpectedSeq
  · have hov := hr hs
    simp only [mctpEntry] at hs
    simp [mctpProcessRx, mctpEntry, h4, ha, ← hs, hov]
  · simp only [mctpEntry] at hs
    simp [mctpProcessRx, mctpEntry, h4, ha, hs]

/-- The accesses made to append the payload of `raw`. -/
def appendAccesses (st : MctpState) (raw : BmcRxMsg) : List RxAccess :=
  [⟨.rawData, 0, 4⟩, ⟨.rawData, 4, (raw.length - 4).toNat⟩,
    ⟨.reasmBuf, st.sReasmOffset.toNat, (raw.length - 4).toNat⟩]

theorem mctpProcessRx_more {st : MctpState} {raw : BmcRxMsg} {pkt : MctpPacket} (h : raw.IsPacket)
    (ha : mctpAccepts (mctpEntry st raw.flagsSeq) raw) (he : isEom raw.flagsSeq = false) :
    mctpProcessRx st raw pkt =
      ⟨false, mctpAppend (mctpEntry st raw.flagsSeq) raw, pkt,
        appendAccesses (mctpEntry st raw.flagsSeq) raw⟩ := by
  have h4 : ¬ raw.length.toNat < 4 := not_lt.2 h.1
  obtain ⟨hact, hseq, hfit⟩ := ha
  simp only [mctpEntry] at hact hseq hfit
  have hfit' := not_lt.2 hfit
  simp only [pldmMaxPayload] at hfit'
  simp [mctpProcessRx, mctpEntry, mctpAppend, appendAccesses, h4, hact, ← hseq, hfit', he]

theorem mctpProcessRx_last {st : MctpState} {raw : BmcRxMsg} {pkt : MctpPacket} (h : raw.IsPacket)
    (ha : mctpAccepts (mctpEntry st raw.flagsSeq) raw) (he : isEom raw.flagsSeq = true) :
    mctpProcessRx st raw pkt =
      let st' := mctpAppend (mctpEntry st raw.flagsSeq) raw
      ⟨true, { st' with sReasmActive := false, sReasmOffset := 0 },
        { hdrVersion := raw.hdrVer, destEid := raw.destEid, srcEid := raw.srcEid
          flagsSeq := raw.flagsSeq, payloadLen := st'.sReasmOffset, reserved := 0
          payload := store pkt.payload 0 (load st'.sReasmBuf 0 st'.sReasmOffset.toNat) },
        appendAccesses (mctpEntry st raw.flagsSeq) raw ++
          [⟨.reasmBuf, 0, st'.sReasmOffset.toNat⟩, ⟨.pktPayload, 0, st'.sReasmOffset.toNat⟩]⟩ := by
  have h4 : ¬ raw.length.toNat < 4 := not_lt.2 h.1
  obtain ⟨hact, hseq, hfit⟩ := ha
  simp only [mctpEntry] at hact hseq hfit
  have hfit' := not_lt.2 hfit
  simp only [pldmMaxPayload] at hfit'
  simp [mctpProcessRx, mctpEntry, mctpAppend, appendAccesses, h4, hact, ← hseq, hfit', he]

/-! ## The static variables hold the open run -/

/-- The static variables of `mctp.c` hold the open run `run`. -/
structure Holds (st : MctpState) (run : List (List UInt8)) : Prop where
  active : st.sReasmActive = true ↔ run ≠ []
  offset : st.sReasmOffset.toNat = (joined mctpFraming run).length
  fits : (joined mctpFraming run).length ≤ pldmMaxPayload
  buf : load st.sReasmBuf 0 (joined mctpFraming run).length = joined mctpFraming run
  seq : ∀ z ∈ run.getLast?, st.sExpectedSeq.toNat = (mctpFraming.seq z + 1) % 4

theorem holds_init : Holds mctpInit [] := by
  constructor <;> simp [mctpInit]

theorem holds_nil {st : MctpState} (ha : st.sReasmActive = false) (ho : st.sReasmOffset = 0) :
    Holds st [] := by
  constructor <;> simp [ha, ho]

/-- The run that the packet extends: a `SOM` packet starts afresh. -/
def entryRun (run : List (List UInt8)) (raw : BmcRxMsg) : List (List UInt8) :=
  if isSom raw.flagsSeq then [] else run

/-- After the `SOM` test the state is set for the packet to extend `entryRun`. -/
theorem Holds.entry {st : MctpState} {run : List (List UInt8)} (h : Holds st run) (raw : BmcRxMsg) :
    let st' := mctpEntry st raw.flagsSeq
    st'.sReasmBuf = st.sReasmBuf ∧
    (st'.sReasmActive = true ↔ isSom raw.flagsSeq = true ∨ run ≠ []) ∧
    st'.sReasmOffset.toNat = (joined mctpFraming (entryRun run raw)).length ∧
    (isSom raw.flagsSeq = true → st'.sExpectedSeq = extractSeq raw.flagsSeq) ∧
    (isSom raw.flagsSeq = false → st' = st) := by
  cases hs : isSom raw.flagsSeq with
  | true => simp [mctpEntry, entryRun, hs]
  | false =>
    refine ⟨by simp [mctpEntry, hs], ?_, ?_, by simp, by simp [mctpEntry, hs]⟩
    · simpa [mctpEntry, hs] using h.active
    · simpa [mctpEntry, entryRun, hs] using h.offset

theorem som_frameOf {raw : BmcRxMsg} (h : raw.IsPacket) :
    mctpFraming.som (frameOf raw) = isSom raw.flagsSeq := by
  simp [mctpFraming, ← flags_frameOf h]

theorem eom_frameOf {raw : BmcRxMsg} (h : raw.IsPacket) :
    mctpFraming.eom (frameOf raw) = isEom raw.flagsSeq := by
  simp [mctpFraming, ← flags_frameOf h]

theorem seq_frameOf {raw : BmcRxMsg} (h : raw.IsPacket) :
    mctpFraming.seq (frameOf raw) = (extractSeq raw.flagsSeq).toNat := by
  simp [mctpFraming, ← flags_frameOf h]

/-- The code appends a packet whenever the abstract receiver extends its run by it, -/
theorem Holds.accept_of_accepts {st : MctpState} {run : List (List UInt8)} {raw : BmcRxMsg}
    (h : Holds st run) (hp : raw.IsPacket) (ha : mctpAccepts (mctpEntry st raw.flagsSeq) raw) :
    accept mctpFraming pldmMaxPayload run (frameOf raw) = entryRun run raw ++ [frameOf raw] := by
  obtain ⟨hact, hseq, hfit⟩ := ha
  obtain ⟨-, hact', hoff, -, hst⟩ := h.entry raw
  have hlen : (joined mctpFraming (entryRun run raw ++ [frameOf raw])).length ≤ pldmMaxPayload := by
    rw [joined_append, List.length_append, ← hoff, joined_singleton, length_payload hp,
      ← toNat_payloadLen hp]
    exact hfit
  cases hs : isSom raw.flagsSeq with
  | true =>
    simp only [entryRun, hs, if_true, List.nil_append] at hlen ⊢
    exact accept_som (by rw [som_frameOf hp, hs]) hlen
  | false =>
    simp only [entryRun, hs, Bool.false_eq_true, if_false] at hlen ⊢
    have hne : run ≠ [] := by simpa [hs] using hact'.1 hact
    obtain ⟨z, hz⟩ : ∃ z, z ∈ run.getLast? := ⟨_, List.getLast?_eq_some_getLast hne⟩
    refine accept_next hz (by rw [som_frameOf hp, hs]) ?_ hlen
    rw [seq_frameOf hp, hseq, hst hs]
    exact h.seq z hz

/-- and drops its run otherwise. -/
theorem Holds.accept_of_not_accepts {st : MctpState} {run : List (List UInt8)} {raw : BmcRxMsg}
    (h : Holds st run) (hp : raw.IsPacket) (ha : ¬ mctpAccepts (mctpEntry st raw.flagsSeq) raw) :
    accept mctpFraming pldmMaxPayload run (frameOf raw) = [] := by
  obtain ⟨-, hact', hoff, hseq', hst⟩ := h.entry raw
  have hfit : ∀ r, entryRun run raw = r →
      (joined mctpFraming (r ++ [frameOf raw])).length ≤ pldmMaxPayload →
      (mctpEntry st raw.flagsSeq).sReasmOffset.toNat + (raw.length - 4).toNat ≤ pldmMaxPayload := by
    rintro r rfl hle
    rwa [joined_append, List.length_append, ← hoff, joined_singleton, length_payload hp,
      ← toNat_payloadLen hp] at hle
  rcases accept_cases mctpFraming pldmMaxPayload run (frameOf raw) with
    h0 | ⟨hs, hle, -⟩ | ⟨hs, ⟨a, ha', hq⟩, hle, -⟩
  · exact h0
  · rw [som_frameOf hp] at hs
    exact absurd ⟨hact'.2 (Or.inl hs), (hseq' hs).symm, hfit [] (by simp [entryRun, hs]) hle⟩ ha
  · rw [som_frameOf hp] at hs
    have hne : run ≠ [] := by rintro rfl; simp at ha'
    refine absurd ⟨hact'.2 (Or.inr hne), ?_, hfit run (by simp [entryRun, hs]) hle⟩ ha
    rw [seq_frameOf hp] at hq
    rw [hst hs, ← UInt8.toNat_inj, hq]
    exact (h.seq a ha').symm

/-- Appending the payload of an accepted packet extends the run that the state holds. -/
theorem Holds.append {st : MctpState} {run : List (List UInt8)} {raw : BmcRxMsg}
    (h : Holds st run) (hp : raw.IsPacket) (ha : mctpAccepts (mctpEntry st raw.flagsSeq) raw) :
    Holds (mctpAppend (mctpEntry st raw.flagsSeq) raw) (entryRun run raw ++ [frameOf raw]) := by
  obtain ⟨hact, hseq, hfit⟩ := ha
  obtain ⟨hbuf, -, hoff, -, hst⟩ := h.entry raw
  have hlen : (raw.length - 4).toNat = (mctpFraming.payload (frameOf raw)).length := by
    rw [toNat_payloadLen hp, length_payload hp]
  have hj : (joined mctpFraming (entryRun run raw ++ [frameOf raw])).length =
      (mctpEntry st raw.flagsSeq).sReasmOffset.toNat + (raw.length - 4).toNat := by
    rw [joined_append, List.length_append, ← hoff, joined_singleton, hlen]
  have hold : load st.sReasmBuf 0 (joined mctpFraming (entryRun run raw)).length =
      joined mctpFraming (entryRun run raw) := by
    unfold entryRun
    split
    · simp
    · exact h.buf
  refine ⟨by simp [mctpAppend, hact], ?_, by rw [hj]; exact hfit, ?_, ?_⟩
  · rw [hj]
    simp only [mctpAppend, UInt16.toNat_add]
    refine Nat.mod_eq_of_lt ?_
    simp only [pldmMaxPayload] at hfit
    omega
  · rw [hj]
    simp only [mctpAppend, hbuf]
    rw [load_payload hp, hlen, load_store_append _ (by rw [← hlen]; exact hfit), hoff, hold,
      joined_append, joined_singleton]
  · intro z hz
    obtain rfl : frameOf raw = z := by simpa using hz
    simp only [mctpAppend]
    rw [← hseq, toNat_next_seq (extractSeq_lt _), seq_frameOf hp]

/-- The packet handed out when `raw` completes a message with the payload `bytes`: the header is that
of the last packet. -/
def completedPacket (raw : BmcRxMsg) (bytes : List UInt8) (pkt : MctpPacket) : MctpPacket where
  hdrVersion := raw.hdrVer
  destEid := raw.destEid
  srcEid := raw.srcEid
  flagsSeq := raw.flagsSeq
  payloadLen := UInt16.ofNat bytes.length
  reserved := 0
  payload := store pkt.payload 0 bytes

theorem accesses_append_inBounds {st : MctpState} {raw : BmcRxMsg} (hp : raw.IsPacket)
    (ha : mctpAccepts st raw) : AllInBounds RxArray.size (appendAccesses st raw) := by
  have h32 := hp.2
  have h4 := hp.1
  have hlen := toNat_payloadLen hp
  have hfit := ha.2.2
  simp only [appendAccesses, allInBounds_cons, allInBounds_nil, RxArray.size, and_true,
    smbMaxBlockSize, pldmMaxPayload] at hfit h32 ⊢
  omega

/-- One packet, in a state that holds the open run `run`: the state follows the abstract receiver,
the packet is handed out exactly when the receiver delivers, the delivered payload being in the
reassembly buffer, and the accesses stay inside their arrays exactly when it fits the packet. -/
theorem mctpProcessRx_spec {st : MctpState} {run : List (List UInt8)} {raw : BmcRxMsg}
    (h : Holds st run) (hp : raw.IsPacket) (pkt : MctpPacket) :
    let rx := mctpProcessRx st raw pkt
    Holds rx.st (step mctpFraming pldmMaxPayload run (frameOf raw)) ∧
    (delivered mctpFraming pldmMaxPayload run (frameOf raw) = none →
      rx.complete = false ∧ rx.pktOut = pkt ∧ AllInBounds RxArray.size rx.accesses) ∧
    (∀ m, delivered mctpFraming pldmMaxPayload run (frameOf raw) = some m →
      rx.complete = true ∧ rx.pktOut = completedPacket raw (joined mctpFraming m) pkt ∧
      load rx.st.sReasmBuf 0 (joined mctpFraming m).length = joined mctpFraming m ∧
      (AllInBounds RxArray.size rx.accesses ↔ (joined mctpFraming m).length ≤ mctpMaxPayload)) := by
  have heom := eom_frameOf hp
  by_cases ha : mctpAccepts (mctpEntry st raw.flagsSeq) raw
  · have hacc := h.accept_of_accepts hp ha
    have happ := h.append hp ha
    have hin := accesses_append_inBounds hp ha
    cases he : isEom raw.flagsSeq with
    | false =>
      rw [mctpProcessRx_more hp ha he, step, delivered, heom, he, hacc]
      exact ⟨by simpa using happ, fun _ => ⟨rfl, rfl, hin⟩, by simp⟩
    | true =>
      rw [mctpProcessRx_last hp ha he, step, delivered, heom, he, hacc]
      refine ⟨holds_nil rfl rfl, by simp, ?_⟩
      intro m hm
      obtain rfl : entryRun run raw ++ [frameOf raw] = m := by simpa using hm
      refine ⟨rfl, ?_, happ.buf, ?_⟩
      · have hoff := happ.offset
        simp only [completedPacket, hoff, happ.buf, MctpPacket.mk.injEq, true_and, and_true]
        rw [← hoff, UInt16.ofNat_toNat]
      · have hfit := happ.fits
        simp only [allInBounds_append, hin, happ.offset, allInBounds_cons, allInBounds_nil,
          RxArray.size, and_true, true_and, pldmMaxPayload, mctpMaxPayload] at hfit ⊢
        omega
  · have hacc := h.accept_of_not_accepts hp ha
    have hhdr : AllInBounds RxArray.size [⟨.rawData, 0, 4⟩] := by
      simp [RxArray.size]
    rw [step, delivered, hacc]
    simp only [ite_self, ne_eq, not_true_eq_false, and_false, if_false, forall_const]
    cases hact : (mctpEntry st raw.flagsSeq).sReasmActive with
    | false =>
      rw [mctpProcessRx_idle hp hact]
      refine ⟨?_, ⟨rfl, rfl, hhdr⟩, by simp⟩
      -- an inactive state has no open run, and its offset is that of the empty run
      obtain ⟨-, hact', hoff, -, -⟩ := h.entry raw
      rw [hact] at hact'
      have hrun : entryRun run raw = [] := by
        unfold entryRun
        split
        · rfl
        · by_contra hne
          exact absurd (hact'.2 (Or.inr hne)) (by simp)
      rw [hrun] at hoff
      exact holds_nil hact (UInt16.toNat_inj.1 hoff)
    | true =>
      rw [mctpProcessRx_reject hp hact ha]
      exact ⟨holds_nil rfl rfl, ⟨rfl, rfl, hhdr⟩, by simp⟩

end NicObFw
