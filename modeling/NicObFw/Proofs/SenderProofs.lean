import NicObFw.Proofs.MctpGrammarProofs

/-!
# Proofs: several senders

`mctp.c` has one reassembly context, and looks neither at the source EID nor at the message tag of a
packet. Which fragments end up in one message is decided by their marks alone, so the fragments of
different senders are told apart only as far as the marks do it.
-/

namespace NicObFw

open Memory Reassembly

def BmcRxMsg.msgTag (raw : BmcRxMsg) : UInt8 := raw.flagsSeq &&& mctpTagMask

/-- A message as a sender splits it, all of its packets carrying the given source EID and tag. -/
structure SenderMessage (srcEid msgTag : UInt8) (msg : List BmcRxMsg) : Prop where
  packets : ∀ p ∈ msg, p.IsPacket
  wellFormed : WellFormed rawFraming msg
  srcEid_eq : ∀ p ∈ msg, p.srcEid = srcEid
  msgTag_eq : ∀ p ∈ msg, p.msgTag = msgTag

instance (srcEid msgTag : UInt8) (msg : List BmcRxMsg) : Decidable (SenderMessage srcEid msgTag msg) :=
  decidable_of_iff ((∀ p ∈ msg, p.IsPacket) ∧ WellFormed rawFraming msg ∧
      (∀ p ∈ msg, p.srcEid = srcEid) ∧ ∀ p ∈ msg, p.msgTag = msgTag)
    ⟨fun ⟨hpk, hwf, hsrc, htag⟩ => ⟨hpk, hwf, hsrc, htag⟩,
      fun h => ⟨h.packets, h.wellFormed, h.srcEid_eq, h.msgTag_eq⟩⟩

section Senders

variable {ι : Type*} [DecidableEq ι]

/-- A packet of a merged stream is one of the messages of its sender. -/
theorem mem_of_streamOf {msgs : ι → List (List BmcRxMsg)} {merged : List (ι × BmcRxMsg)}
    (hmerged : ∀ s, streamOf s merged <+: (msgs s).flatten) {e : ι × BmcRxMsg} (he : e ∈ merged) :
    ∃ m ∈ msgs e.1, e.2 ∈ m := by
  have hmem : e.2 ∈ streamOf e.1 merged := List.mem_filterMap.2 ⟨e, he, by simp⟩
  exact List.mem_flatten.1 ((hmerged e.1).subset hmem)

/-- What `mctp_process_rx` hands out when the fragments of several senders arrive merged in any way.
The message consists of the last fragments received, whoever sent them, with the payloads of all and the
source EID of the last one. If none of these fragments was directly followed by one of another sender
that continues it, all of them carry that source EID and the same tag, and they are one of the messages
of their sender; where senders differ in source EID or tag, they all carry the same only in this case. -/
theorem mctpProcessRx_senders (msgs : ι → List (List BmcRxMsg)) (srcEid msgTag : ι → UInt8)
    (hmsgs : ∀ s, ∀ m ∈ msgs s, SenderMessage (srcEid s) (msgTag s) m)
    (calls : List (ι × BmcRxMsg × MctpPacket)) (last : ι × BmcRxMsg) (pkt : MctpPacket)
    (hmerged : ∀ s, streamOf s (calls.map (fun c => (c.1, c.2.1)) ++ [last]) <+: (msgs s).flatten)
    (hc : (mctpProcessRx (mctpRun mctpInit (calls.map Prod.snd)) last.2 pkt).complete = true) :
    let pktOut := (mctpProcessRx (mctpRun mctpInit (calls.map Prod.snd)) last.2 pkt).pktOut
    ∃ earlier run, calls.map (fun c => (c.1, c.2.1)) ++ [last] = earlier ++ run ∧
      FragmentRun (run.map Prod.snd) ∧
      pktOut = completedPacket last.2 (joined mctpFraming ((run.map Prod.snd).map frameOf)) pkt ∧
      pktOut.srcEid = last.2.srcEid ∧
      (NoCrossing rawFraming run →
        (∀ e ∈ run, e.2.srcEid = pktOut.srcEid ∧ e.2.msgTag = last.2.msgTag) ∧
        ∃ s, run.map Prod.snd ∈ msgs s) ∧
      ((∀ s s', srcEid s = srcEid s' → msgTag s = msgTag s' → s = s') →
        (∀ e ∈ run, e.2.srcEid = pktOut.srcEid ∧ e.2.msgTag = last.2.msgTag) →
        NoCrossing rawFraming run) := by
  intro pktOut
  have hpk : ∀ e ∈ calls.map (fun c => (c.1, c.2.1)) ++ [last], e.2.IsPacket := by
    intro e he
    obtain ⟨m, hm, hem⟩ := mem_of_streamOf hmerged he
    exact (hmsgs e.1 m hm).packets e.2 hem
  have hlast : last.2.IsPacket := hpk last (by simp)
  have h32 : ∀ c ∈ calls.map Prod.snd, c.1.length.toNat ≤ smbMaxBlockSize := by
    intro c hc
    obtain ⟨d, hd, rfl⟩ := List.mem_map.1 hc
    exact (hpk (d.1, d.2.1) (List.mem_append_left _ (List.mem_map.2 ⟨d, hd, rfl⟩))).2
  obtain ⟨earlier', msg, hsplit, hrun, hout⟩ := mctpRun_complete h32 hlast hc
  -- no packet is ignored, so the run is a block of the merged stream
  have hraws : (calls.map Prod.snd).map Prod.fst ++ [last.2] =
      (calls.map (fun c => (c.1, c.2.1)) ++ [last]).map Prod.snd := by simp
  have hall : packetsOf ((calls.map (fun c => (c.1, c.2.1)) ++ [last]).map Prod.snd) =
      (calls.map (fun c => (c.1, c.2.1)) ++ [last]).map Prod.snd := by
    refine packetsOf_eq_self fun p hp => ?_
    obtain ⟨e, he, rfl⟩ := List.mem_map.1 hp
    exact (hpk e he).1
  rw [hraws, hall] at hsplit
  obtain ⟨earlier, run, hblock, -, rfl⟩ := List.map_eq_append_iff.1 hsplit
  have hpkt : pktOut.srcEid = last.2.srcEid := by
    have := congrArg MctpPacket.srcEid hout
    exact this
  -- a packet of the run carries the source EID and the tag of its sender
  have hmarks : ∀ e ∈ run, e.2.srcEid = srcEid e.1 ∧ e.2.msgTag = msgTag e.1 := by
    intro e he
    obtain ⟨m, hm, hem⟩ := mem_of_streamOf hmerged (hblock ▸ List.mem_append_right earlier he)
    exact ⟨(hmsgs e.1 m hm).srcEid_eq e.2 hem, (hmsgs e.1 m hm).msgTag_eq e.2 hem⟩
  refine ⟨earlier, run, hblock, hrun, hout, hpkt, fun hcross => ?_, fun hinj hsame => ?_⟩
  · have hpkrun : ∀ p ∈ run.map Prod.snd, p.IsPacket := by
      intro p hp
      obtain ⟨e, he, rfl⟩ := List.mem_map.1 hp
      exact hpk e (by rw [hblock]; exact List.mem_append_right _ he)
    have hwf := ((message_iff _).1 ((fragmentRun_iff hpkrun).1 hrun)).1
    obtain ⟨s, hone, hmem⟩ :=
      block_of_sender (fun s m hm => (hmsgs s m hm).wellFormed) hmerged hblock hcross hwf
    -- the last packet is in the run, so the run speaks for its sender
    have hlastmem : last ∈ run := by
      have hne : run ≠ [] := by
        rintro rfl
        exact hwf.ne_nil rfl
      have hl := congrArg List.getLast? hblock
      rw [List.getLast?_append_of_ne_nil _ hne] at hl
      exact List.mem_of_getLast? (by simpa using hl.symm)
    obtain ⟨heid, htag⟩ := hmarks last hlastmem
    refine ⟨fun e he => ⟨?_, ?_⟩, s, hmem⟩
    · rw [hpkt, heid, (hmarks e he).1, hone e he, hone last hlastmem]
    · rw [htag, (hmarks e he).2, hone e he, hone last hlastmem]
  · refine noCrossing_of_single fun e he f hf => hinj _ _ ?_ ?_
    · rw [← (hmarks e he).1, ← (hmarks f hf).1, (hsame e he).1, (hsame f hf).1]
    · rw [← (hmarks e he).2, ← (hmarks f hf).2, (hsame e he).2, (hsame f hf).2]

end Senders

/-- Two senders: two messages of two packets from EID 9, one from EID 10. -/
def twoSenders : Bool → List (List BmcRxMsg)
  | false => [[bytePacket 9 0x80 1, bytePacket 9 0x50 2], [bytePacket 9 0x80 5, bytePacket 9 0x50 6]]
  | true => [[bytePacket 10 0x80 3, bytePacket 10 0x50 4]]

theorem twoSenders_messages (s : Bool) :
    ∀ m ∈ twoSenders s, SenderMessage (if s then 10 else 9) 0 m := by
  cases s with
  | false => decide +kernel
  | true => decide +kernel

/-- The first messages of the two cross; the second message of EID 9 comes out as it was sent. -/
theorem mctpProcessRx_senders_afterCrossing :
    let noPkt : MctpPacket := ⟨0, 0, 0, 0, 0, 0, Vector.replicate _ 0⟩
    let before : List (Bool × BmcRxMsg) :=
      [(false, bytePacket 9 0x80 1), (true, bytePacket 10 0x80 3), (false, bytePacket 9 0x50 2),
        (true, bytePacket 10 0x50 4), (false, bytePacket 9 0x80 5)]
    let merged := before ++ [(false, bytePacket 9 0x50 6)]
    let rx := mctpProcessRx (mctpRun mctpInit (before.map fun e => (e.2, noPkt)))
      (bytePacket 9 0x50 6) noPkt
    ¬ NoCrossing rawFraming merged ∧
      ∃ earlier run, merged = earlier ++ run ∧ FragmentRun (run.map Prod.snd) ∧
        (∀ e ∈ run, e.2.srcEid = rx.pktOut.srcEid) ∧ ∃ s, run.map Prod.snd ∈ twoSenders s := by
  intro noPkt before merged rx
  obtain ⟨earlier, run, hsplit, hrun, -, -, h, -⟩ :=
    mctpProcessRx_senders twoSenders (fun s => if s then 10 else 9) (fun _ => 0)
      twoSenders_messages (before.map fun e => (e.1, e.2, noPkt)) (false, bytePacket 9 0x50 6) noPkt
      (by decide +kernel) (by decide +kernel)
  -- the other ends of the stream with `SOM` at the head alone are too short for a crossing
  have hdec : ∀ i ≤ 6, (∀ p ∈ ((merged.drop i).map Prod.snd).tail, isSom p.flagsSeq = false) →
      NoCrossing rawFraming (merged.drop i) := by
    decide +kernel
  have hmerged : merged = earlier ++ run := hsplit
  have hlen : earlier.length ≤ 6 := by
    have hsix : 6 = (earlier ++ run).length := congrArg List.length hmerged
    rw [List.length_append] at hsix
    omega
  have hcross := hdec earlier.length hlen
  rw [hmerged, List.drop_left] at hcross
  obtain ⟨hsame, hmem⟩ := h (hcross hrun.som_only)
  exact ⟨by decide +kernel, earlier, run, hmerged, hrun, fun e he => (hsame e he).1, hmem⟩

/-- The first packet of EID 10 is followed by the last packet of EID 9, which continues it: the two
come out as one message of EID 9. -/
theorem mctpProcessRx_mixes_senders :
    let noPkt : MctpPacket := ⟨0, 0, 0, 0, 0, 0, Vector.replicate _ 0⟩
    let a₁ := bytePacket 9 0x80 1
    let b₁ := bytePacket 10 0x80 3
    let a₂ := bytePacket 9 0x50 2
    let rx := mctpProcessRx (mctpRun mctpInit [(a₁, noPkt), (b₁, noPkt)]) a₂ noPkt
    SenderMessage 9 0 [a₁, a₂] ∧ SenderMessage 10 0 [b₁, bytePacket 10 0x50 4] ∧
      rx.complete = true ∧
      ∀ earlier run, [a₁, b₁, a₂] = earlier ++ run → FragmentRun run →
        ¬ ∀ p ∈ run, p.srcEid = rx.pktOut.srcEid := by
  intro noPkt a₁ b₁ a₂ rx
  have hb : b₁.srcEid ≠ rx.pktOut.srcEid := by decide +kernel
  refine ⟨by decide +kernel, by decide +kernel, by decide +kernel, ?_⟩
  intro earlier run hsplit hrun hall
  -- a run without the packet of EID 10 does not begin with `SOM`
  have hfirst := hrun.som_first
  match earlier, hsplit with
  | [], h =>
    obtain rfl : [a₁, b₁, a₂] = run := h
    exact hb (hall b₁ (by simp))
  | [_], h =>
    obtain rfl : [b₁, a₂] = run := (List.cons.inj h).2
    exact hb (hall b₁ (by simp))
  | [_, _], h =>
    obtain rfl : [a₂] = run := (List.cons.inj (List.cons.inj h).2).2
    exact absurd hfirst (by decide +kernel)
  | _ :: _ :: _ :: rest, h =>
    have hnil : [] = rest ++ run := (List.cons.inj (List.cons.inj (List.cons.inj h).2).2).2
    obtain rfl : run = [] := (List.append_eq_nil_iff.1 hnil.symm).2
    exact absurd hfirst (by simp)

end NicObFw
