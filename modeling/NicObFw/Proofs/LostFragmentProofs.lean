import NicObFw.Proofs.BmcMgrProofs
import NicObFw.Proofs.IsrProofs
import NicObFw.Proofs.MctpGrammarProofs

/-!
# Proofs: fragments lost at a full queue

The RX queue holds eight messages, and `bmc_i2c_rx_isr` drops what it does not take. What the task
reassembles is therefore built from the writes the queue took. The only protection against the gaps is
the 2-bit sequence number: a gap that the marks show is detected, and a message that is delivered from a
stretch without a hidden gap is one that was sent, whatever was lost before it (`bmcMgr_delivers_sent`).
-/

namespace NicObFw

open Memory Reassembly

/-! ## Histories -/

/-- The writes posted by `bmc_i2c_rx_isr`, each with the fact whether the queue took it. -/
def i2cPosts (tr : List FwEvent) : List (I2cWrite × Bool) :=
  tr.filterMap fun
    | .i2cRx w taken => some (w, taken)
    | _ => none

/-- The raw messages that the task received. -/
def rawsReceived (tr : List FwEvent) : List BmcRxMsg :=
  tr.filterMap fun
    | .rxReceived raw => some raw
    | _ => none

/-- The messages for which `mctp_process_rx` returned true: the packet and the reassembled bytes. -/
def messagesDelivered (tr : List FwEvent) : List (MctpPacket × List UInt8) :=
  tr.filterMap fun
    | .mctpComplete pkt reasmBytes => some (pkt, reasmBytes)
    | _ => none

/-- Events of the receive path. -/
def FwEvent.isRx : FwEvent → Bool
  | i2cRx .. => true
  | rxReceived .. => true
  | mctpComplete .. => true
  | _ => false

@[simp] theorem i2cPosts_append (tr evs : List FwEvent) :
    i2cPosts (tr ++ evs) = i2cPosts tr ++ i2cPosts evs := by
  simp [i2cPosts]

@[simp] theorem rawsReceived_append (tr evs : List FwEvent) :
    rawsReceived (tr ++ evs) = rawsReceived tr ++ rawsReceived evs := by
  simp [rawsReceived]

theorem i2cPosts_quiet {evs : List FwEvent} (h : ∀ e ∈ evs, e.isRx = false) : i2cPosts evs = [] :=
  Trace.filterMap_quiet (fun e he => by cases e <;> simp_all [FwEvent.isRx]) h

theorem rawsReceived_quiet {evs : List FwEvent} (h : ∀ e ∈ evs, e.isRx = false) :
    rawsReceived evs = [] :=
  Trace.filterMap_quiet (fun e he => by cases e <;> simp_all [FwEvent.isRx]) h

theorem FwEvent.isRx_of_isDispatch {e : FwEvent} (h : e.isDispatch = true) : e.isRx = false := by
  cases e <;> simp_all [FwEvent.isRx, FwEvent.isDispatch]

/-! ## The receive path of the machine -/

/-- A completed message consists of the last packets received, and what was received is the beginning
of what the queue took. -/
def DeliveredFrom (pre : List FwEvent) : FwEvent → Prop
  | .mctpComplete pkt reasmBytes =>
    (rawsReceived pre).map frameOf <+: (kept (i2cPosts pre)).map I2cWrite.clamped ∧
    (∀ raw ∈ rawsReceived pre, raw.length.toNat ≤ smbMaxBlockSize) ∧
    ∃ earlier m, packetsOf (rawsReceived pre) = earlier ++ m ∧
      Message mctpFraming pldmMaxPayload (m.map frameOf) ∧
      reasmBytes = joined mctpFraming (m.map frameOf) ∧
      pkt.payloadLen.toNat = reasmBytes.length ∧
      (reasmBytes.length ≤ mctpMaxPayload → load pkt.payload 0 pkt.payloadLen.toNat = reasmBytes)
  | _ => True

/-- The receive path after the trace `tr`. -/
structure RxInv (fw : Firmware) (tr : List FwEvent) : Prop where
  queued : (rawsReceived tr ++ fw.sBmcRxQueue.items).map frameOf =
    (kept (i2cPosts tr)).map I2cWrite.clamped
  size : ∀ raw ∈ rawsReceived tr ++ fw.sBmcRxQueue.items, raw.length.toNat ≤ smbMaxBlockSize
  holds : Holds fw.mctp
    (openRun mctpFraming pldmMaxPayload ((packetsOf (rawsReceived tr)).map frameOf))
  delivered : Trace.EachGiven DeliveredFrom tr

variable {cfg : TickConfig} {fw fw' : Firmware} {tr evs : List FwEvent}

theorem rxInv_init (cfg : TickConfig) (ticks : ℕ) : RxInv (firmwareInit cfg ticks) [] where
  queued := rfl
  size := by simp [rawsReceived, firmwareInit]
  holds := holds_init
  delivered := Trace.eachGiven_nil

/-- Steps off the receive path. -/
theorem RxInv.quiet (h : RxInv fw tr) (hq : fw'.sBmcRxQueue = fw.sBmcRxQueue)
    (hm : fw'.mctp = fw.mctp) (hev : ∀ e ∈ evs, e.isRx = false) : RxInv fw' (tr ++ evs) := by
  have hposts : i2cPosts (tr ++ evs) = i2cPosts tr := by simp [i2cPosts_quiet hev]
  have hraws : rawsReceived (tr ++ evs) = rawsReceived tr := by simp [rawsReceived_quiet hev]
  refine ⟨?_, ?_, ?_, Trace.eachGiven_append.2 ⟨h.delivered, ?_⟩⟩
  · rw [hposts, hraws, hq]
    exact h.queued
  · rw [hraws, hq]
    exact h.size
  · rw [hraws, hm]
    exact h.holds
  · rintro pre e post rfl
    have := hev e (by simp)
    cases e <;> first | exact trivial | simp [FwEvent.isRx] at this

/-- A post by `bmc_i2c_rx_isr`. -/
theorem RxInv.rxIsr (h : RxInv fw tr) (w : I2cWrite) (msgData : Vector UInt8 smbMaxBlockSize) :
    RxInv { fw with sBmcRxQueue := (fw.sBmcRxQueue.send (bmcI2cRxMsg msgData w).1).2 }
      (tr ++ [.i2cRx w (fw.sBmcRxQueue.send (bmcI2cRxMsg msgData w).1).1]) := by
  obtain ⟨hlen, hframe, -⟩ := bmcI2cRxMsg_spec msgData w
  have hok : DeliveredFrom tr (.i2cRx w (fw.sBmcRxQueue.send (bmcI2cRxMsg msgData w).1).1) := trivial
  have hdel := Trace.eachGiven_snoc.2 ⟨h.delivered, hok⟩
  have hraws : rawsReceived (tr ++ [.i2cRx w (fw.sBmcRxQueue.send (bmcI2cRxMsg msgData w).1).1]) =
      rawsReceived tr := by simp [rawsReceived]
  by_cases hfull : fw.sBmcRxQueue.items.length < queueDepthBmc
  · obtain ⟨htaken, hitems⟩ := FreeRtos.Queue.send_of_lt (x := (bmcI2cRxMsg msgData w).1) hfull
    have hkept : kept (i2cPosts (tr ++ [.i2cRx w true])) = kept (i2cPosts tr) ++ [w] := by
      simp [i2cPosts]
    rw [htaken] at hdel hraws ⊢
    refine ⟨?_, ?_, ?_, hdel⟩
    · rw [hraws, hkept, hitems, ← List.append_assoc, List.map_append, h.queued, List.map_append,
        List.map_singleton, List.map_singleton, hframe]
    · rw [hraws, hitems, ← List.append_assoc]
      intro raw hraw
      rcases List.mem_append.1 hraw with hraw | hraw
      · exact h.size raw hraw
      · obtain rfl := List.mem_singleton.1 hraw
        rw [hlen, length_clamped]
        exact Nat.min_le_left _ _
    · rw [hraws]
      exact h.holds
  · rw [FreeRtos.Queue.send_of_full hfull] at hdel hraws ⊢
    have hkept : kept (i2cPosts (tr ++ [.i2cRx w false])) = kept (i2cPosts tr) := by
      simp [i2cPosts]
    refine ⟨?_, ?_, ?_, hdel⟩
    · rw [hraws, hkept]
      exact h.queued
    · rw [hraws]
      exact h.size
    · rw [hraws]
      exact h.holds

/-- What `mctp_process_rx` hands out is what the abstract receiver delivers. -/
theorem deliveredFrom_of_complete (h : RxInv fw tr) {raw : BmcRxMsg} {rest : List BmcRxMsg}
    (hq : fw.sBmcRxQueue.items = raw :: rest) (pkt : MctpPacket)
    (hc : (mctpProcessRx fw.mctp raw pkt).complete = true) :
    DeliveredFrom (tr ++ [.rxReceived raw])
      (.mctpComplete (mctpProcessRx fw.mctp raw pkt).pktOut
        (load (mctpProcessRx fw.mctp raw pkt).st.sReasmBuf 0
          (mctpProcessRx fw.mctp raw pkt).pktOut.payloadLen.toNat)) := by
  have hraws : rawsReceived (tr ++ [.rxReceived raw]) = rawsReceived tr ++ [raw] := by
    simp [rawsReceived]
  have hposts : i2cPosts (tr ++ [.rxReceived raw]) = i2cPosts tr := by simp [i2cPosts]
  have hsize := h.size
  rw [hq] at hsize
  have hraw32 : raw.length.toNat ≤ smbMaxBlockSize := hsize raw (by simp)
  have h4 : 4 ≤ raw.length.toNat := by
    by_contra h4
    rw [mctpProcessRx_short (not_le.1 h4)] at hc
    exact absurd hc (by simp)
  obtain ⟨-, hnone, hsome⟩ := mctpProcessRx_spec h.holds ⟨h4, hraw32⟩ pkt
  cases hd : Reassembly.delivered mctpFraming pldmMaxPayload
      (openRun mctpFraming pldmMaxPayload ((packetsOf (rawsReceived tr)).map frameOf))
      (frameOf raw) with
  | none =>
    rw [(hnone hd).1] at hc
    exact absurd hc (by simp)
  | some frames =>
    obtain ⟨⟨pre, hpre⟩, hmsg⟩ := delivered_iff.1 hd
    have hsnoc : (packetsOf (rawsReceived tr)).map frameOf ++ [frameOf raw] =
        (packetsOf (rawsReceived tr ++ [raw])).map frameOf := by
      rw [packetsOf_snoc h4, List.map_append, List.map_singleton]
    rw [hsnoc, eq_comm, List.map_eq_append_iff] at hpre
    obtain ⟨earlier, m, hsplit, -, rfl⟩ := hpre
    obtain ⟨-, hpkt, hbuf, -⟩ := hsome _ hd
    have hlen : (mctpProcessRx fw.mctp raw pkt).pktOut.payloadLen.toNat =
        (joined mctpFraming (m.map frameOf)).length := by
      rw [hpkt]
      exact Nat.mod_eq_of_lt (lt_of_le_of_lt hmsg.fits (by decide))
    rw [DeliveredFrom, hraws, hposts, hlen, hbuf]
    refine ⟨⟨rest.map frameOf, ?_⟩, ?_, earlier, m, hsplit, hmsg, rfl, rfl, fun h64 => ?_⟩
    · rw [← h.queued, hq, ← List.map_append, List.append_assoc, List.singleton_append]
    · intro r hr
      refine hsize r ?_
      simp only [List.mem_append, List.mem_cons, List.not_mem_nil, or_false] at hr ⊢
      tauto
    · rw [hpkt]
      exact load_store_zero _ h64

/-- The task receives a raw message. -/
theorem RxInv.rx (h : RxInv fw tr) {raw : BmcRxMsg} {rest : List BmcRxMsg}
    (hq : fw.sBmcRxQueue.items = raw :: rest) (pkt : MctpPacket) {dispatched : List FwEvent}
    (hd : ∀ e ∈ dispatched, e.isDispatch = true) (hq' : fw'.sBmcRxQueue.items = rest)
    (hm : fw'.mctp = (mctpProcessRx fw.mctp raw pkt).st) :
    RxInv fw' (tr ++ .rxReceived raw :: ((if (mctpProcessRx fw.mctp raw pkt).complete then
      [FwEvent.mctpComplete (mctpProcessRx fw.mctp raw pkt).pktOut
        (load (mctpProcessRx fw.mctp raw pkt).st.sReasmBuf 0
          (mctpProcessRx fw.mctp raw pkt).pktOut.payloadLen.toNat)]
      else []) ++ dispatched)) := by
  have hquiet : ∀ e ∈ dispatched, e.isRx = false := fun e he => FwEvent.isRx_of_isDispatch (hd e he)
  have hsize := h.size
  rw [hq] at hsize
  have hraw32 : raw.length.toNat ≤ smbMaxBlockSize := hsize raw (by simp)
  -- the state after the message was received, before it is dispatched
  have hrecv : RxInv fw' (tr ++ [.rxReceived raw]) := by
    have hraws : rawsReceived (tr ++ [.rxReceived raw]) = rawsReceived tr ++ [raw] := by
      simp [rawsReceived]
    have hposts : i2cPosts (tr ++ [.rxReceived raw]) = i2cPosts tr := by simp [i2cPosts]
    refine ⟨?_, ?_, ?_, Trace.eachGiven_snoc.2 ⟨h.delivered, trivial⟩⟩
    · rw [hraws, hposts, hq', List.append_assoc, List.singleton_append, ← hq]
      exact h.queued
    · rw [hraws, hq', List.append_assoc, List.singleton_append]
      exact hsize
    · rw [hraws, hm]
      by_cases h4 : 4 ≤ raw.length.toNat
      · rw [packetsOf_snoc h4, List.map_append, List.map_singleton, openRun_snoc]
        exact (mctpProcessRx_spec h.holds ⟨h4, hraw32⟩ pkt).1
      · rw [packetsOf_snoc_short (not_le.1 h4), mctpProcessRx_short (not_le.1 h4)]
        exact h.holds
  rw [List.append_cons, ← List.append_assoc]
  suffices h' : RxInv fw' _ from h'.quiet rfl rfl hquiet
  cases hc : (mctpProcessRx fw.mctp raw pkt).complete with
  | false => simpa [hc] using hrecv
  | true =>
    rw [if_pos rfl]
    exact ⟨by simpa [rawsReceived, i2cPosts] using hrecv.queued,
      by simpa [rawsReceived] using hrecv.size, by simpa [rawsReceived] using hrecv.holds,
      Trace.eachGiven_snoc.2 ⟨hrecv.delivered, deliveredFrom_of_complete h hq pkt hc⟩⟩

/-- Every step of the machine keeps the invariant of the receive path. -/
theorem RxInv.step {a : FwAction} (h : RxInv fw tr) (hs : FwStep cfg fw a fw' evs) :
    RxInv fw' (tr ++ evs) := by
  cases hs with
  | rxIsr w msgData => exact h.rxIsr w msgData
  | rx locals raw q fq dispatched hp hq hd => exact h.rx hq locals.mctpPkt hd rfl rfl
  | _ => exact h.quiet rfl rfl (by simp [FwEvent.isRx])

theorem rxInv_of_exec {ticks : ℕ} {acts : List FwAction}
    (h : (firmware cfg).exec (firmwareInit cfg ticks) acts = some (fw, tr)) : RxInv fw tr :=
  Machine.invariant (I := RxInv) (rxInv_init cfg ticks)
    (fun _ _ _ _ _ hI hs => hI.step (firmware_step_cases hs)) h

/-! ## The sender -/

/-- The flag byte of a write. -/
def I2cWrite.flagsSeq (w : I2cWrite) : UInt8 := w.data.getD 3 0

/-- A message as its sender splits it: fragments of at most a block, the first marked `SOM`, the last
`EOM`, and sequence numbers that count modulo 4. -/
structure SentMessage (msg : List I2cWrite) : Prop where
  size : ∀ w ∈ msg, w.IsPacket ∧ w.data.length ≤ smbMaxBlockSize
  som_first : ∃ w ∈ msg.head?, isSom w.flagsSeq = true
  som_only : ∀ w ∈ msg.tail, isSom w.flagsSeq = false
  eom_only : ∀ w ∈ msg.dropLast, isEom w.flagsSeq = false
  eom_last : ∃ w ∈ msg.getLast?, isEom w.flagsSeq = true
  seq : msg.IsChain fun v w =>
    (extractSeq w.flagsSeq).toNat = ((extractSeq v.flagsSeq).toNat + 1) % 4

/-- The marks of a write, as its sender set them. -/
def i2cFraming : Framing I2cWrite UInt8 where
  som w := isSom w.flagsSeq
  eom w := isEom w.flagsSeq
  seq w := (extractSeq w.flagsSeq).toNat
  modulus := 4
  payload := I2cWrite.fullPayload

/-- A write of at most a block passes the ISR as it is. -/
theorem i2cFraming_clamped {w : I2cWrite} (h : w.data.length ≤ smbMaxBlockSize) :
    SameMarks mctpFraming i2cFraming w.clamped w := by
  rw [I2cWrite.clamped, List.take_of_length_le h]
  exact ⟨rfl, rfl, rfl, rfl⟩

theorem sentMessage_iff {msg : List I2cWrite} :
    SentMessage msg ↔
      (∀ w ∈ msg, w.IsPacket ∧ w.data.length ≤ smbMaxBlockSize) ∧ WellFormed i2cFraming msg := by
  rw [wellFormed_iff]
  exact ⟨fun h => ⟨h.size, h.som_first, h.som_only, h.eom_only, h.eom_last, h.seq⟩,
    fun ⟨h1, h2, h3, h4, h5, h6⟩ => ⟨h1, h2, h3, h4, h5, h6⟩⟩

/-- A loss inside a sent message does not show exactly if the number of lost fragments is a multiple
of four. -/
theorem SentMessage.follows_iff {l lost r : List I2cWrite} {a b : I2cWrite}
    (h : SentMessage (l ++ a :: (lost ++ b :: r))) :
    Follows i2cFraming a b ↔ 4 ∣ lost.length :=
  (sentMessage_iff.1 h).2.follows_iff_dvd

/-- A raw message with the bytes of a packet is no shorter. -/
theorem length_of_frame {raw : BmcRxMsg} {w : I2cWrite} (h : frameOf raw = w.clamped)
    (hw : w.IsPacket) : 4 ≤ raw.length.toNat := by
  have hlen := congrArg List.length h
  rw [length_clamped, frameOf, length_load] at hlen
  simp only [I2cWrite.IsPacket, smbMaxBlockSize] at hw hlen
  omega

/-- A delivered message, in terms of the writes of a sender that splits its messages properly: the
stretch of the log that holds it ends where the task has received everything. -/
theorem sent_of_deliveredFrom {pre : List FwEvent} {pkt : MctpPacket} {reasmBytes : List UInt8}
    (h : DeliveredFrom pre (.mctpComplete pkt reasmBytes))
    (hsize : ∀ w ∈ kept (i2cPosts pre), w.IsPacket ∧ w.data.length ≤ smbMaxBlockSize) :
    ∃ before stretch after, i2cPosts pre = before ++ (stretch ++ after) ∧
      (rawsReceived pre).map frameOf = (kept (before ++ stretch)).map I2cWrite.clamped ∧
      SentMessage (kept stretch) ∧ reasmBytes = (kept stretch).flatMap I2cWrite.fullPayload ∧
      pkt.payloadLen.toNat = reasmBytes.length ∧
      (reasmBytes.length ≤ mctpMaxPayload →
        load pkt.payload 0 pkt.payloadLen.toNat = reasmBytes) := by
  obtain ⟨⟨rest, hrest⟩, h32, earlier, m, hsplit, hmsg, hbytes, hlen, hload⟩ := h
  -- all writes hold a header, so no received message is ignored
  have hall : packetsOf (rawsReceived pre) = rawsReceived pre := by
    refine packetsOf_eq_self fun raw hraw => ?_
    have hframe : frameOf raw ∈ (kept (i2cPosts pre)).map I2cWrite.clamped := by
      rw [← hrest]
      exact List.mem_append_left _ (List.mem_map_of_mem hraw)
    obtain ⟨w, hw, hwf⟩ := List.mem_map.1 hframe
    exact length_of_frame hwf.symm (hsize w hw).1
  have hraws : rawsReceived pre = earlier ++ m := hall.symm.trans hsplit
  rw [hraws, List.map_append, List.append_assoc, eq_comm] at hrest
  obtain ⟨earlier', rest', hkept, hearlier, hrest'⟩ := List.map_eq_append_iff.1 hrest
  obtain ⟨msg, later, rfl, hm, -⟩ := List.map_eq_append_iff.1 hrest'
  have hmsize : ∀ w ∈ msg, w.IsPacket ∧ w.data.length ≤ smbMaxBlockSize :=
    fun w hw => hsize w (by rw [hkept]; simp [hw])
  obtain ⟨before, tail, hlog, rfl, htail⟩ := List.filterMap_eq_append_iff.1 hkept
  obtain ⟨stretch, after, rfl, rfl, -⟩ := List.filterMap_eq_append_iff.1 htail
  have hsame : ∀ w ∈ kept stretch, SameMarks mctpFraming i2cFraming w.clamped w :=
    fun w hw => i2cFraming_clamped (hmsize w hw).2
  refine ⟨before, stretch, after, hlog, ?_, sentMessage_iff.2 ⟨hmsize, ?_⟩, ?_, hlen, hload⟩
  · rw [hraws, kept_append, List.map_append, List.map_append]
    exact congrArg₂ _ hearlier.symm hm.symm
  · refine (wellFormed_map_iff (F := mctpFraming) (G := i2cFraming) rfl hsame).1 ?_
    have hm' : (kept stretch).map I2cWrite.clamped = m.map frameOf := hm
    rw [hm']
    exact ((message_iff _).1 hmsg).1
  · have hm' : m.map frameOf = (kept stretch).map I2cWrite.clamped := hm.symm
    rw [hbytes, hm', joined_map hsame]
    rfl

/-- What the BMC Manager reassembles from the writes of one sender, some of which a full queue drops.
A delivered message begins with `SOM`, ends with `EOM`, and consists of fragments that the queue took
one after the other, the last ones that the task received; and if the marks show every loss in the
stretch of the writes between its first fragment and its last, it is one of the messages sent. -/
theorem bmcMgr_delivers_sent (cfg : TickConfig) (ticks : ℕ) (msgs : List (List I2cWrite))
    (hmsgs : ∀ m ∈ msgs, SentMessage m) (acts : List FwAction) (fw : Firmware) (tr : List FwEvent)
    (hrun : (firmware cfg).exec (firmwareInit cfg ticks) acts = some (fw, tr))
    (hsent : (i2cPosts tr).map Prod.fst <+: msgs.flatten)
    (pre post : List FwEvent) (pkt : MctpPacket) (reasmBytes : List UInt8)
    (htr : tr = pre ++ .mctpComplete pkt reasmBytes :: post) :
    ∃ before stretch after, i2cPosts pre = before ++ (stretch ++ after) ∧
      (rawsReceived pre).map frameOf = (kept (before ++ stretch)).map I2cWrite.clamped ∧
      SentMessage (kept stretch) ∧ reasmBytes = (kept stretch).flatMap I2cWrite.fullPayload ∧
      pkt.payloadLen.toNat = reasmBytes.length ∧
      (reasmBytes.length ≤ mctpMaxPayload →
        load pkt.payload 0 pkt.payloadLen.toNat = reasmBytes) ∧
      (LossesShow i2cFraming stretch →
        ∃ earlier later, msgs = earlier ++ kept stretch :: later) := by
  obtain ⟨rest, hrest⟩ := hsent
  rw [htr, i2cPosts_append, List.map_append, List.append_assoc] at hrest
  -- every write posted so far is a fragment of one of the messages
  have hsize : ∀ w ∈ kept (i2cPosts pre), w.IsPacket ∧ w.data.length ≤ smbMaxBlockSize := by
    intro w hw
    obtain ⟨e, he, hew⟩ := List.mem_filterMap.1 hw
    have hmem : w ∈ msgs.flatten := by
      rw [← hrest]
      refine List.mem_append_left _ (List.mem_map.2 ⟨e, he, ?_⟩)
      by_cases hk : e.2 = true
      · simpa [hk] using hew
      · simp [hk] at hew
    obtain ⟨m, hm, hwm⟩ := List.mem_flatten.1 hmem
    exact (hmsgs m hm).size w hwm
  have hdel := (rxInv_of_exec hrun).delivered pre _ post htr
  obtain ⟨before, stretch, after, hlog, hraws, hmsg, hbytes, hlen, hload⟩ :=
    sent_of_deliveredFrom hdel hsize
  refine ⟨before, stretch, after, hlog, hraws, hmsg, hbytes, hlen, hload, fun hshow => ?_⟩
  have hwf := (sentMessage_iff.1 hmsg).2
  obtain ⟨lost, lost', hstretch⟩ := contiguous_of_chain hshow hwf.ne_nil hwf.chain
  -- the message as a block of what was sent
  have hid : ((kept stretch).map (·, true)).map Prod.fst = kept stretch := by
    rw [List.map_map]
    exact List.map_id' _
  have hblock : (before ++ lost).map Prod.fst ++ (kept stretch ++ ((lost' ++ after).map Prod.fst ++
      ((i2cPosts (.mctpComplete pkt reasmBytes :: post)).map Prod.fst ++ rest))) = msgs.flatten := by
    rw [← hrest, hlog]
    conv_rhs => rw [hstretch]
    simp only [List.map_append, hid, List.append_assoc]
  obtain ⟨ms, ms', hms, -, -⟩ :=
    block_is_message (fun m hm => (sentMessage_iff.1 (hmsgs m hm)).2) hwf hblock
  exact ⟨ms, ms', hms⟩

/-- A fragment with one payload byte. -/
def fragment (flagsSeq byte : UInt8) : I2cWrite := ⟨[1, 8, 9, flagsSeq, byte], by simp⟩

/-- A message of thirteen fragments. -/
def thirteenFragments : List I2cWrite :=
  [fragment 0x80 0, fragment 0x10 1, fragment 0x20 2, fragment 0x30 3, fragment 0x00 4,
    fragment 0x10 5, fragment 0x20 6, fragment 0x30 7, fragment 0x00 8, fragment 0x10 9,
    fragment 0x20 10, fragment 0x30 11, fragment 0x40 12]

/-- A run in which the task takes the first fragment when twelve have arrived, of which the last four
were dropped; then the last fragment arrives, and the task takes what is in the queue. -/
def lossyRun : List FwAction :=
  (thirteenFragments.take 12).map (.bmcI2cRxIsr · (Vector.replicate _ 0)) ++
    [.waitTimeout, .bmcMgrTask zeroLocals] ++
    (thirteenFragments.drop 12).map (.bmcI2cRxIsr · (Vector.replicate _ 0)) ++
    List.replicate 8 (.bmcMgrTask zeroLocals)

/-- A message of ten fragments. -/
def tenFragments : List I2cWrite :=
  [fragment 0x80 0, fragment 0x10 1, fragment 0x20 2, fragment 0x30 3, fragment 0x00 4,
    fragment 0x10 5, fragment 0x20 6, fragment 0x30 7, fragment 0x00 8, fragment 0x50 9]

/-- A message of three fragments. -/
def threeFragments : List I2cWrite := [fragment 0x80 20, fragment 0x10 21, fragment 0x60 22]

/-- After `lossyRun` two more messages arrive. The queue takes the first eight fragments of one, and the
other as a whole. -/
def lossyRunOn : List FwAction :=
  lossyRun ++ tenFragments.map (.bmcI2cRxIsr · (Vector.replicate _ 0)) ++
    List.replicate 8 (.bmcMgrTask zeroLocals) ++
    threeFragments.map (.bmcI2cRxIsr · (Vector.replicate _ 0)) ++
    List.replicate 3 (.bmcMgrTask zeroLocals)

/-- The writes of `lossyRunOn`, each with the fact whether the queue took it. -/
def lossyPosts : List (I2cWrite × Bool) :=
  (thirteenFragments ++ tenFragments ++ threeFragments).zip
    (List.replicate 8 true ++ List.replicate 4 false ++ List.replicate 9 true ++
      List.replicate 2 false ++ List.replicate 3 true)

/-- A hidden loss and one that shows come before a message that is delivered as it was sent. -/
theorem bmcMgr_delivers_sent_afterLosses :
    ∃ fw tr pre pkt post,
      (firmware ⟨10, 100⟩).exec (firmwareInit ⟨10, 100⟩ 0) lossyRunOn = some (fw, tr) ∧
      tr = pre ++ .mctpComplete pkt [20, 21, 22] :: post ∧ ¬ LossesShow i2cFraming (i2cPosts pre) ∧
      ∃ msg earlier later,
        [thirteenFragments, tenFragments, threeFragments] = earlier ++ msg :: later ∧
          [20, 21, 22] = msg.flatMap I2cWrite.fullPayload := by
  have hmsgs : ∀ m ∈ [thirteenFragments, tenFragments, threeFragments], SentMessage m := by
    simp only [List.forall_mem_cons, List.not_mem_nil, false_imp_iff, implies_true, and_true]
    refine ⟨?_, ?_, ?_⟩ <;> constructor <;> decide +kernel
  have heval : ((firmware ⟨10, 100⟩).exec (firmwareInit ⟨10, 100⟩ 0) lossyRunOn).any
      (fun r : Firmware × List FwEvent => decide (i2cPosts r.2 = lossyPosts ∧
        i2cPosts (r.2.take 48) = lossyPosts ∧ r.2 = r.2.take 48 ++ .mctpComplete
          ⟨1, 8, 9, 0x60, 3, 0, store (Vector.replicate _ 0) 0 [20, 21, 22]⟩ [20, 21, 22] ::
            r.2.drop 49)) = true := by
    decide +kernel
  obtain ⟨fw, tr, hrun, hposts, hpre, htr⟩ := Machine.exists_of_any heval
  obtain ⟨before, stretch, after, hlog, -, -, hbytes, -, -, hshow⟩ :=
    bmcMgr_delivers_sent ⟨10, 100⟩ 0 _ hmsgs lossyRunOn fw tr hrun
      (by rw [hposts]; decide +kernel) _ _ _ _ htr
  rw [hpre] at hlog
  -- the bytes tell where the stretch lies
  have hdec : ∀ i ≤ 26, ∀ j ≤ 26,
      [20, 21, 22] = (kept ((lossyPosts.drop i).take j)).flatMap I2cWrite.fullPayload →
        LossesShow i2cFraming ((lossyPosts.drop i).take j) := by
    decide +kernel
  have hlen := congrArg List.length hlog
  have hstretch : (lossyPosts.drop before.length).take stretch.length = stretch := by
    rw [hlog, List.drop_left, List.take_left]
  simp only [List.length_append, show lossyPosts.length = 26 from rfl] at hlen
  have hmarks := hdec before.length (by omega) stretch.length (by omega)
  rw [hstretch] at hmarks
  obtain ⟨earlier, later, hmem⟩ := hshow (hmarks hbytes)
  refine ⟨fw, tr, _, _, _, hrun, htr, ?_, kept stretch, earlier, later, hmem, hbytes⟩
  rw [hpre]
  decide +kernel

/-- The fragments around the gap are delivered as a message that nobody sent. -/
theorem lossyRun_delivers_gap :
    SentMessage thirteenFragments ∧
    ∃ fw tr, (firmware ⟨10, 100⟩).exec (firmwareInit ⟨10, 100⟩ 0) lossyRun = some (fw, tr) ∧
      (i2cPosts tr).map Prod.fst = thirteenFragments ∧
      ¬ ∀ d ∈ messagesDelivered tr, ∃ msg ∈ [thirteenFragments],
        d.2 = msg.flatMap I2cWrite.fullPayload := by
  refine ⟨by constructor <;> decide +kernel, _, _,
    (Option.some_get (by decide +kernel)).symm, by decide +kernel, by decide +kernel⟩

end NicObFw
