import Mathlib.Data.List.Infix
import NicObFw.Proofs.BmcProgressProofs

/-!
# Proofs: a BMC that waits for its answers

A BMC that starts no request before the one before it has been answered is always served: no write is
dropped, and its requests are answered one by one, in their order (`bmcMgr_servesRequests`).
-/

namespace NicObFw

open Reassembly

/-! ## The requests, and their answers -/

/-- A request: a message that fits a packet, in no more fragments than the RX queue holds. -/
structure Request (msg : List I2cWrite) : Prop extends SentMessage msg where
  queue : msg.length ≤ queueDepthBmc
  header : 3 ≤ (msg.flatMap I2cWrite.fullPayload).length
  fits : (msg.flatMap I2cWrite.fullPayload).length ≤ mctpMaxPayload

/-- The BMC sends the fragments of its requests in their order, and none of a request before all
requests before it have been answered. -/
def WaitsForAnswers (requests : List (List I2cWrite)) (pre : List FwEvent) (e : FwEvent) : Prop :=
  (i2cPosts (pre ++ [e])).map Prod.fst <+: (requests.take ((framesSent pre).length + 1)).flatten

instance (requests : List (List I2cWrite)) (pre : List FwEvent) (e : FwEvent) :
    Decidable (WaitsForAnswers requests pre e) :=
  inferInstanceAs (Decidable (_ <+: _))

/-- The messages that a step from the state `fw` has completed, each with the answer that is due for
it. -/
def answersGiven (fw : Firmware) (_ : FwAction) (evs : List FwEvent) :
    List (List UInt8 × List UInt8) :=
  evs.filterMap fun
    | .mctpComplete _ message =>
      some (message, answerBytes message (answerTo fw.sCache (hasRoom fw.sFlashCmdQueue) message))
    | _ => none

variable {cfg : TickConfig} {requests : List (List I2cWrite)} {fw fw' : Firmware}
  {tr evs : List FwEvent} {a : FwAction}

theorem answersGiven_append (fw : Firmware) (a : FwAction) (evs evs' : List FwEvent) :
    answersGiven fw a (evs ++ evs') = answersGiven fw a evs ++ answersGiven fw a evs' := by
  simp [answersGiven]

theorem answersGiven_quiet (fw : Firmware) (a : FwAction) (h : ∀ e ∈ evs, e.isRequest = false) :
    answersGiven fw a evs = [] :=
  Trace.filterMap_quiet (fun e he => by cases e <;> simp_all [FwEvent.isRequest]) h

theorem kept_taken {φ : Type*} (l : List φ) : kept (l.map fun w => (w, true)) = l := by
  induction l with
  | nil => rfl
  | cons w l ih => rw [List.map_cons, kept_cons_true, ih]

/-! ## The invariant -/

/-- The requests that are answered, `done`, with what has arrived of the next one: the fragments `part`
that were received, and `waiting`, which are in the queue. -/
structure Serves (requests : List (List I2cWrite)) (fw : Firmware) (tr : List FwEvent)
    (answered : List (List UInt8 × List UInt8)) (done todo : List (List I2cWrite))
    (part waiting : List I2cWrite) : Prop where
  rx : RxInv fw tr
  count : fw.sCache.count = 2
  frames : (framesSent tr).map (List.drop 4) = answered.map Prod.snd
  requests : requests = done ++ todo
  answers : answered.map Prod.fst = done.map fun msg => msg.flatMap I2cWrite.fullPayload
  posts : i2cPosts tr = (done.flatten ++ (part ++ waiting)).map fun w => (w, true)
  received : (rawsReceived tr).length = (done.flatten ++ part).length
  next : part ++ waiting <+: (todo.take 1).flatten
  unfinished : ∀ msg ∈ todo.head?, part ≠ msg

section Serves

variable {answered : List (List UInt8 × List UInt8)} {done todo : List (List I2cWrite)}
  {part waiting : List I2cWrite}

theorem Serves.length_done (h : Serves requests fw tr answered done todo part waiting) :
    done.length = answered.length ∧ (framesSent tr).length = answered.length := by
  have hanswers := congrArg List.length h.answers
  have hframes := congrArg List.length h.frames
  simp only [List.length_map] at hanswers hframes
  exact ⟨hanswers.symm, hframes⟩

/-- What was received, and what waits, as fragments of the requests. -/
theorem Serves.frames_eq (h : Serves requests fw tr answered done todo part waiting) :
    (rawsReceived tr).map frameOf = (done.flatten ++ part).map I2cWrite.clamped ∧
      fw.sBmcRxQueue.items.map frameOf = waiting.map I2cWrite.clamped := by
  have hkept : kept (i2cPosts tr) = (done.flatten ++ part) ++ waiting := by
    rw [h.posts, kept_taken, List.append_assoc]
  have hqueued := h.rx.queued
  rw [hkept, List.map_append, List.map_append] at hqueued
  exact List.append_inj hqueued (by rw [List.length_map, List.length_map, h.received])

theorem Serves.length_waiting (h : Serves requests fw tr answered done todo part waiting) :
    fw.sBmcRxQueue.items.length = waiting.length := by
  simpa using congrArg List.length h.frames_eq.2

/-- The request that the fragments sent since the last answer belong to. -/
theorem Serves.current (h : Serves requests fw tr answered done todo part waiting)
    {sent : List I2cWrite} (hne : sent ≠ []) (hsent : sent <+: (todo.take 1).flatten) :
    ∃ msg rest, todo = msg :: rest ∧ msg ∈ requests ∧ sent <+: msg := by
  cases todo with
  | nil => exact absurd (List.prefix_nil.1 hsent) hne
  | cons msg rest => exact ⟨msg, rest, rfl, by rw [h.requests]; simp, by simpa using hsent⟩

/-- The RX queue takes what a BMC sends that waits for its answers. -/
theorem Serves.post (h : Serves requests fw tr answered done todo part waiting)
    (hrequests : ∀ msg ∈ requests, Request msg) (w : I2cWrite) (msgData : Vector UInt8 smbMaxBlockSize)
    (hwaits : WaitsForAnswers requests tr
      (.i2cRx w (fw.sBmcRxQueue.send (bmcI2cRxMsg msgData w).1).1)) :
    Serves requests { fw with sBmcRxQueue := (fw.sBmcRxQueue.send (bmcI2cRxMsg msgData w).1).2 }
      (tr ++ [.i2cRx w (fw.sBmcRxQueue.send (bmcI2cRxMsg msgData w).1).1]) answered done todo part
      (waiting ++ [w]) := by
  have hrx := h.rx.rxIsr w msgData
  have hnext : part ++ (waiting ++ [w]) <+: (todo.take 1).flatten := by
    have htake : (done ++ todo).take (done.length + 1) = done ++ todo.take 1 := by
      rw [List.take_append, List.take_of_length_le (by omega), Nat.add_sub_cancel_left]
    rw [WaitsForAnswers, i2cPosts_append, List.map_append, h.posts, h.length_done.2, ← h.length_done.1,
      h.requests, htake, List.flatten_append, List.map_map] at hwaits
    have hall : (done.flatten ++ (part ++ waiting)).map (Prod.fst ∘ fun w => (w, true)) =
        done.flatten ++ (part ++ waiting) := List.map_id' _
    rw [hall, List.append_assoc, List.prefix_append_right_inj] at hwaits
    simpa [i2cPosts] using hwaits
  obtain ⟨msg, rest, rfl, hmsg, hprefix⟩ := h.current (by simp) hnext
  have hroom : fw.sBmcRxQueue.items.length < queueDepthBmc := by
    have hlen := hprefix.length_le
    have hqueue := (hrequests msg hmsg).queue
    have hwaiting := h.length_waiting
    simp only [List.length_append, List.length_singleton] at hlen
    omega
  rw [(FreeRtos.Queue.send_of_lt hroom).1] at hrx ⊢
  refine ⟨hrx, h.count, ?_, h.requests, h.answers, ?_, ?_, hnext, h.unfinished⟩
  · rw [framesSent_append, ← h.frames]
    exact congrArg (List.map (List.drop 4)) (List.append_nil _)
  · rw [i2cPosts_append, h.posts]
    simp [i2cPosts]
  · rw [rawsReceived_append, ← h.received]
    exact congrArg List.length (List.append_nil _)

/-- A fragment that is not marked `EOM` completes no message. -/
theorem completedMessage_of_not_eom {run : List (List UInt8)} {raw : BmcRxMsg}
    (heom : mctpFraming.eom (frameOf raw) = false) : completedMessage run raw = none := by
  have hnone : delivered mctpFraming pldmMaxPayload run (frameOf raw) = none :=
    if_neg (by simp [heom])
  rw [completedMessage, hnone]
  split <;> rfl

theorem quiet_dispatchEvents (fq : FreeRtos.Queue FlashCmd queueDepthFlash) (msg : PldmMsg)
    (frame : List UInt8) (length : UInt16) :
    i2cPosts (dispatchEvents fq msg frame length) = [] ∧
      rawsReceived (dispatchEvents fq msg frame length) = [] := by
  rw [dispatchEvents]
  split <;> exact ⟨rfl, rfl⟩

theorem answersGiven_dispatchEvents (fw : Firmware) (a : FwAction)
    (fq : FreeRtos.Queue FlashCmd queueDepthFlash) (msg : PldmMsg) (frame : List UInt8)
    (length : UInt16) : answersGiven fw a (dispatchEvents fq msg frame length) = [] := by
  rw [dispatchEvents]
  split <;> rfl

/-- A step in which nothing is posted to the RX queue. -/
theorem Serves.advance (h : Serves requests fw tr answered done todo part waiting)
    (hs : (firmware cfg).step fw a = some (fw', evs)) {done' todo' : List (List I2cWrite)}
    {part' waiting' : List I2cWrite} (hposts : i2cPosts evs = [])
    (hframes : (framesSent evs).map (List.drop 4) = (answersGiven fw a evs).map Prod.snd)
    (hrequests : done ++ todo = done' ++ todo')
    (hanswers : (done'.map fun msg => msg.flatMap I2cWrite.fullPayload) =
      (done.map fun msg => msg.flatMap I2cWrite.fullPayload) ++ (answersGiven fw a evs).map Prod.fst)
    (hsent : done.flatten ++ (part ++ waiting) = done'.flatten ++ (part' ++ waiting'))
    (hreceived : (done'.flatten ++ part').length =
      (done.flatten ++ part).length + (rawsReceived evs).length)
    (hnext : part' ++ waiting' <+: (todo'.take 1).flatten)
    (hunfinished : ∀ msg ∈ todo'.head?, part' ≠ msg) :
    Serves requests fw' (tr ++ evs) (answered ++ answersGiven fw a evs) done' todo' part' waiting' where
  rx := h.rx.step (firmware_step_cases hs)
  count := (count_step (firmware_step_cases hs)).trans h.count
  frames := by rw [framesSent_append, List.map_append, h.frames, hframes, List.map_append]
  requests := h.requests.trans hrequests
  answers := by rw [List.map_append, h.answers, hanswers]
  posts := by rw [i2cPosts_append, hposts, List.append_nil, h.posts, hsent]
  received := by rw [rawsReceived_append, List.length_append, h.received, hreceived]
  next := hnext
  unfinished := hunfinished

/-- The task receives a fragment of a request. If it is the last one, the request is answered. -/
theorem Serves.receive (h : Serves requests fw tr answered done todo part waiting)
    (hrequests : ∀ msg ∈ requests, Request msg) {locals : TaskLocals} {raw : BmcRxMsg}
    {q : FreeRtos.Queue BmcRxMsg queueDepthBmc} (hp : fw.phase = .drainRx)
    (hq : fw.sBmcRxQueue.items = raw :: q.items)
    (hs : (firmware cfg).step fw (.bmcMgrTask locals) = some (fw', evs)) :
    ∃ done' todo' part' waiting',
      Serves requests fw' (tr ++ evs) (answered ++ answersGiven fw (.bmcMgrTask locals) evs)
        done' todo' part' waiting' := by
  have hstep := rxStep_of_inv h.rx h.count hp hq hs
  -- the raw message is the first fragment that waits
  obtain ⟨hraws, hqueued⟩ := h.frames_eq
  rw [hq, List.map_cons, eq_comm] at hqueued
  obtain ⟨w, waiting', rfl, hw, -⟩ := List.map_eq_cons_iff.1 hqueued
  obtain ⟨msg, rest, rfl, hmsg, more, hmore⟩ := h.current (by simp) h.next
  have hreq := hrequests msg hmsg
  have hsplit : msg = part ++ w :: (waiting' ++ more) := by rw [← hmore]; simp
  by_cases hlast : waiting' ++ more = []
  · -- the request is complete
    obtain ⟨rfl, rfl⟩ := List.append_eq_nil_iff.1 hlast
    rw [List.nil_append] at hsplit
    have hframes : (rawsReceived tr ++ [raw]).map frameOf =
        (done.flatten ++ msg).map I2cWrite.clamped := by
      rw [List.map_append, hraws, List.map_singleton, ← hw, hsplit]
      simp only [List.map_append, List.map_cons, List.map_nil, List.append_assoc]
    have hm := completedMessage_of_sent hreq.toSentMessage (hreq.fits.trans (by decide)) hframes
    cases hstep with
    | incomplete hnone hc =>
      rw [hm] at hnone
      cases hnone
    | short pkt m hsome h3 hc =>
      obtain rfl := Option.some.inj (hm.symm.trans hsome)
      exact absurd hreq.header (by omega)
    | answered pkt m pldm length hsome h3 hc hbytes hlen =>
      obtain rfl := Option.some.inj (hm.symm.trans hsome)
      rw [hbytes hreq.fits] at hs ⊢
      obtain ⟨hnoPosts, hnoRaws⟩ := quiet_dispatchEvents fw.sFlashCmdQueue pldm
        (responseFrame locals.send (msg.flatMap I2cWrite.fullPayload)
          (answerTo fw.sCache (hasRoom fw.sFlashCmdQueue) (msg.flatMap I2cWrite.fullPayload))) length
      refine ⟨done ++ [msg], rest, [], [], h.advance hs ?_ ?_ ?_ ?_ ?_ ?_ List.nil_prefix ?_⟩
      · rw [i2cPosts_append, hnoPosts]
        rfl
      · rw [framesSent_append, framesSent_dispatchEvents, answersGiven_append,
          answersGiven_dispatchEvents]
        rfl
      · simp
      · rw [answersGiven_append, answersGiven_dispatchEvents, List.map_append]
        rfl
      · simp [hsplit]
      · rw [rawsReceived_append, hnoRaws, hsplit]
        simp [rawsReceived]
        omega
      · rintro msg' hhead rfl
        have hmem : [] ∈ requests := by
          rw [h.requests]
          exact List.mem_append_right _ (List.mem_cons_of_mem _ (List.mem_of_mem_head? hhead))
        exact absurd (hrequests [] hmem).header (by simp)
  · have heom : mctpFraming.eom (frameOf raw) = false := by
      have hwf : WellFormed i2cFraming (part ++ w :: (waiting' ++ more)) :=
        hsplit ▸ (sentMessage_iff.1 hreq.toSentMessage).2
      rw [← hw, (i2cFraming_clamped (hreq.size w (by rw [hsplit]; simp)).2).2.1]
      exact hwf.eom_eq_false hlast
    have hm : completedMessage (openRun mctpFraming pldmMaxPayload
        ((packetsOf (rawsReceived tr)).map frameOf)) raw = none := completedMessage_of_not_eom heom
    cases hstep with
    | incomplete hnone hc =>
      refine ⟨done, msg :: rest, part ++ [w], waiting',
        h.advance hs rfl rfl rfl (List.append_nil _).symm (by simp) ?_ (by simpa using h.next) ?_⟩
      · simp [rawsReceived]
        omega
      · intro msg' hhead heq
        obtain rfl : msg = msg' := by simpa using hhead
        rw [hsplit] at heq
        exact hlast (List.cons.inj (List.append_cancel_left heq)).2.symm
    | short pkt m hsome h3 hc =>
      rw [hm] at hsome
      cases hsome
    | answered pkt m pldm length hsome h3 hc hbytes hlen =>
      rw [hm] at hsome
      cases hsome

/-- A step that has nothing to do with requests. -/
theorem Serves.quiet (h : Serves requests fw tr answered done todo part waiting)
    (hs : (firmware cfg).step fw a = some (fw', evs)) (hrx : ∀ e ∈ evs, e.isRx = false)
    (hrequest : ∀ e ∈ evs, e.isRequest = false) :
    Serves requests fw' (tr ++ evs) (answered ++ answersGiven fw a evs) done todo part waiting := by
  have hnone := answersGiven_quiet fw a hrequest
  refine h.advance hs (i2cPosts_quiet hrx) ?_ rfl ?_ rfl ?_ h.next h.unfinished
  · rw [framesSent_quiet hrequest, hnone]
    rfl
  · rw [hnone, List.map_nil, List.append_nil]
  · rw [rawsReceived_quiet hrx, List.length_nil, Nat.add_zero]

end Serves

/-! ## Runs -/

/-- The requests are being served. -/
def Serving (requests : List (List I2cWrite)) (fw : Firmware) (tr : List FwEvent)
    (answered : List (List UInt8 × List UInt8)) : Prop :=
  ∃ done todo part waiting, Serves requests fw tr answered done todo part waiting

theorem Serving.step {answered : List (List UInt8 × List UInt8)} (h : Serving requests fw tr answered)
    (hrequests : ∀ msg ∈ requests, Request msg)
    (hs : (firmware cfg).step fw a = some (fw', evs))
    (hwaits : Trace.EachGiven (WaitsForAnswers requests) (tr ++ evs)) :
    Serving requests fw' (tr ++ evs) (answered ++ answersGiven fw a evs) := by
  obtain ⟨done, todo, part, waiting, h⟩ := h
  cases firmware_step_cases hs with
  | rxIsr w msgData =>
    have hpost := h.post hrequests w msgData (Trace.eachGiven_snoc.1 hwaits).2
    exact ⟨_, _, _, _, (List.append_nil answered).symm ▸ hpost⟩
  | rx locals raw q fq dispatched hp hq hd => exact h.receive hrequests hp hq hs
  | _ => exact ⟨_, _, _, _, h.quiet hs (by simp [FwEvent.isRx]) (by simp [FwEvent.isRequest])⟩

end NicObFw
