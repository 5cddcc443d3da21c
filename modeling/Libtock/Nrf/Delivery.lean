import Libtock.Nrf.Stored

/-!
# What is reported to the upper layer

The packet to deliver is chosen twice: when a buffer is requested, and when it has been granted. The
two choices agree unless a response comes in between. A packet that is delivered is taken away; one
that is reported as dropped is not.
-/

namespace Nrf

open Core

variable {c : Headers} {w w' : World} {a : Action} {es es' tr : List Event} {r : Option Request}

/-! ### Requests and their answers -/

/-- The request that has not been answered by a report. -/
def tellRequest (r : Option Request) : Event → Option Request
  | .rxBufRequest src payload numOfBytes => some ⟨src, payload, numOfBytes⟩
  | .rxPktReceived _ _ _ _ => none
  | .rxPktDropped => none
  | _ => r

/-- Each packet that is received is the one of the last request, and as long as requested. -/
def Answered : Option Request → List Event → Prop
  | _, [] => True
  | r, .rxPktReceived src bytes numOfBytes _ :: es =>
    (r = some ⟨src, bytes, numOfBytes⟩ ∧ bytes.length = numOfBytes.toNat) ∧ Answered none es
  | r, e :: es => Answered (tellRequest r e) es

lemma answered_append :
    Answered r (es ++ es') ↔ Answered r es ∧ Answered (es.foldl tellRequest r) es' := by
  induction es generalizing r with
  | nil => simp [Answered]
  | cons e es ih =>
    cases e <;> simp [Answered, tellRequest, ih, and_assoc]

lemma foldl_tellRequest (h : reports es = []) (r : Option Request) :
    es.foldl tellRequest r = r := by
  apply reports_nil_induction (P := fun es => es.foldl tellRequest r = r) rfl _ h
  intro e es he ih
  cases e <;> first | exact ih | cases he

lemma answered_of_reports (h : reports es = []) (r : Option Request) : Answered r es := by
  apply reports_nil_induction (P := Answered r) trivial _ h
  intro e es he ih
  cases e <;> first | exact ih | cases he

/-- A response has come after a buffer was requested for an event, and granted. -/
def World.overtaken (w : World) : Bool :=
  w.state.haveRspPacket &&
    match w.ask with
    | .granted ⟨.event _, _, _⟩ => true
    | _ => false

/-- The step does not deliver a response in place of an event. -/
def World.InTime (w : World) (a : Action) : Prop := ¬ (w.wakes a = true ∧ w.overtaken = true)

instance (w : World) (a : Action) : Decidable (w.InTime a) :=
  inferInstanceAs (Decidable (¬ (_ ∧ _)))

@[simp] lemma length_payload (buf : Buffer) :
    (payload buf).length = (readLength buf 0).toNat := length_slice _ _ _

/-- The packet that is delivered is the one of the request if and only if no response has come after
a buffer was requested for an event. -/
lemma eq_next_iff {rcv : Receive} {q : Request} (h : rcv.Holds q) :
    q = ⟨rcv.next, payload (rcv.buffer rcv.next), readLength (rcv.buffer rcv.next) 0⟩ ↔
      ∀ slot, q.src = .event slot → rcv.haveRspPacket = false := by
  constructor
  · intro heq slot hslot
    by_contra hhave
    have hnext : rcv.next = .rsp := if_pos (by simpa using hhave)
    rw [heq, hnext] at hslot
    cases hslot
  · exact h.eq_next

/-- A buffer that is not null is there when it has been granted. -/
def World.Provided (w : World) : Prop := ∀ q, w.ask = .granted q → w.state.halRxBuf ≠ none

lemma World.Provided.step (h : w.Provided) (hinv : Inv w.state.toReceive w.ask)
    (hnonNull : a.nonNull = true) (hstep : w.step c a = some (w', es)) : w'.Provided := by
  intro q hq
  cases step_effect hinv.handler hstep with
  | other hreceive hask =>
    rw [hreceive]
    exact h q (hask ▸ hq)
  | grant p ha hreceive hask =>
    rw [hreceive]
    rintro rfl
    rw [ha] at hnonNull
    cases hnonNull
  | storeRsp buf hhandled hfree hreceive hask =>
    rw [hreceive]
    exact h q (hask ▸ hq)
  | storeEvent buf hhandled hroom hreceive hask =>
    rw [hreceive]
    exact h q (hask ▸ hq)
  | request hidle hheld hreceive hask =>
    rw [hask] at hq
    cases hq
  | deliver p hwakes hhal hreceive hask =>
    rw [hask] at hq
    cases hq
  | drop hwakes hhal hreceive hask =>
    rw [hask] at hq
    cases hq

@[simp] lemma Ask.request_grant (a : Ask) : a.grant.request = a.request := by
  cases a <;> rfl

/-- What a step tells the upper layer about the packets that are kept. -/
inductive Told (w : World) (a : Action) (w' : World) (es : List Event) : Prop
  | nothing (hrequest : w'.ask.request = w.ask.request) (hreports : reports es = [])
  | request (q : Request) (hask : w'.ask = .requested q)
      (hes : es = [.rxBufRequest q.src q.payload q.numOfBytes])
  | received (p : Ptr) (hwakes : w.wakes a = true) (hask : w'.ask = .idle)
      (hes : es = [.rxPktReceived w.state.next (payload (w.state.buffer w.state.next))
        (readLength (w.state.buffer w.state.next) 0) p])
  | dropped (hwakes : w.wakes a = true) (hhal : w.state.halRxBuf = none)
      (hkept : w'.state.kept = w.state.kept) (hask : w'.ask = .idle) (hes : es = [.rxPktDropped])

lemma Inv.told (hinv : Inv w.state.toReceive w.ask) (hstep : w.step c a = some (w', es)) :
    Told w a w' es := by
  cases step_effect hinv.handler hstep with
  | other hreceive hask hstored hreports => exact .nothing (congrArg Ask.request hask) hreports
  | grant p ha hreceive hask hes =>
    rw [hes]
    apply Told.nothing _ rfl
    rw [hask, Ask.request_grant]
  | storeRsp buf hhandled hfree hreceive hask hstored hreports =>
    exact .nothing (congrArg Ask.request hask) hreports
  | storeEvent buf hhandled hroom hreceive hask hstored hreports =>
    exact .nothing (congrArg Ask.request hask) hreports
  | request hidle hheld hreceive hask hes => exact .request _ hask hes
  | deliver p hwakes hhal hreceive hask hes => exact .received p hwakes hask hes
  | drop hwakes hhal hreceive hask hes =>
    apply Told.dropped hwakes hhal _ hask hes
    rw [hreceive]
    rfl

/-- The trace says what the last request is. -/
lemma Told.request_eq (h : Told w a w' es) :
    es.foldl tellRequest w.ask.request = w'.ask.request := by
  cases h with
  | nothing hrequest hreports => rw [foldl_tellRequest hreports, hrequest]
  | request q hask hes =>
    rw [hes, hask]
    rfl
  | received p hwakes hask hes =>
    rw [hes, hask]
    rfl
  | dropped hwakes hhal hkept hask hes =>
    rw [hes, hask]
    rfl

lemma inTime_iff {q : Request} (hwakes : w.wakes a = true) (hask : w.ask = .granted q) :
    w.InTime a ↔ ∀ slot, q.src = .event slot → w.state.haveRspPacket = false := by
  obtain ⟨src, bytes, numOfBytes⟩ := q
  cases src <;> simp [World.InTime, World.overtaken, hwakes, hask]

/-- What a delivery passes on is what was requested for if and only if no response was faster. -/
lemma answered_deliver_iff {p : Ptr} (hinv : Inv w.state.toReceive w.ask)
    (hwakes : w.wakes a = true) :
    Answered w.ask.request [.rxPktReceived w.state.next (payload (w.state.buffer w.state.next))
      (readLength (w.state.buffer w.state.next) 0) p] ↔ w.InTime a := by
  obtain ⟨q, hask, hholds⟩ := hinv.granted_of_wakes hwakes
  rw [inTime_iff hwakes hask, ← eq_next_iff hholds, hask]
  simp [Answered, Ask.request]

lemma answered_step (hinv : Inv w.state.toReceive w.ask) (hin : w.InTime a)
    (hstep : w.step c a = some (w', es)) : Answered w.ask.request es := by
  cases hinv.told hstep with
  | nothing hrequest hreports => exact answered_of_reports hreports _
  | request q hask hes =>
    rw [hes]
    trivial
  | received p hwakes hask hes =>
    rw [hes]
    exact (answered_deliver_iff hinv hwakes).mpr hin
  | dropped hwakes hhal hkept hask hes =>
    rw [hes]
    trivial

lemma not_mem_of_reports {e : Event} (h : reports es = []) (he : e.isReport = true) : e ∉ es := by
  intro hmem
  have hreport : e ∈ reports es := List.mem_filter.mpr ⟨hmem, he⟩
  rw [h] at hreport
  cases hreport

/-- A step that reports a packet as received delivers the next one. -/
lemma received_step (hinv : Inv w.state.toReceive w.ask) (hstep : w.step c a = some (w', es))
    {src : Source} {bytes : List U8} {numOfBytes : U16} {p : Ptr}
    (hreceived : .rxPktReceived src bytes numOfBytes p ∈ es) :
    w.wakes a = true ∧ es = [.rxPktReceived w.state.next (payload (w.state.buffer w.state.next))
      (readLength (w.state.buffer w.state.next) 0) p] := by
  cases hinv.told hstep with
  | nothing hrequest hreports => exact absurd hreceived (not_mem_of_reports hreports rfl)
  | request q hask hes => simp [hes] at hreceived
  | received q hwakes hask hes =>
    refine ⟨hwakes, ?_⟩
    rw [hes] at hreceived ⊢
    cases List.mem_singleton.mp hreceived
    rfl
  | dropped hwakes hhal hkept hask hes => simp [hes] at hreceived

/-- In every run in which each request is answered once and no response is delivered in place of an
event, every packet received is the one that the buffer was requested for. And a step that delivers
a packet delivers that one if and only if no response has come in between. -/
theorem delivered_is_announced {rx : Buffer}
    (hrun : Run (Guarded (World.Step c) fun w a => w.oneGrant a = true ∧ w.InTime a)
      (World.initial rx) tr w) :
    Answered none tr ∧
      ∀ a w' es src bytes numOfBytes p, w.step c a = some (w', es) →
        .rxPktReceived src bytes numOfBytes p ∈ es → (Answered w.ask.request es ↔ w.InTime a) := by
  have hinv : Inv w.state.toReceive w.ask ∧ tr.foldl tellRequest none = w.ask.request ∧
      Answered none tr := by
    apply hrun.trace_invariant (fun tr w => Inv w.state.toReceive w.ask ∧
      tr.foldl tellRequest none = w.ask.request ∧ Answered none tr)
    · rintro tr w a w' es ⟨hinv, hrequest, hanswered⟩ ⟨⟨hone, hin⟩, hstep⟩
      refine ⟨hinv.step hone hstep, ?_, ?_⟩
      · rw [List.foldl_append, hrequest, (hinv.told hstep).request_eq]
      · rw [answered_append, hrequest]
        exact ⟨hanswered, answered_step hinv hin hstep⟩
    · exact ⟨initial_inv rx, rfl, trivial⟩
  obtain ⟨hinv, -, hanswered⟩ := hinv
  refine ⟨hanswered, ?_⟩
  intro a w' es src bytes numOfBytes p hstep hreceived
  obtain ⟨hwakes, rfl⟩ := received_step hinv hstep hreceived
  exact answered_deliver_iff hinv hwakes

/-- An event of two bytes is announced and delivered. -/
theorem delivered_is_announced_event : ∃ tr w,
    Run (Guarded (World.Step sampleHeaders) fun w a => w.oneGrant a = true ∧ w.InTime a)
      (World.initial (bufferOf [2, 0, 2, 7])) tr w ∧
    .rxPktReceived (.event 0) [2, 7] 2 100 ∈ tr ∧ Answered none tr := by
  have hrun := World.run_of_guarded (P := fun w a => w.oneGrant a = true ∧ w.InTime a)
    (w := World.initial (bufferOf [2, 0, 2, 7])) (c := sampleHeaders)
    [.upcall 4 4, .resume false, .resume false, .serPhyRxBufSet (some 100), .resume false,
      .resume false] rfl
  refine ⟨_, _, hrun, ?_, (delivered_is_announced hrun).1⟩
  decide

/-- A response of three bytes comes between the request for an event of two bytes and its delivery,
and is delivered in its place. -/
theorem delivered_is_not_announced : ∃ tr w,
    Run (Guarded (World.Step sampleHeaders) fun w a => w.oneGrant a = true ∧ a.nonNull = true)
      (World.initial (bufferOf [2, 0, 2, 7])) tr w ∧
    .rxBufRequest (.event 0) [2, 7] 2 ∈ tr ∧ .rxPktReceived .rsp [1, 5, 6] 3 100 ∈ tr ∧
    ¬ Answered none tr := by
  have hrun := World.run_of_guarded (P := fun w a => w.oneGrant a = true ∧ a.nonNull = true)
    (w := World.initial (bufferOf [2, 0, 2, 7])) (c := sampleHeaders)
    [.upcall 4 4, .resume false, .resume false, .serPhyRxBufSet (some 100), .resume false,
      .resume true, .fill (bufferOf [3, 0, 1, 5, 6]), .upcall 4 5, .resume false, .resume false,
      .resume false] rfl
  refine ⟨_, _, hrun, by decide, by decide, ?_⟩
  rintro ⟨⟨heq, -⟩, -⟩
  cases heq

/-! ### What becomes of a packet -/

def responses (l : List (Source × List U8)) : List (List U8) :=
  l.filterMap fun
    | (.rsp, p) => some p
    | _ => none

def events (l : List (Source × List U8)) : List (List U8) :=
  l.filterMap fun
    | (.event _, p) => some p
    | _ => none

/-- What was stored is what was delivered, in this order, and what is kept. -/
structure Accounted (tr : List Event) (k : Kept) : Prop where
  responses : responses (stored tr) = responses (received tr) ++ k.rsp.toList
  events : events (stored tr) = events (received tr) ++ k.events

@[simp] lemma responses_append (l l' : List (Source × List U8)) :
    responses (l ++ l') = responses l ++ responses l' := List.filterMap_append

@[simp] lemma events_append (l l' : List (Source × List U8)) :
    events (l ++ l') = events l ++ events l' := List.filterMap_append

/-- What a step adds to the accounts. -/
lemma Accounted.extend {k k' : Kept} (h : Accounted tr k)
    (hresponses : k.rsp.toList ++ Nrf.responses (stored es) =
      Nrf.responses (received es) ++ k'.rsp.toList)
    (hevents : k.events ++ Nrf.events (stored es) = Nrf.events (received es) ++ k'.events) :
    Accounted (tr ++ es) k' := by
  constructor
  · rw [stored_append, received_append, responses_append, responses_append, h.responses,
      List.append_assoc, hresponses, List.append_assoc]
  · rw [stored_append, received_append, events_append, events_append, h.events,
      List.append_assoc, hevents, List.append_assoc]

/-- A packet that is stored is kept, and a packet that is delivered is not kept any more. -/
lemma Accounted.moves {k k' : Kept} (h : Accounted tr k)
    (hmoves : Moves k k' (stored es) (received es)) : Accounted (tr ++ es) k' := by
  cases hmoves with
  | nothing hkept hins houts =>
    apply h.extend
    · rw [hkept, hins, houts]
      exact List.append_nil _
    · rw [hkept, hins, houts]
      exact List.append_nil _
  | storeRsp p hfree hkept hins houts =>
    apply h.extend
    · rw [hkept, hfree, hins, houts]
      rfl
    · rw [hkept, hins, houts]
      exact List.append_nil _
  | storeEvent slot p hkept hins houts =>
    apply h.extend
    · rw [hkept, hins, houts]
      exact List.append_nil _
    · rw [hkept, hins, houts]
      rfl
  | deliverRsp p hrsp hkept hins houts =>
    apply h.extend
    · rw [hkept, hrsp, hins, houts]
      rfl
    · rw [hkept, hins, houts]
      exact List.append_nil _
  | deliverEvent slot p hevents hrsp hins houts =>
    apply h.extend
    · rw [hrsp, hins, houts]
      exact List.append_nil _
    · rw [hevents, hins, houts]
      exact List.append_nil _

/-- The packet of a request is the response that is kept, or the oldest event. -/
lemma kept_of_holds {rcv : Receive} {q : Request} (hindices : rcv.Indices) (h : rcv.Holds q) :
    rcv.kept.rsp = some q.payload ∨ rcv.kept.events.head? = some q.payload := by
  obtain ⟨⟨hsrc, hhave⟩ | ⟨hsrc, hne⟩, hpayload, -⟩ := h
  · left
    rw [hsrc] at hpayload
    rw [← hpayload]
    exact if_pos hhave
  · right
    rw [hsrc] at hpayload
    rw [← hpayload, Receive.kept, Ring.contents_pop _ hindices.1 hindices.2 hne]
    rfl

/-- A packet is reported as dropped when its buffer is null, and is kept all the same. -/
lemma dropped_step (hinv : Inv w.state.toReceive w.ask) (hstep : w.step c a = some (w', es))
    (hdropped : .rxPktDropped ∈ es) :
    w.state.halRxBuf = none ∧ ∃ q, w.ask = .granted q ∧
      (w'.state.kept.rsp = some q.payload ∨ w'.state.kept.events.head? = some q.payload) := by
  cases hinv.told hstep with
  | nothing hrequest hreports => exact absurd hdropped (not_mem_of_reports hreports rfl)
  | request q hask hes => simp [hes] at hdropped
  | received p hwakes hask hes => simp [hes] at hdropped
  | dropped hwakes hhal hkept hask hes =>
    obtain ⟨q, hq, hholds⟩ := hinv.granted_of_wakes hwakes
    rw [hkept]
    exact ⟨hhal, q, hq, kept_of_holds hinv.indices hholds⟩

/-- The head of the ring moves only while there are events. -/
lemma head_step (hinv : Inv w.state.toReceive w.ask) (hstep : w.step c a = some (w', es))
    (hmoved : w'.state.headEvent ≠ w.state.headEvent) :
    w.state.headEvent ≠ w.state.tailEvent := by
  cases step_effect hinv.handler hstep with
  | other hreceive => exact absurd (congrArg Receive.headEvent hreceive) hmoved
  | grant p ha hreceive => exact absurd (congrArg Receive.headEvent hreceive) hmoved
  | storeRsp buf hhandled hfree hreceive =>
    exact absurd (congrArg Receive.headEvent hreceive) hmoved
  | storeEvent buf hhandled hroom hreceive =>
    exact absurd (congrArg Receive.headEvent hreceive) hmoved
  | request hidle hheld hreceive => exact absurd (congrArg Receive.headEvent hreceive) hmoved
  | deliver p hwakes hhal hreceive =>
    obtain ⟨q, -, hholds⟩ := hinv.granted_of_wakes hwakes
    cases hhave : w.state.haveRspPacket with
    | true =>
      have hpopped : w.state.popped = { w.state.toReceive with haveRspPacket := false } :=
        if_pos hhave
      rw [hpopped] at hreceive
      exact absurd (congrArg Receive.headEvent hreceive) hmoved
    | false => exact hholds.held.resolve_left (ne_true_of_eq_false hhave)
  | drop hwakes hhal hreceive => exact absurd (congrArg Receive.headEvent hreceive) hmoved

/-- In every run in which each request is answered with a buffer, every packet stored is delivered
once, with its payload, or kept: events in the order in which they came. And whenever a request has
been answered with a null pointer, its packet is reported as dropped but is kept. -/
theorem each_packet_once {rx : Buffer}
    (hrun : Run (Guarded (World.Step c) fun w a => w.oneGrant a = true ∧ a.nonNull = true)
      (World.initial rx) tr w) :
    (Accounted tr w.state.kept ∧ .rxPktDropped ∉ tr ∧ w.state.Indices ∧
      ∀ a w' es, w.step c a = some (w', es) → w'.state.headEvent ≠ w.state.headEvent →
        w.state.headEvent ≠ w.state.tailEvent) ∧
    ∀ tr w a w' es,
      Run (Guarded (World.Step c) fun w a => w.oneGrant a = true) (World.initial rx) tr w →
      w.step c a = some (w', es) → .rxPktDropped ∈ es →
      w.state.halRxBuf = none ∧ ∃ q, w.ask = .granted q ∧
        (w'.state.kept.rsp = some q.payload ∨ w'.state.kept.events.head? = some q.payload) := by
  constructor
  · have hinv : Inv w.state.toReceive w.ask ∧ w.Provided ∧ Accounted tr w.state.kept ∧
        .rxPktDropped ∉ tr := by
      apply hrun.trace_invariant (fun tr w => Inv w.state.toReceive w.ask ∧ w.Provided ∧
        Accounted tr w.state.kept ∧ .rxPktDropped ∉ tr)
      · rintro tr w a w' es ⟨hinv, hprovided, haccounted, hdropped⟩ ⟨⟨hone, hnonNull⟩, hstep⟩
        refine ⟨hinv.step hone hstep, hprovided.step hinv hnonNull hstep,
          haccounted.moves (hinv.moves hstep), ?_⟩
        intro hmem
        rcases List.mem_append.mp hmem with hold | hnew
        · exact hdropped hold
        · obtain ⟨hnone, q, hq, -⟩ := dropped_step hinv hstep hnew
          exact hprovided q hq hnone
      · refine ⟨initial_inv rx, fun q hq => (by cases hq), ?_, List.not_mem_nil⟩
        rw [initial_kept]
        exact ⟨rfl, rfl⟩
    obtain ⟨hinv, -, haccounted, hdropped⟩ := hinv
    exact ⟨haccounted, hdropped, hinv.indices, fun a w' es => head_step hinv⟩
  · intro tr w a w' es hrun hstep hdropped
    have hinv : Inv w.state.toReceive w.ask := by
      apply hrun.trace_invariant (fun _ w => Inv w.state.toReceive w.ask)
      · exact fun tr w a w' es hinv hstep => hinv.step hstep.1 hstep.2
      · exact initial_inv rx
    exact dropped_step hinv hstep hdropped

/-- An event and a response are stored; the response is delivered first. -/
theorem each_packet_once_two : ∃ tr w,
    Run (Guarded (World.Step sampleHeaders) fun w a => w.oneGrant a = true ∧ a.nonNull = true)
      (World.initial (bufferOf [2, 0, 2, 7, 1, 0, 1])) tr w ∧
    received tr = [(.rsp, [1])] ∧ w.state.kept.events = [[2, 7]] ∧
    Accounted tr w.state.kept := by
  have hrun := World.run_of_guarded (P := fun w a => w.oneGrant a = true ∧ a.nonNull = true)
    (w := World.initial (bufferOf [2, 0, 2, 7, 1, 0, 1])) (c := sampleHeaders)
    [.upcall 4 7, .resume false, .resume false, .resume false, .serPhyRxBufSet (some 100),
      .resume false, .resume false] rfl
  exact ⟨_, _, hrun, rfl, by decide, (each_packet_once hrun).1.1⟩

/-- An event is reported as dropped, and then it is received. -/
theorem dropped_packet_received : ∃ tr w,
    Run (Guarded (World.Step sampleHeaders) fun w a => w.oneGrant a = true)
      (World.initial (bufferOf [2, 0, 2, 7])) tr w ∧
    stored tr = [(.event 0, [2, 7])] ∧
    reports tr = [.rxBufRequest (.event 0) [2, 7] 2, .rxPktDropped,
      .rxBufRequest (.event 0) [2, 7] 2, .rxPktReceived (.event 0) [2, 7] 2 100] := by
  have hrun := World.run_of_guarded (P := fun w a => w.oneGrant a = true)
    (w := World.initial (bufferOf [2, 0, 2, 7])) (c := sampleHeaders)
    [.upcall 4 4, .resume false, .resume false, .serPhyRxBufSet none, .resume false,
      .resume false, .resume false, .resume true, .upcall 4 0, .resume false, .resume false,
      .serPhyRxBufSet (some 100), .resume false, .resume false] rfl
  exact ⟨_, _, hrun, rfl, rfl⟩

end Nrf
