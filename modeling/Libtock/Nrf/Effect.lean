import Libtock.Nrf.World

/-!
# What one step does to the packets

A step stores a packet, requests a buffer, is granted one, delivers or drops a packet, or does
nothing to the packets. The invariant ties the last request to the packet it was made for.
-/

namespace Nrf

open Core Core.Bytes

variable {c : Headers} {w w' : World} {a : Action} {es es' : List Event} {buf : Buffer}

/-! ### What the events say -/

/-- A call of the handler that is about packets received. -/
def Event.isReport : Event → Bool
  | .rxBufRequest _ _ _ => true
  | .rxPktReceived _ _ _ _ => true
  | .rxPktDropped => true
  | _ => false

def reports (es : List Event) : List Event := es.filter Event.isReport

@[simp] lemma stored_append (es es' : List Event) : stored (es ++ es') = stored es ++ stored es' :=
  List.filterMap_append

/-- The packets delivered to the upper layer. -/
def received (es : List Event) : List (Source × List U8) :=
  es.filterMap fun
    | .rxPktReceived src bytes _ _ => some (src, bytes)
    | _ => none

@[simp] lemma received_append (es es' : List Event) :
    received (es ++ es') = received es ++ received es' := List.filterMap_append

lemma reports_cons (e : Event) (es : List Event) :
    reports (e :: es) = if e.isReport then e :: reports es else reports es := List.filter_cons

/-- What holds of no events and of one more that is no report holds of events without reports. -/
lemma reports_nil_induction {P : List Event → Prop} (hnil : P [])
    (hcons : ∀ e es, e.isReport = false → P es → P (e :: es)) (h : reports es = []) : P es := by
  induction es with
  | nil => exact hnil
  | cons e es ih =>
    rw [reports_cons] at h
    cases he : e.isReport with
    | true =>
      rw [if_pos he] at h
      cases h
    | false => exact hcons e es he (ih (by rwa [he] at h))

/-- Nothing else tells the upper layer about packets. -/
lemma foldl_tell (h : reports es = []) (ask : Ask) : es.foldl Ask.tell ask = ask := by
  apply reports_nil_induction (P := fun es => es.foldl Ask.tell ask = ask) rfl _ h
  intro e es he ih
  cases e <;> first | exact ih | cases he

lemma received_of_reports (h : reports es = []) : received es = [] := by
  apply reports_nil_induction (P := fun es => received es = []) rfl _ h
  intro e es he ih
  cases e <;> first | exact ih | cases he

lemma reports_storePacket (c : Headers) (o pktlen : ℕ) (s : State) :
    reports (storePacket c o pktlen s).2 = [] := by
  refine List.filter_eq_nil_iff.mpr fun e he => ?_
  rcases (storePacket_frame c o pktlen s).2.2 e he with rfl | ⟨_, _, rfl⟩ | ⟨_, rfl⟩ <;>
    exact Bool.false_ne_true

/-! ### The kinds of steps -/

namespace Receive

/-- The packet that is delivered next. -/
def next (r : Receive) : Source := if r.haveRspPacket then .rsp else .event r.headEvent

/-- The packet that is delivered next has left. -/
def popped (r : Receive) : Receive :=
  if r.haveRspPacket then { r with haveRspPacket := false }
  else { r with headEvent := (r.headEvent + 1) % rxBufferSize }

end Receive

/-- The step calls `ble_serialization_callback` with type 17. -/
def World.wakes (w : World) (a : Action) : Bool :=
  w.state.needWakeup &&
    match a with
    | .sdAppEvtWait => true
    | .resume busy => !busy && w.stack.head? = some .finish
    | _ => false

lemma World.needWakeup_of_wakes (h : w.wakes a = true) : w.state.needWakeup = true :=
  (Bool.and_eq_true_iff.mp h).1

/-- The length of the packet that the step handles, when it is a round of the loop. -/
def World.handled (c : Headers) (w : World) : Action → Option ℕ
  | .resume _ =>
    match w.stack with
    | .loop rxLen offset :: _ =>
      if Fits c rxLen offset w.state then some (readLength w.state.rx offset).toNat else none
    | _ => none
  | _ => none

/-- What a step does to the packets and to the last request, and what it emits. -/
inductive Effect (c : Headers) (w : World) (a : Action) (w' : World) (es : List Event) : Prop
  | other (hreceive : w'.state.toReceive = w.state.toReceive) (hask : w'.ask = w.ask)
      (hstored : stored es = []) (hreports : reports es = [])
  | grant (p : Option Ptr) (ha : a = .serPhyRxBufSet p)
      (hreceive : w'.state.toReceive =
        { w.state.toReceive with halRxBuf := p, needWakeup := true })
      (hask : w'.ask = w.ask.grant) (hes : es = [])
  | storeRsp (buf : Buffer) (hhandled : w.handled c a = some (payload buf).length)
      (hfree : w.state.haveRspPacket = false)
      (hreceive : w'.state.toReceive = w.state.storeRsp buf) (hask : w'.ask = w.ask)
      (hstored : stored es = [(.rsp, payload buf)]) (hreports : reports es = [])
  | storeEvent (buf : Buffer) (hhandled : w.handled c a = some (payload buf).length)
      (hroom : (w.state.tailEvent + 1) % rxBufferSize ≠ w.state.headEvent)
      (hreceive : w'.state.toReceive = w.state.storeEvent buf) (hask : w'.ask = w.ask)
      (hstored : stored es = [(.event w.state.tailEvent, payload buf)]) (hreports : reports es = [])
  | request (hidle : w.state.receivingPacket = false)
      (hheld : w.state.haveRspPacket = true ∨ w.state.headEvent ≠ w.state.tailEvent)
      (hreceive : w'.state.toReceive = { w.state.toReceive with receivingPacket := true })
      (hask : w'.ask = .requested ⟨w.state.next, payload (w.state.buffer w.state.next),
        readLength (w.state.buffer w.state.next) 0⟩)
      (hes : es = [.rxBufRequest w.state.next (payload (w.state.buffer w.state.next))
        (readLength (w.state.buffer w.state.next) 0)])
  | deliver (p : Ptr) (hwakes : w.wakes a = true) (hhal : w.state.halRxBuf = some p)
      (hreceive : w'.state.toReceive =
        { w.state.popped with halRxBuf := none, needWakeup := false, receivingPacket := false })
      (hask : w'.ask = .idle)
      (hes : es = [.rxPktReceived w.state.next (payload (w.state.buffer w.state.next))
        (readLength (w.state.buffer w.state.next) 0) p])
  | drop (hwakes : w.wakes a = true) (hhal : w.state.halRxBuf = none)
      (hreceive : w'.state.toReceive =
        { w.state.toReceive with needWakeup := false, receivingPacket := false })
      (hask : w'.ask = .idle) (hes : es = [.rxPktDropped])

lemma announce_cases (busy : Bool) {s : State} (hhandler : s.serPhyEventHandler = true) :
    announce busy s = (s, [.finish], []) ∨
      s.receivingPacket = false ∧ (s.haveRspPacket = true ∨ s.headEvent ≠ s.tailEvent) ∧
        announce busy s = ({ s with receivingPacket := true }, [.app, .finish],
          [.rxBufRequest s.next (payload (s.buffer s.next)) (readLength (s.buffer s.next) 0)]) := by
  cases hreceiving : s.receivingPacket with
  | true =>
    left
    simp only [announce, hreceiving, if_true]
  | false =>
    cases hhave : s.haveRspPacket with
    | true =>
      have hnext : s.next = .rsp := if_pos hhave
      rw [hnext]
      simp only [announce, hreceiving, hhave, hhandler, Bool.false_eq_true, if_false, if_true,
        and_true]
      split_ifs with hpos
      · exact .inr ⟨trivial, .inl trivial, rfl⟩
      · exact .inl rfl
    | false =>
      have hnext : s.next = .event s.headEvent := if_neg (ne_true_of_eq_false hhave)
      rw [hnext]
      by_cases hevent : (!busy) = true ∧ s.headEvent ≠ s.tailEvent
      · simp only [announce, hreceiving, hhave, hhandler, Bool.false_eq_true, if_false,
          if_pos hevent, and_true]
        split_ifs with hpos
        · exact .inr ⟨trivial, .inr hevent.2, rfl⟩
        · exact .inl rfl
      · left
        simp only [announce, hreceiving, hhave, Bool.false_eq_true, if_false, if_neg hevent]

lemma deliver_none {s : State} (hhandler : s.serPhyEventHandler = true)
    (hhal : s.halRxBuf = none) :
    (deliver s).2 = ([.app, .finish], [.rxPktDropped]) ∧
      (deliver s).1.toReceive = { s.toReceive with receivingPacket := false } := by
  simp only [deliver, hhal, hhandler, if_true, and_self]

lemma deliver_some {s : State} {p : Ptr} (hhandler : s.serPhyEventHandler = true)
    (hhal : s.halRxBuf = some p) :
    (deliver s).2 = ([.app, .finish],
        [.rxPktReceived s.next (payload (s.buffer s.next)) (readLength (s.buffer s.next) 0) p]) ∧
      (deliver s).1.toReceive = { s.popped with halRxBuf := none, receivingPacket := false } := by
  cases hhave : s.haveRspPacket with
  | true =>
    have hnext : s.next = .rsp := if_pos hhave
    have hpopped : s.popped = { s.toReceive with haveRspPacket := false } := if_pos hhave
    rw [hnext, hpopped]
    simp only [deliver, hhal, hhave, if_true]
    split_ifs <;> exact ⟨rfl, rfl⟩
  | false =>
    have hnext : s.next = .event s.headEvent := if_neg (ne_true_of_eq_false hhave)
    have hpopped : s.popped =
        { s.toReceive with headEvent := (s.headEvent + 1) % rxBufferSize } :=
      if_neg (ne_true_of_eq_false hhave)
    rw [hnext, hpopped]
    simp only [deliver, hhal, hhave, Bool.false_eq_true, if_false]
    split_ifs <;> exact ⟨rfl, rfl⟩

/-- The callback of type 17, after `_need_wakeup` has been taken back. -/
lemma effect_wake {stack : List Frame} (hhandler : w.state.serPhyEventHandler = true)
    (hwakes : w.wakes a = true)
    (h : w.after stack (bleSerializationCallback 17 0 { w.state with needWakeup := false }) =
      (w', es)) : Effect c w a w' es := by
  obtain ⟨rfl, rfl⟩ := Prod.mk.inj h
  have hcall : ∀ s : State, bleSerializationCallback 17 0 s =
      deliver { s with nrfSerializationDone := true } := fun _ => rfl
  rw [hcall]
  cases hhal : w.state.halRxBuf with
  | none =>
    obtain ⟨hout, hreceive⟩ := deliver_none (s := { w.state with
      needWakeup := false
      nrfSerializationDone := true }) hhandler hhal
    apply Effect.drop hwakes hhal hreceive
    · simp only [hout]
      rfl
    · simp only [hout]
  | some p =>
    obtain ⟨hout, hreceive⟩ := deliver_some (s := { w.state with
      needWakeup := false
      nrfSerializationDone := true }) hhandler hhal
    refine Effect.deliver p hwakes hhal (hreceive.trans ?_) ?_ ?_
    · simp only [Receive.popped]
      split_ifs <;> rfl
    · simp only [hout]
      rfl
    · simp only [hout]
      rfl

/-- The callback of type 4 and other parts that concern no packet. -/
lemma effect_other {stack : List Frame} {r : State × List Frame × List Event}
    (hreceive : r.1.toReceive = w.state.toReceive) (hstored : stored r.2.2 = [])
    (hreports : reports r.2.2 = []) (h : w.after stack r = (w', es)) : Effect c w a w' es := by
  obtain ⟨rfl, rfl⟩ := Prod.mk.inj h
  exact Effect.other hreceive (foldl_tell hreports w.ask) hstored hreports

lemma effect_queued {stack : List Frame}
    (h : w.after stack (bleSerializationCallback 4 0 { w.state with queuedPackets := false }) =
      (w', es)) : Effect c w a w' es := effect_other rfl rfl rfl h

lemma effect_upcall {callbackType rxLen : ℤ} {stack : List Frame}
    (htype : callbackType = 1 ∨ callbackType = 4)
    (h : w.after stack (bleSerializationCallback callbackType rxLen w.state) = (w', es)) :
    Effect c w a w' es := by
  rcases htype with rfl | rfl
  · have hcall : bleSerializationCallback 1 rxLen w.state =
        txDone { w.state with nrfSerializationDone := true } := rfl
    rw [hcall, txDone] at h
    split_ifs at h
    · exact effect_other rfl rfl rfl h
    · exact effect_other rfl rfl rfl h
  · exact effect_other rfl rfl rfl h

lemma loopRound_of_fits {rxLen : ℤ} {offset n : ℕ} {s : State} (hfits : Fits c rxLen offset s)
    (hn : (readLength s.rx offset).toNat = n) :
    (World.loopRound c rxLen offset s).1 = (storePacket c offset (n + serPhyHeaderSize) s).1 ∧
      (World.loopRound c rxLen offset s).2.2 =
        .packet (slice s.rx (offset + serPhyHeaderSize) n) ::
          (storePacket c offset (n + serPhyHeaderSize) s).2 := by
  rw [World.loopRound, round_of_fits hfits hn]
  exact ⟨rfl, rfl⟩

/-- A packet of the loop is stored or refused. -/
lemma effect_loopRound {busy : Bool} {rxLen : ℤ} {offset : ℕ} {stack : List Frame}
    (hstack : w.stack = .loop rxLen offset :: stack)
    (h : w.after stack (World.loopRound c rxLen offset w.state) = (w', es)) :
    Effect c w (.resume busy) w' es := by
  by_cases hfits : Fits c rxLen offset w.state
  · obtain ⟨rfl, rfl⟩ := Prod.mk.inj h
    obtain ⟨hstate, hes⟩ := loopRound_of_fits hfits rfl
    have hhandled : ∀ dst, w.handled c (.resume busy) = some (payload (memcpy dst w.state.rx offset
        ((readLength w.state.rx offset).toNat + serPhyHeaderSize))).length := by
      intro dst
      simp only [World.handled, hstack, if_pos hfits]
      rw [payload_memcpy rfl, length_slice]
    have hreports := reports_storePacket c offset
      ((readLength w.state.rx offset).toNat + serPhyHeaderSize) w.state
    have hask : (World.loopRound c rxLen offset w.state).2.2.foldl Ask.tell w.ask = w.ask := by
      rw [hes]
      exact foldl_tell hreports w.ask
    have hreceive' := congrArg State.toReceive hstate
    cases storePacket_switched c offset
        ((readLength w.state.rx offset).toNat + serPhyHeaderSize) w.state with
    | rsp htype hfree hreceive hstored =>
      exact .storeRsp _ (hhandled _) hfree (hreceive'.trans hreceive) hask
        ((congrArg stored hes).trans hstored) ((congrArg reports hes).trans hreports)
    | event htype hevt hroom hreceive hstored =>
      exact .storeEvent _ (hhandled _) hroom (hreceive'.trans hreceive) hask
        ((congrArg stored hes).trans hstored) ((congrArg reports hes).trans hreports)
    | refused hrsp hevt hreceive hstored =>
      exact .other (hreceive'.trans hreceive) hask ((congrArg stored hes).trans hstored)
        ((congrArg reports hes).trans hreports)
  · rw [World.loopRound, round_of_not_fits hfits] at h
    exact effect_other rfl rfl rfl h

lemma effect_announce {busy busy' : Bool} {stack : List Frame}
    (hhandler : w.state.serPhyEventHandler = true)
    (h : w.after stack (announce busy w.state) = (w', es)) :
    Effect c w (.resume busy') w' es := by
  rcases announce_cases busy hhandler with hnone | ⟨hidle, hheld, hrequest⟩
  · rw [hnone] at h
    exact effect_other rfl rfl rfl h
  · rw [hrequest] at h
    obtain ⟨rfl, rfl⟩ := Prod.mk.inj h
    exact .request hidle hheld rfl rfl rfl

lemma effect_finish {busy : Bool} {stack : List Frame}
    (hhandler : w.state.serPhyEventHandler = true) (hstack : w.stack = .finish :: stack)
    (h : w.after stack (finish busy w.state) = (w', es)) : Effect c w (.resume busy) w' es := by
  rw [finish] at h
  split_ifs at h with hbusy hwake
  · have hnot : busy = false := by simpa using hbusy
    exact effect_wake hhandler (by simp [World.wakes, hwake, hnot, hstack]) h
  · exact effect_queued h
  · exact effect_other rfl rfl rfl h
  · exact effect_other rfl rfl rfl h

/-- What a call of `ser_phy_tx_pkt_send` does: one of its checks stops it, or it gets to the
kernel. -/
inductive Sending (c : Headers) (busy : Bool) (timer : Option Ptr) (ret : ℤ)
    (buffer : Option Buffer) (numOfBytes : U16) (s : State) : NrfReturn × State × List Event → Prop
  | stopped {r : NrfReturn} (hstop : buffer = none ∨ numOfBytes = 0 ∨ s.txLen ≠ 0)
      (hr : r ≠ .success) (hbusy : r = .errorBusy → s.txLen ≠ 0) :
      Sending c busy timer ret buffer numOfBytes s (r, s, [])
  | reached {b : Buffer} {s₁ : State} {es : List Event} (hbuffer : buffer = some b)
      (hbytes : numOfBytes ≠ 0) (hidle : s.txLen = 0)
      (htimer : startTimeout busy timer s = some (s₁, es))
      (hfits : numOfBytes.toNat + serPhyHeaderSize ≤ c.txMaxPktSize) :
      Sending c busy timer ret buffer numOfBytes s
        (if ret < 0 then .errorInternal else .success,
          { s₁ with
            tx := fun i =>
              if i < serPhyHeaderSize then (le16 numOfBytes).getD i 0
              else if i < numOfBytes.toNat + serPhyHeaderSize then b (i - serPhyHeaderSize)
              else s₁.tx i
            txLen := numOfBytes + BitVec.ofNat 16 serPhyHeaderSize },
          es ++ [.serializationWrite (numOfBytes + BitVec.ofNat 16 serPhyHeaderSize)])

lemma sending {busy : Bool} {timer : Option Ptr} {ret : ℤ} {buffer : Option Buffer}
    {numOfBytes : U16} {s : State} {r : NrfReturn × State × List Event}
    (h : serPhyTxPktSend c busy timer ret buffer numOfBytes s = some r) :
    Sending c busy timer ret buffer numOfBytes s r := by
  cases buffer with
  | none =>
    cases h
    exact .stopped (.inl rfl) (by simp) (by simp)
  | some b =>
    simp only [serPhyTxPktSend, Option.bind_eq_bind] at h
    by_cases hzero : numOfBytes = 0
    · rw [if_pos hzero] at h
      cases h
      exact .stopped (.inr (.inl hzero)) (by simp) (by simp)
    · rw [if_neg hzero] at h
      by_cases hidle : s.txLen = 0
      · rw [if_pos hidle] at h
        obtain ⟨⟨s₁, es⟩, htimer, h⟩ := Option.bind_eq_some_iff.mp h
        obtain ⟨_, hguard, h⟩ := Option.bind_eq_some_iff.mp h
        cases h
        exact .reached rfl hzero hidle htimer (by simpa [guard] using hguard)
      · rw [if_neg hidle] at h
        cases h
        exact .stopped (.inr (.inr hidle)) (by simp) (fun _ => hidle)

lemma startTimeout_cases {busy : Bool} {timer : Option Ptr} {s s₁ : State}
    (h : startTimeout busy timer s = some (s₁, es)) :
    busy = false ∧ s₁ = s ∧ es = [] ∨
      busy = true ∧ ∃ t, timer = some t ∧ s₁ = { s with timeoutTimer := some t } ∧
        es = [.timerIn 100 t] := by
  rw [startTimeout] at h
  cases busy with
  | false =>
    cases h
    exact .inl ⟨rfl, rfl, rfl⟩
  | true =>
    obtain ⟨t, ht, heq⟩ := Option.map_eq_some_iff.mp h
    cases heq
    exact .inr ⟨rfl, t, ht, rfl, rfl⟩

/-- Sending a command does nothing to the packets. -/
lemma serPhyTxPktSend_eq {busy : Bool} {timer : Option Ptr} {ret : ℤ} {buffer : Option Buffer}
    {numOfBytes : U16} {s s' : State} {ret' : NrfReturn}
    (h : serPhyTxPktSend c busy timer ret buffer numOfBytes s = some (ret', s', es)) :
    s'.toReceive = s.toReceive ∧ stored es = [] ∧ reports es = [] := by
  cases sending h with
  | stopped => exact ⟨rfl, rfl, rfl⟩
  | reached hbuffer hbytes hidle htimer =>
    rcases startTimeout_cases htimer with ⟨-, rfl, rfl⟩ | ⟨-, t, -, rfl, rfl⟩
    · exact ⟨rfl, rfl, rfl⟩
    · exact ⟨rfl, rfl, rfl⟩

theorem step_effect (hhandler : w.state.serPhyEventHandler = true)
    (h : w.step c a = some (w', es)) :
    Effect c w a w' es := by
  cases a with
  | serPhyRxBufSet p =>
    rw [World.step] at h
    split_ifs at h
    cases h
    exact .grant p rfl rfl rfl rfl
  | sdAppEvtWait =>
    rw [World.step, sdAppEvtWait] at h
    split_ifs at h with _ hwake
    · exact effect_wake hhandler (by simp [World.wakes, hwake]) (Option.some.inj h)
    · exact effect_queued (Option.some.inj h)
    · exact effect_other rfl rfl rfl (Option.some.inj h)
  | serPhyTxPktSend busy timer ret buffer numOfBytes =>
    rw [World.step] at h
    split_ifs at h
    obtain ⟨⟨ret', s, es'⟩, hsend, h⟩ := Option.map_eq_some_iff.mp h
    obtain ⟨hreceive, hstored, hreports⟩ := serPhyTxPktSend_eq hsend
    exact effect_other hreceive hstored hreports h
  | fill rx =>
    rw [World.step] at h
    split_ifs at h
    cases h
    exact .other rfl rfl rfl rfl
  | upcall callbackType rxLen =>
    rw [World.step] at h
    split_ifs at h with hcall
    exact effect_upcall hcall.2 (Option.some.inj h)
  | timeout =>
    rw [World.step, timeoutTimerCb, if_pos hhandler] at h
    split_ifs at h
    exact effect_other rfl rfl rfl (Option.some.inj h)
  | resume busy =>
    rw [World.step] at h
    split at h
    · cases h
      exact .other rfl rfl rfl rfl
    · split_ifs at h
      cases h
      exact .other rfl rfl rfl rfl
    · cases h
      exact .other rfl rfl rfl rfl
    · next hstack => exact effect_loopRound hstack (Option.some.inj h)
    · exact effect_announce hhandler (Option.some.inj h)
    · next hstack => exact effect_finish hhandler hstack (Option.some.inj h)
    · cases h

end Nrf
