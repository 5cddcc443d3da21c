import Libtock.Nrf.Effect

/-!
# The packet of a request

As long as the upper layer answers each request once, the packet that a buffer was requested for
stays where it is until a packet is reported, and what is kept is what was stored and has not been
delivered.
-/

namespace Nrf

open Core

variable {c : Headers} {w w' : World} {a : Action} {es : List Event} {rcv : Receive} {r : Request}
  {buf : Buffer}

/-- A buffer is set only as the answer to a request, and once. -/
def World.oneGrant (w : World) : Action → Bool
  | .serPhyRxBufSet _ => w.ask.isRequested
  | _ => true

/-- No request is answered with a null pointer. -/
def Action.nonNull : Action → Bool
  | .serPhyRxBufSet p => p.isSome
  | _ => true

namespace Receive

/-- The packet of the request is where it was requested for. -/
def Holds (rcv : Receive) (r : Request) : Prop :=
  (r.src = .rsp ∧ rcv.haveRspPacket = true ∨
    r.src = .event rcv.headEvent ∧ rcv.headEvent ≠ rcv.tailEvent) ∧
  payload (rcv.buffer r.src) = r.payload ∧ readLength (rcv.buffer r.src) 0 = r.numOfBytes

lemma Holds.storeRsp (h : rcv.Holds r) (hfree : rcv.haveRspPacket = false) :
    (rcv.storeRsp buf).Holds r := by
  obtain ⟨⟨-, hhave⟩ | hevent, hbuffer⟩ := h
  · simp [hfree] at hhave
  · refine ⟨.inr hevent, ?_⟩
    rw [hevent.1] at hbuffer ⊢
    exact hbuffer

lemma Holds.storeEvent (h : rcv.Holds r)
    (hroom : (rcv.tailEvent + 1) % rxBufferSize ≠ rcv.headEvent) :
    (rcv.storeEvent buf).Holds r := by
  obtain ⟨hrsp | ⟨hsrc, hne⟩, hbuffer⟩ := h
  · refine ⟨.inl hrsp, ?_⟩
    rw [hrsp.1] at hbuffer ⊢
    exact hbuffer
  · have hslot : (rcv.storeEvent buf).buffer (.event rcv.headEvent) =
        rcv.buffer (.event rcv.headEvent) := Function.update_of_ne hne _ _
    refine ⟨.inr ⟨hsrc, hroom.symm⟩, ?_⟩
    rw [hsrc] at hbuffer ⊢
    rwa [hslot]

/-- The packet that is delivered is the one of the request, unless that is an event and a response
has come. -/
lemma Holds.eq_next (h : rcv.Holds r)
    (hrsp : ∀ slot, r.src = .event slot → rcv.haveRspPacket = false) :
    r = ⟨rcv.next, payload (rcv.buffer rcv.next), readLength (rcv.buffer rcv.next) 0⟩ := by
  have hnext : rcv.next = r.src := by
    obtain ⟨⟨hsrc, hhave⟩ | ⟨hsrc, -⟩, -⟩ := h
    · rw [hsrc]
      exact if_pos hhave
    · rw [hsrc]
      exact if_neg (ne_true_of_eq_false (hrsp _ hsrc))
  rw [hnext, h.2.1, h.2.2]

/-- Some packet is kept. -/
lemma Holds.held (h : rcv.Holds r) :
    rcv.haveRspPacket = true ∨ rcv.headEvent ≠ rcv.tailEvent := h.1.imp And.right And.right

end Receive

namespace Ask

lemma isRequested_iff {a : Ask} : a.isRequested = true ↔ ∃ r, a = requested r := by
  cases a <;> simp [isRequested]

/-- The flags say how far the upper layer is with the last request, and its packet is kept. -/
def Agrees (rcv : Receive) : Ask → Prop
  | idle => rcv.receivingPacket = false ∧ rcv.needWakeup = false
  | requested r => rcv.receivingPacket = true ∧ rcv.needWakeup = false ∧ rcv.Holds r
  | granted r => rcv.receivingPacket = true ∧ rcv.needWakeup = true ∧ rcv.Holds r

/-- A packet that is stored changes neither the flags nor the packet of the request. -/
lemma Agrees.congr {rcv' : Receive} {a : Ask} (h : a.Agrees rcv)
    (hreceiving : rcv'.receivingPacket = rcv.receivingPacket)
    (hwakeup : rcv'.needWakeup = rcv.needWakeup) (hholds : ∀ r, rcv.Holds r → rcv'.Holds r) :
    a.Agrees rcv' := by
  cases a with
  | idle => exact ⟨hreceiving.trans h.1, hwakeup.trans h.2⟩
  | requested r => exact ⟨hreceiving.trans h.1, hwakeup.trans h.2.1, hholds r h.2.2⟩
  | granted r => exact ⟨hreceiving.trans h.1, hwakeup.trans h.2.1, hholds r h.2.2⟩

lemma Agrees.granted_of_needWakeup {a : Ask} (h : a.Agrees rcv) (hwakeup : rcv.needWakeup = true) :
    ∃ r, a = granted r ∧ rcv.Holds r := by
  cases a with
  | idle => exact absurd (h.2.symm.trans hwakeup) Bool.false_ne_true
  | requested r => exact absurd (h.2.1.symm.trans hwakeup) Bool.false_ne_true
  | granted r => exact ⟨r, rfl, h.2.2⟩

lemma Agrees.idle_of_not_receiving {a : Ask} (h : a.Agrees rcv)
    (hreceiving : rcv.receivingPacket = false) : a = idle ∧ rcv.needWakeup = false := by
  cases a with
  | idle => exact ⟨rfl, h.2⟩
  | requested r => exact absurd (hreceiving.symm.trans h.1) Bool.false_ne_true
  | granted r => exact absurd (hreceiving.symm.trans h.1) Bool.false_ne_true

end Ask

structure Inv (rcv : Receive) (ask : Ask) : Prop where
  indices : rcv.Indices
  handler : rcv.serPhyEventHandler = true
  agrees : ask.Agrees rcv

lemma initial_inv (rx : Buffer) :
    Inv (World.initial rx).state.toReceive (World.initial rx).ask :=
  ⟨⟨Nat.zero_lt_succ 4, Nat.zero_lt_succ 4⟩, rfl, rfl, rfl⟩

lemma initial_kept (rx : Buffer) : (World.initial rx).state.kept = ⟨none, []⟩ := by
  simp [Receive.kept, World.initial, Ring.contents, Ring.size]

namespace Receive

lemma Indices.popped (h : rcv.Indices) : rcv.popped.Indices := by
  rw [Receive.popped]
  split_ifs
  · exact h
  · exact ⟨Nat.mod_lt _ (by decide), h.2⟩

lemma popped_handler (rcv : Receive) :
    rcv.popped.serPhyEventHandler = rcv.serPhyEventHandler := by
  rw [popped]
  split_ifs <;> rfl

lemma next_cases (h : rcv.haveRspPacket = true ∨ rcv.headEvent ≠ rcv.tailEvent) :
    rcv.next = .rsp ∧ rcv.haveRspPacket = true ∨
      rcv.next = .event rcv.headEvent ∧ rcv.headEvent ≠ rcv.tailEvent := by
  cases hhave : rcv.haveRspPacket with
  | true => exact .inl ⟨if_pos hhave, rfl⟩
  | false =>
    refine .inr ⟨if_neg (ne_true_of_eq_false hhave), ?_⟩
    simpa [hhave] using h

end Receive

/-- Every step keeps the invariant. -/
lemma Inv.step (h : Inv w.state.toReceive w.ask) (hone : w.oneGrant a = true)
    (hstep : w.step c a = some (w', es)) : Inv w'.state.toReceive w'.ask := by
  obtain ⟨hindices, hhandler, hagrees⟩ := h
  cases step_effect hhandler hstep with
  | other hreceive hask =>
    rw [hreceive, hask]
    exact ⟨hindices, hhandler, hagrees⟩
  | grant p ha hreceive hask =>
    subst ha
    obtain ⟨r, hr⟩ := Ask.isRequested_iff.mp hone
    rw [hr] at hagrees hask
    rw [hreceive, hask]
    exact ⟨hindices, hhandler, hagrees.1, rfl, hagrees.2.2⟩
  | storeRsp buf hhandled hfree hreceive hask =>
    rw [hreceive, hask]
    exact ⟨hindices, hhandler, hagrees.congr rfl rfl fun r hr => hr.storeRsp hfree⟩
  | storeEvent buf hhandled hroom hreceive hask =>
    rw [hreceive, hask]
    refine ⟨⟨hindices.1, Nat.mod_lt _ (by decide)⟩, hhandler, ?_⟩
    exact hagrees.congr rfl rfl fun r hr => hr.storeEvent hroom
  | request hidle hheld hreceive hask =>
    obtain ⟨-, hwakeup⟩ := hagrees.idle_of_not_receiving hidle
    rw [hreceive, hask]
    exact ⟨hindices, hhandler, rfl, hwakeup, Receive.next_cases hheld, rfl, rfl⟩
  | deliver p hwakes hhal hreceive hask =>
    rw [hreceive, hask]
    exact ⟨hindices.popped, (Receive.popped_handler _).trans hhandler, rfl, rfl⟩
  | drop hwakes hhal hreceive hask =>
    rw [hreceive, hask]
    exact ⟨hindices, hhandler, rfl, rfl⟩

/-! ### What is kept -/

namespace Receive

/-- When a packet is delivered, it was the response, or the oldest event. -/
lemma kept_of_held (h : rcv.Indices)
    (hheld : rcv.haveRspPacket = true ∨ rcv.headEvent ≠ rcv.tailEvent) :
    rcv.next = .rsp ∧ rcv.kept.rsp = some (payload (rcv.buffer rcv.next)) ∧
        rcv.popped.kept = { rcv.kept with rsp := none } ∨
      rcv.next = .event rcv.headEvent ∧ rcv.popped.kept.rsp = rcv.kept.rsp ∧
        rcv.kept.events = payload (rcv.buffer rcv.next) :: rcv.popped.kept.events := by
  cases hhave : rcv.haveRspPacket with
  | true =>
    left
    have hnext : rcv.next = .rsp := if_pos hhave
    have hpopped : rcv.popped = { rcv with haveRspPacket := false } := if_pos hhave
    rw [hnext, hpopped]
    exact ⟨rfl, if_pos hhave, rfl⟩
  | false =>
    right
    have hne : rcv.headEvent ≠ rcv.tailEvent := by simpa [hhave] using hheld
    have hnext : rcv.next = .event rcv.headEvent := if_neg (ne_true_of_eq_false hhave)
    have hpopped : rcv.popped = { rcv with headEvent := (rcv.headEvent + 1) % rxBufferSize } :=
      if_neg (ne_true_of_eq_false hhave)
    rw [hnext, hpopped]
    refine ⟨rfl, rfl, ?_⟩
    rw [kept, Ring.contents_pop _ h.1 h.2 hne]
    rfl

end Receive

/-- A packet is delivered or dropped only after a buffer has been granted for one that is kept. -/
lemma Inv.granted_of_wakes (hinv : Inv w.state.toReceive w.ask) (hwakes : w.wakes a = true) :
    ∃ r, w.ask = .granted r ∧ w.state.Holds r :=
  hinv.agrees.granted_of_needWakeup (World.needWakeup_of_wakes hwakes)

/-- What becomes of the packets that are kept, with those that are stored and those delivered. -/
inductive Moves (k k' : Kept) (ins outs : List (Source × List U8)) : Prop
  | nothing (hkept : k' = k) (hins : ins = []) (houts : outs = [])
  | storeRsp (p : List U8) (hfree : k.rsp = none) (hkept : k' = { k with rsp := some p })
      (hins : ins = [(.rsp, p)]) (houts : outs = [])
  | storeEvent (slot : ℕ) (p : List U8) (hkept : k' = { k with events := k.events ++ [p] })
      (hins : ins = [(.event slot, p)]) (houts : outs = [])
  | deliverRsp (p : List U8) (hrsp : k.rsp = some p) (hkept : k' = { k with rsp := none })
      (hins : ins = []) (houts : outs = [(.rsp, p)])
  | deliverEvent (slot : ℕ) (p : List U8) (hevents : k.events = p :: k'.events)
      (hrsp : k'.rsp = k.rsp) (hins : ins = []) (houts : outs = [(.event slot, p)])

/-- Every step does one of these to what is kept. -/
lemma Inv.moves (hinv : Inv w.state.toReceive w.ask) (hstep : w.step c a = some (w', es)) :
    Moves w.state.kept w'.state.kept (stored es) (received es) := by
  cases step_effect hinv.handler hstep with
  | other hreceive hask hstored hreports =>
    exact .nothing (congrArg Receive.kept hreceive) hstored (received_of_reports hreports)
  | grant p ha hreceive hask hes =>
    rw [hreceive, hes]
    exact .nothing rfl rfl rfl
  | storeRsp buf hhandled hfree hreceive hask hstored hreports =>
    apply Moves.storeRsp _ (w.state.kept_rsp_eq_none_iff.mpr hfree) _ hstored
    · exact received_of_reports hreports
    · rw [hreceive, Receive.kept_storeRsp]
  | storeEvent buf hhandled hroom hreceive hask hstored hreports =>
    apply Moves.storeEvent _ _ _ hstored
    · exact received_of_reports hreports
    · rw [hreceive, Receive.kept_storeEvent hinv.indices hroom]
  | request hidle hheld hreceive hask hes =>
    rw [hreceive, hes]
    exact .nothing rfl rfl rfl
  | deliver p hwakes hhal hreceive hask hes =>
    obtain ⟨r, -, hholds⟩ := hinv.granted_of_wakes hwakes
    have hkept : w'.state.kept = w.state.popped.kept := by
      rw [hreceive]
      rfl
    rw [hkept, hes]
    rcases Receive.kept_of_held hinv.indices hholds.held with
      ⟨hnext, hrsp, hpop⟩ | ⟨hnext, hrsp, hpop⟩
    · rw [hnext] at hrsp ⊢
      exact .deliverRsp _ hrsp hpop rfl rfl
    · rw [hnext] at hpop ⊢
      exact .deliverEvent _ _ hpop hrsp rfl rfl
  | drop hwakes hhal hreceive hask hes =>
    rw [hreceive, hes]
    exact .nothing rfl rfl rfl

end Nrf
