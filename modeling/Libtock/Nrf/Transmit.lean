import Libtock.Nrf.Effect

/-!
# Sending commands

`ser_phy_tx_pkt_send` arms a timer for the response and sets `tx_len`, which says that a
transmission is under way, before the one system call that may fail; when that fails it takes
neither back. It also copies the payload to `tx` without looking at the size of that buffer.
-/

namespace Nrf

open Core Core.Bytes

/-! ### What the kernel has to do -/

/-- The transmissions that the kernel has accepted and not reported as done, and the timers that
run. -/
structure Kernel where
  transmissions : ℕ
  armed : List Ptr

def Kernel.observe (k : Kernel) : Event → Kernel
  | .timerIn _ timer => { k with armed := timer :: k.armed }
  | .timerCancel timer => { k with armed := k.armed.erase timer }
  | _ => k

def Event.isWrite : Event → Bool
  | .serializationWrite _ => true
  | _ => false

/-- An action that concerns neither transmissions nor running timers. -/
def Action.isOther : Action → Bool
  | .serPhyTxPktSend _ _ _ _ _ | .timeout => false
  | .upcall callbackType _ => callbackType ≠ 1
  | _ => true

/-- What an action that emits `es` means for the kernel: it accepts a transmission or refuses it,
reports one as done, or lets a timer expire. -/
inductive Kernel.Serves (k : Kernel) (es : List Event) : Action → Kernel → Prop
  | accepted {busy : Bool} {timer : Option Ptr} {ret : ℤ} {buffer : Option Buffer}
      {numOfBytes : U16} (hwrite : es.any Event.isWrite = true) (hret : 0 ≤ ret) :
      Serves k es (.serPhyTxPktSend busy timer ret buffer numOfBytes)
        { es.foldl observe k with transmissions := k.transmissions + 1 }
  | notAccepted {busy : Bool} {timer : Option Ptr} {ret : ℤ} {buffer : Option Buffer}
      {numOfBytes : U16} (h : es.any Event.isWrite = false ∨ ret < 0) :
      Serves k es (.serPhyTxPktSend busy timer ret buffer numOfBytes) (es.foldl observe k)
  | done {rxLen : ℤ} :
      Serves k es (.upcall 1 rxLen)
        { es.foldl observe k with transmissions := k.transmissions - 1 }
  | expired {t : Ptr} :
      Serves k es .timeout { es.foldl observe k with armed := k.armed.erase t }
  | other {a : Action} (h : a.isOther = true) : Serves k es a (es.foldl observe k)

/-- The transport together with the kernel. -/
structure Link where
  world : World
  kernel : Kernel

namespace Link

def Step (c : Headers) (x : Link) (a : Action) (x' : Link) (es : List Event) : Prop :=
  x.world.step c a = some (x'.world, es) ∧ x.kernel.Serves es a x'.kernel

def initial (rx : Buffer) : Link := ⟨.initial rx, ⟨0, []⟩⟩

/-- The condition on a step: a send that gets to the kernel is accepted. -/
def Accepted (x : Link) : Action → Prop
  | .serPhyTxPktSend _ _ ret buffer numOfBytes =>
    buffer ≠ none → numOfBytes ≠ 0 → x.world.state.txLen = 0 → 0 ≤ ret
  | _ => True

end Link

/-! ### Nothing else changes `tx_len` -/

variable {c : Headers} {s s' : State} {a : Action} {es tr : List Event} {r : NrfReturn}
  {busy : Bool} {timer : Option Ptr} {ret : ℤ} {buffer : Option Buffer} {numOfBytes : U16}

lemma storePacket_txLen (c : Headers) (o pktlen : ℕ) (s : State) :
    (storePacket c o pktlen s).1.txLen = s.txLen := (storePacket_frame c o pktlen s).2.1

lemma loopRound_txLen (c : Headers) (rxLen : ℤ) (o : ℕ) (s : State) :
    (World.loopRound c rxLen o s).1.txLen = s.txLen := by
  by_cases hfits : Fits c rxLen o s
  · obtain ⟨hstate, -⟩ := loopRound_of_fits hfits rfl
    rw [hstate, storePacket_txLen]
  · rw [World.loopRound, round_of_not_fits hfits]

lemma announce_txLen (busy : Bool) (s : State) : (announce busy s).1.txLen = s.txLen := by
  simp only [announce]
  split
  · rfl
  · split_ifs <;> rfl

lemma deliver_txLen (s : State) : (deliver s).1.txLen = s.txLen := by
  simp only [deliver]
  cases s.halRxBuf with
  | none => split_ifs <;> rfl
  | some p => split_ifs <;> rfl

lemma bleSerializationCallback_txLen {callbackType : ℤ} (h : callbackType ≠ 1) (rxLen : ℤ)
    (s : State) : (bleSerializationCallback callbackType rxLen s).1.txLen = s.txLen := by
  rw [bleSerializationCallback, if_neg h]
  split_ifs
  · rfl
  · exact deliver_txLen _
  · rfl

lemma finish_txLen (busy : Bool) (s : State) : (finish busy s).1.txLen = s.txLen := by
  rw [finish]
  split_ifs
  · exact bleSerializationCallback_txLen (by decide) 0 _
  · exact bleSerializationCallback_txLen (by decide) 0 _
  · rfl
  · rfl

lemma sdAppEvtWait_txLen (s : State) : (sdAppEvtWait s).1.txLen = s.txLen := by
  rw [sdAppEvtWait]
  split_ifs
  · exact bleSerializationCallback_txLen (by decide) 0 _
  · exact bleSerializationCallback_txLen (by decide) 0 _
  · rfl

lemma timeoutTimerCb_txLen (s : State) : (timeoutTimerCb s).1.txLen = s.txLen := by
  rw [timeoutTimerCb]
  split_ifs <;> rfl

lemma step_txLen {w w' : World} (hstep : w.step c a = some (w', es))
    (ha : a.isOther = true ∨ a = .timeout) : w'.state.txLen = w.state.txLen := by
  cases a with
  | serPhyTxPktSend => simp [Action.isOther] at ha
  | serPhyRxBufSet p =>
    rw [World.step] at hstep
    split_ifs at hstep
    cases hstep
    rfl
  | sdAppEvtWait =>
    rw [World.step] at hstep
    split_ifs at hstep
    cases hstep
    exact sdAppEvtWait_txLen _
  | fill rx =>
    rw [World.step] at hstep
    split_ifs at hstep
    cases hstep
    rfl
  | upcall callbackType rxLen =>
    rw [World.step] at hstep
    split_ifs at hstep
    cases hstep
    exact bleSerializationCallback_txLen (by simpa [Action.isOther] using ha) _ _
  | timeout =>
    rw [World.step] at hstep
    split_ifs at hstep
    cases hstep
    exact timeoutTimerCb_txLen _
  | resume busy =>
    rw [World.step] at hstep
    split at hstep
    · cases hstep
      rfl
    · split_ifs at hstep
      cases hstep
      rfl
    · cases hstep
      rfl
    · cases hstep
      exact loopRound_txLen _ _ _ _
    · cases hstep
      exact announce_txLen _ _
    · cases hstep
      exact finish_txLen _ _
    · cases hstep

lemma step_send {w w' : World}
    (h : w.step c (.serPhyTxPktSend busy timer ret buffer numOfBytes) = some (w', es)) :
    ∃ r, serPhyTxPktSend c busy timer ret buffer numOfBytes w.state = some (r, w'.state, es) := by
  rw [World.step] at h
  split_ifs at h
  obtain ⟨⟨r, s', es'⟩, hsend, h⟩ := Option.map_eq_some_iff.mp h
  cases h
  exact ⟨r, hsend⟩

/-! ### A failed send -/

lemma Kernel.foldl_observe_transmissions (k : Kernel) (es : List Event) :
    (es.foldl observe k).transmissions = k.transmissions := by
  induction es generalizing k with
  | nil => rfl
  | cons e es ih => exact (ih _).trans (by cases e <;> rfl)

namespace Link

variable {x x' : Link}

/-- While `tx_len` is set, the kernel has a transmission to report as done. -/
def Busy (x : Link) : Prop := x.world.state.txLen ≠ 0 → 0 < x.kernel.transmissions

lemma Busy.step (h : x.Busy) (hacc : x.Accepted a) (hstep : Step c x a x' es) : x'.Busy := by
  obtain ⟨hworld, hserves⟩ := hstep
  obtain ⟨w', k'⟩ := x'
  cases hserves with
  | accepted => exact fun _ => Nat.succ_pos _
  | notAccepted hnot =>
    obtain ⟨r, hsend⟩ := step_send hworld
    rw [Busy, Kernel.foldl_observe_transmissions]
    generalize hresult : (r, w'.state, es) = result at hsend
    cases sending hsend with
    | stopped =>
      obtain ⟨-, hstate, -⟩ : _ ∧ w'.state = x.world.state ∧ _ := by simpa using hresult
      rw [hstate]
      exact h
    | reached hbuffer hbytes hidle =>
      have hret := hacc (by simp [hbuffer]) hbytes hidle
      obtain ⟨-, -, rfl⟩ : _ ∧ _ ∧ es = _ := by simpa using hresult
      exact absurd hnot (by simp [Event.isWrite, hret])
  | @done rxLen =>
    rw [World.step] at hworld
    split_ifs at hworld
    cases hworld
    have hzero : (bleSerializationCallback 1 rxLen x.world.state).1.txLen = 0 := by
      rw [bleSerializationCallback, if_pos rfl, txDone]
      split_ifs <;> rfl
    exact fun hne => absurd hzero hne
  | expired =>
    rw [Busy, step_txLen hworld (.inr rfl), Kernel.foldl_observe_transmissions]
    exact h
  | other hother =>
    rw [Busy, step_txLen hworld (.inl hother), Kernel.foldl_observe_transmissions]
    exact h

end Link

/-- In every run in which the kernel accepts each send that gets to it, a send that it would accept
and that fails changes neither `tx_len` nor the timers that run, and `NRF_ERROR_BUSY` is returned
only while a transmission that was accepted is outstanding. A send that is refused leaves `tx_len`
set. -/
theorem send_keeps_transmitter {rx : Buffer} {x : Link}
    (hrun : Run (Guarded (Link.Step c) Link.Accepted) (.initial rx) tr x)
    (hsend : serPhyTxPktSend c busy timer ret buffer numOfBytes x.world.state = some (r, s', es)) :
    (x.Accepted (.serPhyTxPktSend busy timer ret buffer numOfBytes) → r ≠ .success →
        s'.txLen = x.world.state.txLen ∧
          (es.foldl Kernel.observe x.kernel).armed = x.kernel.armed) ∧
      (r = .errorBusy → 0 < x.kernel.transmissions) ∧
      (¬ x.Accepted (.serPhyTxPktSend busy timer ret buffer numOfBytes) →
        numOfBytes.toNat + serPhyHeaderSize < 2 ^ 16 →
          r ≠ .success ∧ s'.txLen ≠ x.world.state.txLen) := by
  have hbusy : x.Busy := hrun.trace_invariant (fun _ x => x.Busy)
    (fun _ _ _ _ _ h hstep => h.step hstep.1 hstep.2) fun hne => absurd rfl hne
  generalize hresult : (r, s', es) = result at hsend
  cases sending hsend with
  | stopped hstop hr hbusyTx =>
    cases hresult
    refine ⟨fun _ _ => ⟨rfl, rfl⟩, fun h => hbusy (hbusyTx h), fun hacc => ?_⟩
    refine absurd (fun hbuffer hbytes hidle => ?_) hacc
    rcases hstop with hnone | hzero | hset
    · exact absurd hnone hbuffer
    · exact absurd hzero hbytes
    · exact absurd hidle hset
  | reached hbuffer hbytes hidle =>
    cases hresult
    have hnotBusy : (if ret < 0 then NrfReturn.errorInternal else .success) ≠ .errorBusy := by
      split_ifs <;> decide
    refine ⟨fun hacc hr => ?_, fun h => absurd h hnotBusy, fun hacc hlt => ⟨?_, ?_⟩⟩
    · have hret := hacc (by simp [hbuffer]) hbytes hidle
      rw [if_neg (not_lt.mpr hret)] at hr
      exact absurd rfl hr
    · have hret : ret < 0 := by
        by_contra hret
        exact hacc fun _ _ _ => not_lt.mp hret
      rw [if_pos hret]
      decide
    · rw [hidle]
      have hsize : serPhyHeaderSize = 2 := rfl
      rw [hsize] at hlt
      bv_omega

/-- A packet is on its way, and another one is refused as long. -/
theorem send_keeps_transmitter_busy :
    ∃ tr x, Run (Guarded (Link.Step sampleHeaders) Link.Accepted) (.initial fun _ => 0) tr x ∧
      serPhyTxPktSend sampleHeaders false none 0 (some fun _ => 7) 1 x.world.state =
        some (.errorBusy, x.world.state, []) ∧
      0 < x.kernel.transmissions := by
  let w := World.initial fun _ => 0
  let send : Action := .serPhyTxPktSend true (some 1) 0 (some fun _ => 7) 1
  let x : Link := ⟨((w.step sampleHeaders send).getD (w, [])).1, ⟨1, [1]⟩⟩
  have hstep : Guarded (Link.Step sampleHeaders) Link.Accepted (.initial fun _ => 0) send x
      [.timerIn 100 1, .serializationWrite 3] := ⟨fun _ _ _ => le_rfl, rfl, .accepted rfl le_rfl⟩
  have hrun := Run.single hstep
  have hsend : serPhyTxPktSend sampleHeaders false none 0 (some fun _ => 7) 1 x.world.state =
      some (.errorBusy, x.world.state, []) := rfl
  exact ⟨_, x, hrun, hsend, (send_keeps_transmitter hrun hsend).2.1 rfl⟩

/-- When the kernel refuses a transmission, the next send is refused because of it, and its timer
is left running. -/
theorem send_poisons_transmitter :
    ¬ ∀ tr x, Run (Link.Step sampleHeaders) (.initial fun _ => 0) tr x →
      ∀ busy timer ret buffer numOfBytes r s' es,
        serPhyTxPktSend sampleHeaders busy timer ret buffer numOfBytes x.world.state =
            some (r, s', es) →
          (r ≠ .success → s'.txLen = x.world.state.txLen ∧
            (es.foldl Kernel.observe x.kernel).armed = x.kernel.armed) ∧
          (r = .errorBusy → 0 < x.kernel.transmissions) := by
  intro h
  let w := World.initial fun _ => 0
  let send : Action := .serPhyTxPktSend true (some 1) (-2) (some fun _ => 7) 1
  let x : Link := ⟨((w.step sampleHeaders send).getD (w, [])).1, ⟨0, [1]⟩⟩
  have hstep : Link.Step sampleHeaders (.initial fun _ => 0) send x
      [.timerIn 100 1, .serializationWrite 3] := ⟨rfl, .notAccepted (.inr (by decide))⟩
  have hbusy := (h _ x (Run.single hstep) false none 0 (some fun _ => 7) 1 .errorBusy _ _ rfl).2 rfl
  exact absurd hbusy (lt_irrefl 0)

/-! ### The packet in `tx` -/

/-- The call comes to `return NRF_SUCCESS;`, wherever its writes have gone: its checks let it pass,
there is memory for a timer, and the kernel accepts the transmission. -/
def ReturnsSuccess (busy : Bool) (timer : Option Ptr) (ret : ℤ) (numOfBytes : U16) (s : State) :
    Prop :=
  numOfBytes ≠ 0 ∧ s.txLen = 0 ∧ (busy = true → timer.isSome) ∧ 0 ≤ ret

/-- What is sent is one packet, with the payload behind `buffer`. -/
structure Framed (buffer : Buffer) (numOfBytes : U16) (s : State) : Prop where
  length : s.txLen.toNat = numOfBytes.toNat + serPhyHeaderSize
  decoded : Framing.split packetHeader (slice s.tx 0 s.txLen.toNat) =
    ([slice buffer 0 numOfBytes.toNat], [])

/-- The contents of `tx` once the packet has been put together there. -/
def packetOf (buffer old : Buffer) (numOfBytes : U16) : Buffer := fun i =>
  if i < serPhyHeaderSize then (le16 numOfBytes).getD i 0
  else if i < numOfBytes.toNat + serPhyHeaderSize then buffer (i - serPhyHeaderSize)
  else old i

lemma slice_packetOf (buffer old : Buffer) (numOfBytes : U16) :
    slice (packetOf buffer old numOfBytes) 0 (numOfBytes.toNat + serPhyHeaderSize) =
      le16 numOfBytes ++ slice buffer 0 numOfBytes.toNat := by
  have hlen : (le16 numOfBytes).length = serPhyHeaderSize := rfl
  apply List.ext_getElem
  · rw [List.length_append, length_slice, length_slice, hlen, add_comm]
  · intro i hi hi'
    rw [length_slice] at hi
    simp only [slice, packetOf, List.getElem_map, List.getElem_range, zero_add]
    by_cases hhead : i < serPhyHeaderSize
    · rw [if_pos hhead, List.getElem_append_left (hlen ▸ hhead)]
      simp [hlen, hhead]
    · have hle : (le16 numOfBytes).length ≤ i := hlen ▸ not_lt.mp hhead
      rw [if_neg hhead, if_pos hi, List.getElem_append_right hle]
      simp [hlen]

lemma split_packet {buffer : Buffer} (hbytes : numOfBytes ≠ 0) :
    Framing.split packetHeader (le16 numOfBytes ++ slice buffer 0 numOfBytes.toNat) =
      ([slice buffer 0 numOfBytes.toNat], []) := by
  have hne : slice buffer 0 numOfBytes.toNat ≠ [] := by
    rw [← List.length_pos_iff, length_slice]
    exact Nat.pos_of_ne_zero fun h => hbytes (BitVec.eq_of_toNat_eq h)
  have hlength : packetHeader.length (le16 numOfBytes) =
      (slice buffer 0 numOfBytes.toNat).length := by
    rw [length_slice]
    exact congrArg BitVec.toNat (join_split numOfBytes)
  have hnil : Framing.split packetHeader [] = ([], []) :=
    Framing.split_of_not_starts fun h => absurd h.1 (by decide)
  calc Framing.split packetHeader (le16 numOfBytes ++ slice buffer 0 numOfBytes.toNat)
      = Framing.split packetHeader (le16 numOfBytes ++ slice buffer 0 numOfBytes.toNat ++ []) := by
        rw [List.append_nil]
    _ = ([slice buffer 0 numOfBytes.toNat], []) := by
        rw [Framing.split_append rfl hlength hne, hnil]

lemma startTimeout_of_memory (h : busy = true → timer.isSome) :
    ∃ s₁ es, startTimeout busy timer s = some (s₁, es) := by
  cases busy with
  | false => exact ⟨s, [], rfl⟩
  | true =>
    obtain ⟨t, rfl⟩ := Option.isSome_iff_exists.mp (h rfl)
    exact ⟨_, _, rfl⟩

/-- A call that comes to its end has written inside `tx` only, and what is sent decodes to its
payload, if and only if the packet with its header fits in `tx` and its length in 16 bits. -/
theorem send_framed_iff {buffer : Buffer} (h : ReturnsSuccess busy timer ret numOfBytes s) :
    (∃ s' es, serPhyTxPktSend c busy timer ret (some buffer) numOfBytes s =
        some (.success, s', es) ∧ Framed buffer numOfBytes s') ↔
      numOfBytes.toNat + serPhyHeaderSize ≤ c.txMaxPktSize ∧
        numOfBytes.toNat + serPhyHeaderSize < 2 ^ 16 := by
  obtain ⟨hbytes, hidle, htimer, hret⟩ := h
  constructor
  · rintro ⟨s', es, hsend, hframed⟩
    refine ⟨?_, hframed.length ▸ s'.txLen.isLt⟩
    generalize hresult : (NrfReturn.success, s', es) = result at hsend
    cases sending hsend with
    | stopped _ hr =>
      cases hresult
      exact absurd rfl hr
    | reached _ _ _ _ hfits => exact hfits
  · rintro ⟨hfits, hlt⟩
    obtain ⟨s₁, es, hstart⟩ := startTimeout_of_memory (s := s) htimer
    have hlength : (numOfBytes + BitVec.ofNat 16 serPhyHeaderSize).toNat =
        numOfBytes.toNat + serPhyHeaderSize := by
      rw [BitVec.toNat_add]
      exact Nat.mod_eq_of_lt hlt
    let s' := { s₁ with
      tx := packetOf buffer s₁.tx numOfBytes
      txLen := numOfBytes + BitVec.ofNat 16 serPhyHeaderSize }
    have hsend : serPhyTxPktSend c busy timer ret (some buffer) numOfBytes s =
        some (.success, s', es ++ [.serializationWrite s'.txLen]) := by
      rw [serPhyTxPktSend, if_neg hbytes, if_pos hidle, hstart, if_neg (not_lt.mpr hret)]
      simp only [guard, if_pos hfits]
      rfl
    refine ⟨s', _, hsend, hlength, ?_⟩
    rw [hlength, slice_packetOf, split_packet hbytes]

/-- One byte goes out as a packet of three. -/
theorem send_framed_byte :
    ∃ s' es, serPhyTxPktSend sampleHeaders false none 0 (some fun _ => 7) 1
        (World.initial fun _ => 0).state = some (.success, s', es) ∧
      Framed (fun _ => 7) 1 s' :=
  (send_framed_iff ⟨by decide, rfl, by simp, le_rfl⟩).mpr ⟨by decide, by decide⟩

/-- A packet as long as `tx` leaves no room for its header: the copy runs past the buffer. -/
theorem send_not_framed :
    ¬ ∀ (busy : Bool) (timer : Option Ptr) (ret : ℤ) (buffer : Buffer) (numOfBytes : U16)
        (s : State), ReturnsSuccess busy timer ret numOfBytes s →
      ∃ s' es, serPhyTxPktSend sampleHeaders busy timer ret (some buffer) numOfBytes s =
          some (.success, s', es) ∧ Framed buffer numOfBytes s' := by
  intro h
  let s := (World.initial fun _ => 0).state
  have hreturns : ReturnsSuccess false none 0 384 s := ⟨by decide, rfl, by simp, le_rfl⟩
  obtain ⟨s', es, hsend, -⟩ := h false none 0 (fun _ => 7) 384 s hreturns
  have hnone : serPhyTxPktSend sampleHeaders false none 0 (some fun _ => 7) 384 s = none := rfl
  cases hnone.symm.trans hsend

end Nrf
