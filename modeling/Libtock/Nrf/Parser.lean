import Libtock.Core.Framing
import Libtock.Core.Ring
import Libtock.Nrf.Serialization

/-!
# What the packet loop keeps

The loop handles the packets at the start of what was received, in order, and keeps responses and
events while there is room. It stops at a packet that is not complete, but not at one of length 0,
whose type it reads behind the packet.
-/

namespace Nrf

open Core Core.Bytes

variable {c : Headers} {s : State} {buf dst : Buffer} {rxLen : ℤ} {offset o n k : ℕ}

/-! ### Parts of a buffer -/

@[simp] lemma length_slice (buf : Buffer) (o n : ℕ) : (slice buf o n).length = n := by
  simp [slice]

lemma drop_slice (buf : Buffer) (o n k : ℕ) :
    (slice buf o n).drop k = slice buf (o + k) (n - k) := by
  apply List.ext_getElem
  · simp
  · intro i h h'
    simp [slice, add_assoc]

lemma take_slice (buf : Buffer) (o : ℕ) (h : k ≤ n) :
    (slice buf o n).take k = slice buf o k := by
  apply List.ext_getElem
  · simpa using h
  · intro i h h'
    simp [slice]

lemma slice_congr {buf' : Buffer} (h : ∀ i, o ≤ i → i < o + n → buf i = buf' i) :
    slice buf o n = slice buf' o n := by
  apply List.map_congr_left
  intro i hi
  have hi' := List.mem_range.mp hi
  exact h (o + i) (by omega) (by omega)

lemma readLength_memcpy (h : serPhyHeaderSize ≤ n) :
    readLength (memcpy dst buf o n) 0 = readLength buf o := by
  have h0 : 0 < n := Nat.lt_of_lt_of_le (by decide) h
  have h1 : 0 + 1 < n := Nat.lt_of_lt_of_le (by decide) h
  simp only [readLength, memcpy, if_pos h0, if_pos h1, add_zero, zero_add]

/-- A copied packet has the payload of the original. -/
lemma payload_memcpy (hn : (readLength buf o).toNat = n) :
    payload (memcpy dst buf o (n + serPhyHeaderSize)) = slice buf (o + serPhyHeaderSize) n := by
  rw [payload, readLength_memcpy (Nat.le_add_left serPhyHeaderSize n), hn]
  apply List.map_congr_left
  intro i hi
  have hlt : serPhyHeaderSize + i < n + serPhyHeaderSize := by
    rw [List.mem_range] at hi
    omega
  rw [memcpy, if_pos hlt, add_assoc]

/-- Two bytes of length, low byte first. -/
def packetHeader : Framing.Header U8 where
  size := serPhyHeaderSize
  length := fun l => (join (l.getD 0 0) (l.getD 1 0)).toNat

lemma announced_slice (h : serPhyHeaderSize ≤ n) :
    packetHeader.announced (slice buf o n) = (readLength buf o).toNat := by
  have htake : (slice buf o n).take serPhyHeaderSize = [buf o, buf (o + 1)] := by
    rw [take_slice buf o h]
    rfl
  have hdef : packetHeader.announced (slice buf o n) =
      (join (((slice buf o n).take serPhyHeaderSize).getD 0 0)
        (((slice buf o n).take serPhyHeaderSize).getD 1 0)).toNat := rfl
  rw [hdef, htake]
  rfl

/-! ### The packets that are kept -/

/-- The payloads of the packets that wait for the upper layer. -/
structure Kept where
  rsp : Option (List U8)
  events : List (List U8)

def Receive.kept (r : Receive) : Kept where
  rsp := if r.haveRspPacket then some (payload r.rxRspBuffer) else none
  events := (Ring.contents rxBufferSize r.rxEventBuffers r.headEvent r.tailEvent).map payload

/-- The type of a response. -/
def Headers.IsRsp (c : Headers) (t : U8) : Prop := t = c.resp ∨ t = c.dtmResp

instance (c : Headers) (t : U8) : Decidable (c.IsRsp t) := inferInstanceAs (Decidable (_ ∨ _))

/-- A response is kept if there is none, an event if there are fewer than four. -/
def Kept.keep (c : Headers) (k : Kept) (p : List U8) : Kept :=
  let packetType := p.headD 0
  if c.IsRsp packetType then
    if k.rsp = none then { k with rsp := some p } else k
  else if packetType = c.evt then
    if k.events.length < rxBufferSize - 1 then { k with events := k.events ++ [p] } else k
  else k

/-- The indices of the ring are those of slots. -/
def Receive.Indices (r : Receive) : Prop := r.headEvent < rxBufferSize ∧ r.tailEvent < rxBufferSize

/-- A response is stored in the one buffer. -/
def Receive.storeRsp (buf : Buffer) (r : Receive) : Receive :=
  { r with haveRspPacket := true, rxRspBuffer := buf }

/-- An event is stored in the ring. -/
def Receive.storeEvent (buf : Buffer) (r : Receive) : Receive :=
  { r with
    rxEventBuffers := Function.update r.rxEventBuffers r.tailEvent buf
    tailEvent := (r.tailEvent + 1) % rxBufferSize }

lemma Receive.kept_storeRsp (r : Receive) :
    (r.storeRsp buf).kept = { r.kept with rsp := some (payload buf) } := rfl

lemma Receive.kept_storeEvent {r : Receive} (h : r.Indices)
    (hroom : (r.tailEvent + 1) % rxBufferSize ≠ r.headEvent) :
    (r.storeEvent buf).kept = { r.kept with events := r.kept.events ++ [payload buf] } := by
  have hpush := Ring.contents_push r.rxEventBuffers buf h.1 h.2 hroom
  rw [kept, storeEvent, hpush, List.map_append]
  rfl

lemma Receive.kept_rsp_eq_none_iff (r : Receive) : r.kept.rsp = none ↔ r.haveRspPacket = false := by
  cases h : r.haveRspPacket <;> simp [kept, h]

/-- The ring is full when four events wait. -/
lemma Receive.kept_events_length_lt_iff {r : Receive} (h : r.Indices) :
    r.kept.events.length < rxBufferSize - 1 ↔
      (r.tailEvent + 1) % rxBufferSize ≠ r.headEvent := by
  have hsize := Ring.size_lt h.1 h.2
  rw [Ne, Ring.next_eq_cur_iff h.1 h.2, kept, List.length_map, Ring.length_contents]
  omega

/-- The packets that a list of events stores. -/
def stored (es : List Event) : List (Source × List U8) :=
  es.filterMap fun
    | .stored src p => some (src, p)
    | _ => none

/-- The packets that the loop has come to. -/
def packets (es : List Event) : List (List U8) :=
  es.filterMap fun
    | .packet p => some p
    | _ => none

@[simp] lemma packets_append (es es' : List Event) :
    packets (es ++ es') = packets es ++ packets es' :=
  List.filterMap_append

/-- What the `switch` does with a packet: it is stored in one of two ways, or refused. -/
inductive Switched (c : Headers) (o pktlen : ℕ) (s s' : State) (es : List Event) : Prop
  | rsp (htype : c.IsRsp (s.rx (o + 2))) (hfree : s.haveRspPacket = false)
      (hstate : s'.toReceive = s.storeRsp (memcpy s.rxRspBuffer s.rx o pktlen))
      (hes : stored es = [(.rsp, payload (memcpy s.rxRspBuffer s.rx o pktlen))])
  | event (htype : ¬ c.IsRsp (s.rx (o + 2))) (hevt : s.rx (o + 2) = c.evt)
      (hroom : (s.tailEvent + 1) % rxBufferSize ≠ s.headEvent)
      (hstate : s'.toReceive = s.storeEvent (memcpy (s.rxEventBuffers s.tailEvent) s.rx o pktlen))
      (hes : stored es = [(.event s.tailEvent,
        payload (memcpy (s.rxEventBuffers s.tailEvent) s.rx o pktlen))])
  | refused (hrsp : c.IsRsp (s.rx (o + 2)) → s.haveRspPacket = true)
      (hevt : ¬ c.IsRsp (s.rx (o + 2)) → s.rx (o + 2) = c.evt →
        (s.tailEvent + 1) % rxBufferSize = s.headEvent)
      (hstate : s'.toReceive = s.toReceive) (hes : stored es = [])

lemma storePacket_switched (c : Headers) (o pktlen : ℕ) (s : State) :
    Switched c o pktlen s (storePacket c o pktlen s).1 (storePacket c o pktlen s).2 := by
  by_cases hrsp : s.rx (o + 2) = c.resp ∨ s.rx (o + 2) = c.dtmResp
  · cases hhave : s.haveRspPacket with
    | false =>
      cases htimer : s.timeoutTimer with
      | none =>
        apply Switched.rsp hrsp hhave
        · simp [storePacket, hrsp, hhave, htimer, Receive.storeRsp]
        · simp [storePacket, hrsp, hhave, htimer, stored]
      | some timer =>
        apply Switched.rsp hrsp hhave
        · simp [storePacket, hrsp, hhave, htimer, Receive.storeRsp]
        · simp [storePacket, hrsp, hhave, htimer, stored]
    | true =>
      apply Switched.refused (fun _ => hhave) (fun h => absurd hrsp h)
      · simp [storePacket, hrsp, hhave]
      · simp [storePacket, hrsp, hhave, stored]
  · by_cases hevt : s.rx (o + 2) = c.evt
    · by_cases hroom : (s.tailEvent + 1) % rxBufferSize = s.headEvent
      · apply Switched.refused (fun h => absurd h hrsp) (fun _ _ => hroom)
        · simp only [storePacket, if_neg hrsp, if_pos hevt, if_pos hroom]
        · simp only [storePacket, if_neg hrsp, if_pos hevt, if_pos hroom]
          rfl
      · apply Switched.event hrsp hevt hroom
        · simp only [storePacket, if_neg hrsp, if_pos hevt, if_neg hroom]
          rfl
        · simp only [storePacket, if_neg hrsp, if_pos hevt, if_neg hroom]
          rfl
    · apply Switched.refused (fun h => absurd h hrsp) (fun _ h => absurd h hevt)
      · simp [storePacket, hrsp, hevt]
      · simp [storePacket, hrsp, hevt, stored]

/-- What the `switch` leaves alone, and the events it can give. -/
lemma storePacket_frame (c : Headers) (o pktlen : ℕ) (s : State) :
    (storePacket c o pktlen s).1.rx = s.rx ∧ (storePacket c o pktlen s).1.txLen = s.txLen ∧
      ∀ e ∈ (storePacket c o pktlen s).2,
        e = .printf ∨ (∃ src p, e = .stored src p) ∨ ∃ timer, e = .timerCancel timer := by
  simp only [storePacket]
  split_ifs
  · simp
  · cases s.timeoutTimer <;> simp
  · simp
  · simp
  · simp

lemma storePacket_rx (c : Headers) (o pktlen : ℕ) (s : State) :
    (storePacket c o pktlen s).1.rx = s.rx := (storePacket_frame c o pktlen s).1

lemma packets_storePacket (c : Headers) (o pktlen : ℕ) (s : State) :
    packets (storePacket c o pktlen s).2 = [] := by
  refine List.filterMap_eq_nil_iff.mpr fun e he => ?_
  rcases (storePacket_frame c o pktlen s).2.2 e he with rfl | ⟨_, _, rfl⟩ | ⟨_, rfl⟩ <;> rfl

/-- The indices stay those of slots. -/
lemma storePacket_indices (h : s.Indices) (o pktlen : ℕ) :
    (storePacket c o pktlen s).1.Indices := by
  cases storePacket_switched c o pktlen s with
  | rsp htype hfree hstate =>
    rw [hstate]
    exact h
  | event htype hevt hroom hstate =>
    rw [hstate]
    exact ⟨h.1, Nat.mod_lt _ (by decide)⟩
  | refused hrsp hevt hstate =>
    rw [hstate]
    exact h

/-- The `switch` keeps the payload of the packet, if there is room. -/
lemma storePacket_kept (h : s.Indices) (hn : (readLength s.rx o).toNat = n) (hpos : 1 ≤ n) :
    (storePacket c o (n + serPhyHeaderSize) s).1.kept =
      s.kept.keep c (slice s.rx (o + serPhyHeaderSize) n) := by
  have htype : (slice s.rx (o + serPhyHeaderSize) n).headD 0 = s.rx (o + 2) := by
    obtain ⟨n, rfl⟩ := Nat.exists_eq_add_of_le' hpos
    simp [slice, List.range_succ_eq_map, serPhyHeaderSize]
  have hrsp := s.kept_rsp_eq_none_iff
  have hevents := Receive.kept_events_length_lt_iff h
  rw [Kept.keep]
  simp only [htype]
  cases storePacket_switched c o (n + serPhyHeaderSize) s with
  | rsp htype hfree hstate =>
    rw [if_pos htype, if_pos (hrsp.mpr hfree), hstate, Receive.kept_storeRsp, payload_memcpy hn]
  | event htype hevt hroom hstate =>
    rw [if_neg htype, if_pos hevt, if_pos (hevents.mpr hroom), hstate,
      Receive.kept_storeEvent h hroom, payload_memcpy hn]
  | refused hfull hfull' hstate =>
    rw [hstate]
    split_ifs with htype hnone hevt hlt
    · have hfree := hrsp.mp hnone
      simp [hfull htype] at hfree
    · rfl
    · exact absurd (hfull' htype hevt) (hevents.mp hlt)
    · rfl
    · rfl

/-- The packet is all that the `switch` reads of what was received. -/
lemma storePacket_congr {rx' : Buffer} {pktlen : ℕ} (hlen : serPhyHeaderSize < pktlen)
    (h : ∀ i, o ≤ i → i < o + pktlen → rx' i = s.rx i) :
    storePacket c o pktlen { s with rx := rx' } =
      ({ (storePacket c o pktlen s).1 with rx := rx' }, (storePacket c o pktlen s).2) := by
  have htype : rx' (o + 2) = s.rx (o + 2) := h (o + 2) (by omega) (Nat.add_lt_add_left hlen o)
  have hcopy : ∀ dst, memcpy dst rx' o pktlen = memcpy dst s.rx o pktlen := by
    intro dst
    funext i
    rw [memcpy, memcpy]
    split_ifs with hi
    · exact h (o + i) (by omega) (by omega)
    · rfl
  simp only [storePacket, htype, hcopy]
  split_ifs
  · rfl
  · cases s.timeoutTimer <;> rfl
  · rfl
  · rfl
  · rfl

/-! ### The loop -/

/-- The round handles the packet at the offset. -/
def Fits (c : Headers) (rxLen : ℤ) (o : ℕ) (s : State) : Prop :=
  (serPhyHeaderSize : ℤ) ≤ rxLen - o ∧
  (readLength s.rx o).toNat + serPhyHeaderSize ≤ c.rxMaxPktSize ∧
  (readLength s.rx o).toNat + serPhyHeaderSize + o ≤ c.rxMaxPktSize ∧
  (((readLength s.rx o).toNat + serPhyHeaderSize : ℕ) : ℤ) ≤ rxLen - o

instance (c : Headers) (rxLen : ℤ) (o : ℕ) (s : State) : Decidable (Fits c rxLen o s) :=
  inferInstanceAs (Decidable (_ ∧ _ ∧ _ ∧ _))

lemma round_of_not_fits (h : ¬ Fits c rxLen o s) : round c rxLen o s = (none, s, []) := by
  rw [Fits] at h
  rw [round]
  by_cases hsize : rxLen - o ≥ serPhyHeaderSize
  · rw [if_pos hsize]
    exact if_pos (by omega)
  · exact if_neg hsize

lemma round_of_fits (h : Fits c rxLen o s) (hn : (readLength s.rx o).toNat = n) :
    round c rxLen o s =
      (if rxLen ≤ (o + (n + serPhyHeaderSize) : ℕ) then none else some (o + (n + serPhyHeaderSize)),
        (storePacket c o (n + serPhyHeaderSize) s).1,
        .packet (slice s.rx (o + serPhyHeaderSize) n) ::
          (storePacket c o (n + serPhyHeaderSize) s).2) := by
  subst hn
  obtain ⟨hsize, hmax, hmax', hlen⟩ := h
  rw [round, if_pos hsize, if_neg (by omega)]

/-- What is left to be read. -/
def rest (rx : Buffer) (rxLen : ℤ) (o : ℕ) : List U8 := slice rx o (rxLen - o).toNat

/-- A packet of length 0 comes first. -/
def EmptyFirst (l : List U8) : Prop := serPhyHeaderSize ≤ l.length ∧ packetHeader.announced l = 0

lemma fits_iff (hmax : rxLen ≤ c.rxMaxPktSize) :
    Fits c rxLen o s ↔
      packetHeader.Starts (rest s.rx rxLen o) ∨ EmptyFirst (rest s.rx rxLen o) := by
  have hheader : packetHeader.size = serPhyHeaderSize := rfl
  have hsize : serPhyHeaderSize = 2 := rfl
  rw [Framing.Header.Starts, EmptyFirst, rest, length_slice, Fits, hheader]
  by_cases hlen : serPhyHeaderSize ≤ (rxLen - o).toNat
  · rw [announced_slice hlen]
    omega
  · omega

/-- The rounds of the loop from an offset on: the state at its end and what has happened. -/
inductive Loops (c : Headers) (rxLen : ℤ) : ℕ → State → State → List Event → Prop
  | stop {o : ℕ} {s : State} (h : ¬ Fits c rxLen o s) : Loops c rxLen o s s []
  | next {o n : ℕ} {s s' : State} {es : List Event} (h : Fits c rxLen o s)
      (hn : (readLength s.rx o).toNat = n)
      (hnext : Loops c rxLen (o + (n + serPhyHeaderSize))
        (storePacket c o (n + serPhyHeaderSize) s).1 s' es) :
      Loops c rxLen o s s' (.packet (slice s.rx (o + serPhyHeaderSize) n) ::
        (storePacket c o (n + serPhyHeaderSize) s).2 ++ es)

variable {s' : State} {es : List Event}

@[simp] lemma length_rest (rx : Buffer) (rxLen : ℤ) (o : ℕ) :
    (rest rx rxLen o).length = (rxLen - o).toNat := length_slice _ _ _

lemma not_fits_of_le (h : rxLen ≤ o) : ¬ Fits c rxLen o s := by
  have hsize : serPhyHeaderSize = 2 := rfl
  rw [Fits]
  omega

/-- What is left gets shorter in each round. -/
lemma Fits.length_lt (h : Fits c rxLen o s) (n : ℕ) :
    (rxLen - (o + (n + serPhyHeaderSize) : ℕ)).toNat < (rxLen - o).toNat := by
  have hsize : serPhyHeaderSize = 2 := rfl
  have hlen := h.1
  omega

lemma exists_loops (c : Headers) (rxLen : ℤ) (o : ℕ) (s : State) :
    ∃ s' es, Loops c rxLen o s s' es := by
  induction hlen : (rxLen - o).toNat using Nat.strong_induction_on generalizing o s with
  | h len ih =>
    by_cases h : Fits c rxLen o s
    · obtain ⟨s', es, hnext⟩ := ih _ (hlen ▸ h.length_lt _) _
        (storePacket c o ((readLength s.rx o).toNat + serPhyHeaderSize) s).1 rfl
      exact ⟨s', _, .next h rfl hnext⟩
    · exact ⟨s, [], .stop h⟩

/-! ### The loop and the leading run of packets -/

lemma Fits.announced_eq (h : Fits c rxLen o s) (hn : (readLength s.rx o).toNat = n) :
    packetHeader.announced (rest s.rx rxLen o) = n := by
  have hsize := h.1
  rw [rest, announced_slice (by omega), hn]

lemma Fits.emptyFirst (h : Fits c rxLen o s) (hn : (readLength s.rx o).toNat = 0) :
    EmptyFirst (rest s.rx rxLen o) := by
  refine ⟨?_, h.announced_eq hn⟩
  have hsize := h.1
  rw [length_rest]
  omega

/-- A packet that is not empty is the first of the run. -/
lemma Fits.split_eq (h : Fits c rxLen o s) (hn : (readLength s.rx o).toNat = n) (hpos : 1 ≤ n) :
    Framing.split packetHeader (rest s.rx rxLen o) =
      (slice s.rx (o + serPhyHeaderSize) n ::
        (Framing.split packetHeader (rest s.rx rxLen (o + (n + serPhyHeaderSize)))).1,
        (Framing.split packetHeader (rest s.rx rxLen (o + (n + serPhyHeaderSize)))).2) := by
  have hheader : packetHeader.size = serPhyHeaderSize := rfl
  have hsize := h.1
  have hlen := h.2.2.2
  have hannounced := h.announced_eq hn
  rw [hn] at hlen
  have hstarts : packetHeader.Starts (rest s.rx rxLen o) := by
    rw [Framing.Header.Starts, hannounced, length_rest, hheader]
    omega
  have hrest : (rest s.rx rxLen o).drop (serPhyHeaderSize + n) =
      rest s.rx rxLen (o + (n + serPhyHeaderSize)) := by
    rw [rest, drop_slice, rest, Nat.add_comm serPhyHeaderSize n]
    congr 1
    omega
  have hpayload : ((rest s.rx rxLen o).drop serPhyHeaderSize).take n =
      slice s.rx (o + serPhyHeaderSize) n := by
    rw [rest, drop_slice, take_slice _ _ (by omega)]
  rw [Framing.split_of_starts hstarts, hannounced, hheader, hrest, hpayload]

lemma split_of_not_fits (hmax : rxLen ≤ c.rxMaxPktSize) (h : ¬ Fits c rxLen o s) :
    Framing.split packetHeader (rest s.rx rxLen o) = ([], rest s.rx rxLen o) := by
  apply Framing.split_of_not_starts
  exact fun hstarts => h ((fits_iff hmax).mpr (.inl hstarts))

lemma EmptyFirst.not_starts {l : List U8} (h : EmptyFirst l) : ¬ packetHeader.Starts l := by
  intro hstarts
  have hpos := hstarts.2.1
  rw [h.2] at hpos
  cases hpos

@[simp] lemma packets_cons (p : List U8) (es es' : List Event) :
    packets (.packet p :: es ++ es') = p :: (packets es ++ packets es') := by
  rw [packets_append]
  rfl

/-- Unless it comes to an empty packet, the loop handles the packets of the leading run, and keeps
them while there is room. -/
lemma Loops.packets_eq (h : Loops c rxLen o s s' es) (hmax : rxLen ≤ c.rxMaxPktSize)
    (hindices : s.Indices)
    (hne : ¬ EmptyFirst (Framing.split packetHeader (rest s.rx rxLen o)).2) :
    packets es = (Framing.split packetHeader (rest s.rx rxLen o)).1 ∧
      s'.kept = (packets es).foldl (Kept.keep c) s.kept := by
  induction h with
  | stop h =>
    rw [split_of_not_fits hmax h]
    exact ⟨rfl, rfl⟩
  | @next o n s s' es h hn hnext ih =>
    rcases Nat.eq_zero_or_pos n with rfl | hpos
    · have hempty := h.emptyFirst hn
      rw [Framing.split_of_not_starts hempty.not_starts] at hne
      exact absurd hempty hne
    · rw [h.split_eq hn hpos] at hne ⊢
      rw [storePacket_rx] at ih
      obtain ⟨hpackets, hkept⟩ := ih (storePacket_indices hindices _ _) hne
      rw [packets_cons, packets_storePacket, List.nil_append]
      refine ⟨by rw [hpackets], ?_⟩
      rw [hkept, storePacket_kept hindices hn hpos]
      rfl

/-- At an empty packet the run ends, but not the loop. -/
lemma Loops.packets_ne (h : Loops c rxLen o s s' es) (hmax : rxLen ≤ c.rxMaxPktSize)
    (hempty : EmptyFirst (Framing.split packetHeader (rest s.rx rxLen o)).2) :
    packets es ≠ (Framing.split packetHeader (rest s.rx rxLen o)).1 := by
  induction h with
  | stop h =>
    rw [split_of_not_fits hmax h] at hempty
    exact absurd ((fits_iff hmax).mpr (.inr hempty)) h
  | @next o n s s' es h hn hnext ih =>
    rw [packets_cons, packets_storePacket, List.nil_append]
    rcases Nat.eq_zero_or_pos n with rfl | hpos
    · rw [Framing.split_of_not_starts (h.emptyFirst hn).not_starts]
      exact List.cons_ne_nil _ _
    · rw [h.split_eq hn hpos] at hempty ⊢
      rw [storePacket_rx] at ih
      exact fun heq => ih hempty (List.cons.inj heq).2

/-- Unless it comes to an empty packet, the loop reads nothing behind what was received. -/
lemma Loops.congr (h : Loops c rxLen o s s' es) {rx' : Buffer}
    (hrx : ∀ i : ℕ, o ≤ i → (i : ℤ) < rxLen → rx' i = s.rx i)
    (hne : ¬ EmptyFirst (Framing.split packetHeader (rest s.rx rxLen o)).2) :
    Loops c rxLen o { s with rx := rx' } { s' with rx := rx' } es := by
  have hlength : ∀ {o : ℕ} {rx : Buffer}, (serPhyHeaderSize : ℤ) ≤ rxLen - o →
      (∀ i : ℕ, o ≤ i → (i : ℤ) < rxLen → rx' i = rx i) →
      readLength rx' o = readLength rx o := by
    intro o rx hsize hrx
    have htwo : serPhyHeaderSize = 2 := rfl
    rw [readLength, readLength, hrx o (by omega) (by omega), hrx (o + 1) (by omega) (by omega)]
  induction h with
  | @stop o s h =>
    apply Loops.stop
    intro hfits
    apply h
    have hsize := hfits.1
    rw [Fits, hlength hsize hrx] at hfits
    exact hfits
  | @next o n s s' es h hn hnext ih =>
    have hsize := h.1
    have hlen := h.2.2.2
    have hread := hlength hsize hrx
    rw [hn] at hlen
    rcases Nat.eq_zero_or_pos n with rfl | hpos
    · have hempty := h.emptyFirst hn
      rw [Framing.split_of_not_starts hempty.not_starts] at hne
      exact absurd hempty hne
    · rw [h.split_eq hn hpos] at hne
      rw [storePacket_rx] at ih
      have hcopy := storePacket_congr (c := c) (Nat.lt_add_of_pos_left hpos) fun i hi hi' =>
        hrx i hi (by omega)
      have hpayload : slice s.rx (o + serPhyHeaderSize) n = slice rx' (o + serPhyHeaderSize) n := by
        apply slice_congr
        intro i hi hi'
        exact (hrx i (by omega) (by omega)).symm
      have hfits : Fits c rxLen o { s with rx := rx' } := by
        rw [Fits, hread]
        exact h
      have hrest : Loops c rxLen (o + (n + serPhyHeaderSize))
          (storePacket c o (n + serPhyHeaderSize) { s with rx := rx' }).1 { s' with rx := rx' }
          es := by
        rw [hcopy]
        exact ih (fun i hi => hrx i (by omega)) hne
      have hstep := Loops.next hfits (hread ▸ hn) hrest
      rw [hcopy] at hstep
      rw [hpayload]
      exact hstep

end Nrf
