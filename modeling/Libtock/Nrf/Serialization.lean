import Libtock.Core.Bytes
import Mathlib.Logic.Function.Basic

/-!
# The transport of `serialization_tock.c`

Packets of the nRF51 come in through the buffer `rx`, which the kernel fills; a packet is a length
of two bytes and that many bytes, the first of which is its type. Responses are kept in one buffer
and events in a ring, until the upper layer has provided a buffer.

A call of `ble_serialization_callback` is a list of `Frame`s: the parts of it between which other
code runs, with the next one first. The loop, the handler of the upper layer and `printf` may be
interrupted by further callbacks; the parts between them may not.
-/

namespace Nrf

open Core.Bytes

abbrev U8 := BitVec 8

abbrev U16 := BitVec 16

abbrev Ptr := ℕ

/-- The bytes of an array, or those behind a pointer. -/
abbrev Buffer := ℕ → U8

/-- The constants that come from the Nordic headers. -/
structure Headers where
  rxMaxPktSize : ℕ
  txMaxPktSize : ℕ
  resp : U8
  dtmResp : U8
  evt : U8
  /-- They label the cases of one `switch`. -/
  labels : [resp, dtmResp, evt].Nodup

def serPhyHeaderSize : ℕ := 2

def rxBufferSize : ℕ := 5

/-- The static variables that say which packets are kept and which the upper layer knows of. -/
structure Receive where
  rxEventBuffers : ℕ → Buffer
  headEvent : ℕ
  tailEvent : ℕ
  rxRspBuffer : Buffer
  haveRspPacket : Bool
  halRxBuf : Option Ptr
  receivingPacket : Bool
  needWakeup : Bool
  /-- Whether `_ser_phy_event_handler` is set. -/
  serPhyEventHandler : Bool

structure State extends Receive where
  rx : Buffer
  tx : Buffer
  txLen : U16
  queuedPackets : Bool
  timeoutTimer : Option Ptr
  nrfSerializationDone : Bool

/-- Where a packet is kept. -/
inductive Source
  | rsp
  | event (slot : ℕ)
  deriving DecidableEq

inductive Event
  /-- The loop has come to a packet. -/
  | packet (payload : List U8)
  /-- `memcpy` of a packet to the place where it is kept. -/
  | stored (src : Source) (payload : List U8)
  | printf
  | timerCancel (timer : Ptr)
  | timerIn (ms : ℕ) (timer : Ptr)
  | serializationWrite (len : U16)
  /-- The handler is called for `SER_PHY_EVT_RX_BUF_REQUEST`. -/
  | rxBufRequest (src : Source) (payload : List U8) (numOfBytes : U16)
  /-- The handler is called for `SER_PHY_EVT_RX_PKT_RECEIVED`, with `bytes` copied to `buffer`. -/
  | rxPktReceived (src : Source) (bytes : List U8) (numOfBytes : U16) (buffer : Ptr)
  /-- The handler is called for `SER_PHY_EVT_RX_PKT_DROPPED`. -/
  | rxPktDropped
  /-- The handler is called for `SER_PHY_EVT_TX_PKT_SENT`. -/
  | txPktSent
  /-- The handler is called for `SER_PHY_EVT_HW_ERROR`. -/
  | hwError
  deriving DecidableEq

inductive Frame
  /-- The application, or the handler of the upper layer. -/
  | app
  /-- The `yield_for` of `sd_app_evt_wait`. -/
  | wait
  | printf
  /-- The next round of the packet loop. -/
  | loop (rxLen : ℤ) (offset : ℕ)
  /-- What comes behind the loop. -/
  | announce
  /-- The end of `ble_serialization_callback`. -/
  | finish
  deriving DecidableEq

/-- `buf[o] | buf[o + 1] << 8` -/
def readLength (buf : Buffer) (o : ℕ) : U16 := join (buf o) (buf (o + 1))

/-- `n` bytes of a buffer. -/
def slice (buf : Buffer) (o n : ℕ) : List U8 := (List.range n).map fun i => buf (o + i)

/-- The bytes behind the length of the packet at the start of a buffer. -/
def payload (buf : Buffer) : List U8 := slice buf serPhyHeaderSize (readLength buf 0).toNat

/-- `memcpy(dst, src + o, n)` -/
def memcpy (dst src : Buffer) (o n : ℕ) : Buffer := fun i => if i < n then src (o + i) else dst i

def Receive.buffer (r : Receive) : Source → Buffer
  | .rsp => r.rxRspBuffer
  | .event slot => r.rxEventBuffers slot

variable (c : Headers)

/-! ### `ble_serialization_callback` -/

/-- The `switch` of the packet loop. -/
def storePacket (offset pktlen : ℕ) (s : State) : State × List Event :=
  let packetType := s.rx (offset + 2)
  if packetType = c.resp ∨ packetType = c.dtmResp then
    if s.haveRspPacket then
      (s, [.printf])
    else
      let s := { s with
        haveRspPacket := true
        rxRspBuffer := memcpy s.rxRspBuffer s.rx offset pktlen }
      match s.timeoutTimer with
      | some timer =>
        ({ s with timeoutTimer := none },
          [.stored .rsp (payload s.rxRspBuffer), .timerCancel timer])
      | none => (s, [.stored .rsp (payload s.rxRspBuffer)])
  else if packetType = c.evt then
    if (s.tailEvent + 1) % rxBufferSize = s.headEvent then
      (s, [])
    else
      let slot := s.tailEvent
      let buf := memcpy (s.rxEventBuffers slot) s.rx offset pktlen
      ({ s with
        rxEventBuffers := Function.update s.rxEventBuffers slot buf
        tailEvent := (slot + 1) % rxBufferSize }, [.stored (.event slot) (payload buf)])
  else
    (s, [])

/-- One round of the packet loop, and the offset of the next one, if there is one. -/
def round (rxLen : ℤ) (offset : ℕ) (s : State) : Option ℕ × State × List Event :=
  if rxLen - offset ≥ serPhyHeaderSize then
    let n := (readLength s.rx offset).toNat
    let pktlen := n + serPhyHeaderSize
    if pktlen > c.rxMaxPktSize ∨ pktlen + offset > c.rxMaxPktSize ∨
        (pktlen : ℤ) > rxLen - offset then
      (none, s, [])
    else
      let (s', es) := storePacket c offset pktlen s
      let next := offset + pktlen
      (if rxLen ≤ next then none else some next, s',
        .packet (slice s.rx (offset + serPhyHeaderSize) n) :: es)
  else
    (none, s, [])

/-- Passes a packet up, if none is being passed up; `busy` is the answer of
`ser_sd_transport_is_busy`. -/
def announce (busy : Bool) (s : State) : State × List Frame × List Event :=
  let source : Option Source :=
    if s.receivingPacket then none
    else if s.haveRspPacket then some .rsp
    else if !busy ∧ s.headEvent ≠ s.tailEvent then some (.event s.headEvent)
    else none
  match source with
  | none => (s, [.finish], [])
  | some src =>
    let buf := s.buffer src
    if readLength buf 0 > 0 ∧ s.serPhyEventHandler then
      ({ s with receivingPacket := true }, [.app, .finish],
        [.rxBufRequest src (payload buf) (readLength buf 0)])
    else
      (s, [.finish], [])

/-- The callback of type 17. -/
def deliver (s : State) : State × List Frame × List Event :=
  match s.halRxBuf with
  | some p =>
    let src := if s.haveRspPacket then .rsp else .event s.headEvent
    let buf := s.buffer src
    let s := if s.haveRspPacket then { s with haveRspPacket := false }
      else { s with headEvent := (s.headEvent + 1) % rxBufferSize }
    let s := { s with halRxBuf := none }
    let s := if s.headEvent ≠ s.tailEvent ∨ s.haveRspPacket then { s with queuedPackets := true }
      else s
    if s.serPhyEventHandler then
      ({ s with receivingPacket := false }, [.app, .finish],
        [.rxPktReceived src (slice buf serPhyHeaderSize (readLength buf 0).toNat)
          (readLength buf 0) p])
    else
      (s, [.finish], [])
  | none =>
    if s.serPhyEventHandler then
      ({ s with receivingPacket := false }, [.app, .finish], [.rxPktDropped])
    else
      (s, [.finish], [])

/-- The callback of type 1. -/
def txDone (s : State) : State × List Frame × List Event :=
  let s := { s with txLen := 0 }
  if s.serPhyEventHandler then (s, [.app, .finish], [.txPktSent]) else (s, [.finish], [])

def bleSerializationCallback (callbackType rxLen : ℤ) (s : State) :
    State × List Frame × List Event :=
  let s := { s with nrfSerializationDone := true }
  if callbackType = 1 then txDone s
  else if callbackType = 4 then (s, [.loop rxLen 0], [])
  else if callbackType = 17 then deliver s
  else (s, [.finish], [])

/-- The end of `ble_serialization_callback`. -/
def finish (busy : Bool) (s : State) : State × List Frame × List Event :=
  if !busy then
    if s.needWakeup then bleSerializationCallback 17 0 { s with needWakeup := false }
    else if s.queuedPackets then bleSerializationCallback 4 0 { s with queuedPackets := false }
    else (s, [], [])
  else
    (s, [], [])

/-! ### The functions of the upper layers -/

def serPhyRxBufSet (p : Option Ptr) (s : State) : State :=
  { s with halRxBuf := p, needWakeup := true }

def sdAppEvtWait (s : State) : State × List Frame × List Event :=
  if s.needWakeup then bleSerializationCallback 17 0 { s with needWakeup := false }
  else if s.queuedPackets then bleSerializationCallback 4 0 { s with queuedPackets := false }
  else ({ s with nrfSerializationDone := false }, [.wait], [])

def timeoutTimerCb (s : State) : State × List Frame × List Event :=
  if s.serPhyEventHandler then (s, [.app], [.hwError]) else (s, [], [])

inductive NrfReturn
  | success
  | errorNull
  | errorInvalidParam
  | errorInternal
  | errorBusy
  deriving DecidableEq

/-- When a command is sent, a timer is started that reports a missing response. -/
def startTimeout (busy : Bool) (timer : Option Ptr) (s : State) : Option (State × List Event) :=
  if busy then timer.map fun t => ({ s with timeoutTimer := some t }, [.timerIn 100 t])
  else some (s, [])

/-- `timer` is the answer of `malloc`, `ret` that of the kernel; `none` stands for a write through a
null pointer or past the end of `tx`. -/
def serPhyTxPktSend (busy : Bool) (timer : Option Ptr) (ret : ℤ) (buffer : Option Buffer)
    (numOfBytes : U16) (s : State) : Option (NrfReturn × State × List Event) :=
  match buffer with
  | none => some (.errorNull, s, [])
  | some buffer =>
    if numOfBytes = 0 then some (.errorInvalidParam, s, [])
    else if s.txLen = 0 then do
      let (s, es) ← startTimeout busy timer s
      guard (numOfBytes.toNat + serPhyHeaderSize ≤ c.txMaxPktSize)
      let len := numOfBytes + BitVec.ofNat 16 serPhyHeaderSize
      let s := { s with
        tx := fun i =>
          if i < serPhyHeaderSize then (le16 numOfBytes).getD i 0
          else if i < numOfBytes.toNat + serPhyHeaderSize then buffer (i - serPhyHeaderSize)
          else s.tx i
        txLen := len }
      some (if ret < 0 then .errorInternal else .success, s, es ++ [.serializationWrite len])
    else some (.errorBusy, s, [])

end Nrf
