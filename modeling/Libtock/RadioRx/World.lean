import Libtock.Core.Run
import Libtock.Ieee802154.Frame
import Libtock.Ieee802154.Send

/-!
# The reception of frames: `radio_rx`

The radio driver writes each frame it receives to the buffer that is shared with it and schedules an
upcall. The callback of `radio_rx` takes the buffer back, prints the frame that is in there, and
shares it again. While one of its `printf` waits for the console, the callback may be called for
another frame.
-/

namespace Ieee802154

open Tock

/-! ### The library -/

def allowRx : U32 := 0

def subscribeRx : U32 := 0

def ieee802154FrameLen : U8 := 129

section Library

variable {σ : Type}

def ieee802154Receive (callback : σ) (frame : Ptr) (len : U8) : Sys σ Region ℤ := do
  let rw ← Sys.allowReadwrite radioDriver allowRx ⟨some frame, len.setWidth 32⟩
  if let .refused e := rw then return tockStatusToReturncode e.status
  let sub ← Sys.subscribe radioDriver subscribeRx (some callback)
  return sub.toReturncode

def ieee802154UnallowRxBuf : Sys σ Region Bool := do
  let rw ← Sys.allowReadwrite radioDriver allowRx ⟨none, 0⟩
  return decide (rw = .accepted)

end Library

end Ieee802154

namespace RadioRx

open Core Tock Ieee802154

/-! ### The callback -/

/-- What is printed for an address; nothing for the mode that has no name. -/
inductive ShownAddr
  | notPresent
  | short (addr : U16)
  | long (addr : List U8)
  | nothing
  deriving DecidableEq

/-- What the callback prints at a time; the payload is printed character by character. -/
inductive Line
  | received (payloadLength payloadOffset : ℤ)
  | char (c : U8)
  | newline
  | dstPan (pan : Option U16)
  | dstAddr (addr : ShownAddr)
  | srcPan (pan : Option U16)
  | srcAddr (addr : ShownAddr)
  deriving DecidableEq

def shownPan (r : Bool × Option U16) : Option U16 := if r.1 then r.2 else none

def shownAddr (r : AddrMode × Option U16 × Option (Fin 8 → U8)) : ShownAddr :=
  match r with
  | (.none, _, _) => .notPresent
  | (.short, some short, _) => .short short
  | (.long, _, some long) => .long (List.ofFn long)
  | _ => .nothing

/-- The local variables that the getters write to. What they hold before is not printed. -/
def shortAddr : Option U16 := some 0

def longAddr : Option (Fin 8 → U8) := some fun _ => 0

/-- How far a callback is. -/
inductive Pc
  /-- In the `printf` of the payload, behind the `i`-th character. -/
  | payload (length offset : ℤ) (i : ℕ)
  | dstPan
  | dstAddr
  | srcPan
  | srcAddr
  /-- Before `ieee802154_receive`. -/
  | receive
  /-- In `ieee802154_receive`, which has these system calls to make. -/
  | receiving (ret : ℤ) (calls : List (Issued Unit Region))

/-- What is printed next, and how far the callback is then. -/
def Pc.next (frame : Frame) : Pc → Option (Line × Pc)
  | payload length offset i =>
    let c := frame (offset.toNat + i)
    -- the precision of `%.*s` bounds the string, which may end before
    if (i : ℤ) < length ∧ c ≠ 0 then some (.char c, payload length offset (i + 1))
    else some (.newline, dstPan)
  | dstPan => some (.dstPan (shownPan (frameGetDstPan (some frame) shortAddr)), dstAddr)
  | dstAddr => some (.dstAddr (shownAddr (frameGetDstAddr (some frame) shortAddr longAddr)), srcPan)
  | srcPan => some (.srcPan (shownPan (frameGetSrcPan (some frame) shortAddr)), srcAddr)
  | srcAddr =>
    some (.srcAddr (shownAddr (frameGetSrcAddr (some frame) shortAddr longAddr)), receive)
  | receive | receiving _ _ => none

/-! ### Runs -/

structure World where
  packetRx : Frame
  slots : Slots Unit Region
  /-- The upcalls that are scheduled. -/
  due : ℕ
  /-- The callbacks in progress, innermost first. -/
  stack : List (ℕ × Pc)
  /-- The number of callbacks that have begun. -/
  calls : ℕ

inductive Action
  /-- The radio receives a frame. -/
  | frame (f : Frame)
  /-- The process waits, in `delay_ms` or in a `printf`, and the callback is called. -/
  | upcall (k : Kernel)
  /-- The innermost callback goes on. -/
  | run (k : Kernel)

inductive Event
  | received (f : Frame)
  | missed (f : Frame)
  | ledToggled
  /-- The `n`-th callback has called `ieee802154_unallow_rx_buf`, and finds `f` in the buffer. -/
  | began (n : ℕ) (f : Frame) (unallowed : Bool)
  /-- The `n`-th callback is interrupted: it waits while another one runs. -/
  | interrupted (n : ℕ)
  | line (n : ℕ) (l : Line)
  | ended (n : ℕ) (ret : ℤ)

namespace World

/-- The kernel may write to `packet_rx`. -/
def shared (w : World) : Bool :=
  (w.slots.readwrite (radioDriver, allowRx)).any fun r => r.address.isSome

def subscribed (w : World) : Bool := (w.slots.subscription (radioDriver, subscribeRx)).isSome

/-- What a system call does: with a new subscription the upcalls that are due are dropped. -/
def issue (w : World) (i : Issued Unit Region) : World :=
  { w with
    slots := w.slots.issue i
    due :=
      match i with
      | .subscribe _ _ _ .accepted => 0
      | _ => w.due }

variable (packetRx : Ptr)

/-- The call in `main`, and the one in the callback. -/
def receive (k : Kernel) : ℤ × List (Issued Unit Region) :=
  (ieee802154Receive () packetRx ieee802154FrameLen).run k

/-- `main` has called `ieee802154_receive`, and `f` is in the buffer. -/
def boot (k : Kernel) (f : Frame) : World :=
  (receive packetRx k).2.foldl issue ⟨f, .empty, 0, [], 0⟩

/-- The innermost callback does not wait: it is in `ieee802154_receive`. -/
def receiving (w : World) : Bool :=
  match w.stack with
  | (_, .receiving _ _) :: _ => true
  | _ => false

/-- The beginning of the callback. -/
def callback (k : Kernel) (w : World) : World × List Event :=
  let (ok, calls) := ieee802154UnallowRxBuf.run k
  let w' := calls.foldl issue w
  let payloadOffset := frameGetPayloadOffset (some w'.packetRx)
  let payloadLength := frameGetPayloadLength (some w'.packetRx)
  ({ w' with
      stack := (w.calls, .payload payloadLength payloadOffset 0) :: w.stack
      calls := w.calls + 1 },
    (w.stack.head?.map fun p => Event.interrupted p.1).toList ++
      [.ledToggled, .began w.calls w'.packetRx ok,
        .line w.calls (.received payloadLength payloadOffset)])

def exec (w : World) : Action → Option (World × List Event)
  | .frame f =>
    if w.shared then
      some ({ w with packetRx := f, due := if w.subscribed then w.due + 1 else w.due },
        [.received f])
    else some (w, [.missed f])
  | .upcall k =>
    match w.due with
    | 0 => none
    | due + 1 =>
      -- nothing waits between the system calls of `ieee802154_receive`
      if w.receiving then none else some (callback k { w with due })
  | .run k =>
    match w.stack with
    | [] => none
    | (n, .receive) :: stack =>
      let (ret, calls) := receive packetRx k
      some ({ w with stack := (n, .receiving ret calls) :: stack }, [])
    | (n, .receiving ret (i :: calls)) :: stack =>
      some ({ w.issue i with stack := (n, .receiving ret calls) :: stack }, [])
    | (n, .receiving ret []) :: stack => some ({ w with stack }, [.ended n ret])
    | (n, pc) :: stack =>
      (pc.next w.packetRx).map fun r => ({ w with stack := (n, r.2) :: stack }, [.line n r.1])

def Step (w : World) (a : Action) (w' : World) (es : List Event) : Prop :=
  w.exec packetRx a = some (w', es)

/-- No frame comes into the buffer while the callback for the last one is due, or before
`ieee802154_receive` has returned; the buffer is given back when it is asked for. -/
def Spaced (w : World) : Action → Prop
  | .frame _ => w.shared = true → w.due = 0 ∧ w.receiving = false
  | .upcall k => k.allowReadwrite radioDriver allowRx = .accepted
  | .run _ => True

instance (w : World) (a : Action) : Decidable (Spaced w a) :=
  match a with
  | .frame _ => inferInstanceAs (Decidable (w.shared = true → w.due = 0 ∧ w.receiving = false))
  | .upcall k =>
    inferInstanceAs (Decidable (k.allowReadwrite radioDriver allowRx = .accepted))
  | .run _ => inferInstanceAs (Decidable True)

end World

/-! ### What happened -/

/-- The frames that came into the buffer. -/
def received (tr : List Event) : List Frame :=
  tr.filterMap fun
    | .received f => some f
    | _ => none

/-- The frames that the callbacks found there. -/
def begun (tr : List Event) : List Frame :=
  tr.filterMap fun
    | .began _ f _ => some f
    | _ => none

/-- What was printed. -/
def lines (tr : List Event) : List Line :=
  tr.filterMap fun
    | .line _ l => some l
    | _ => none

/-- What the `n`-th callback has printed. -/
def printed (n : ℕ) (tr : List Event) : List Line :=
  tr.filterMap fun
    | .line m l => if m = n then some l else none
    | _ => none

/-- The payload, up to the first zero. -/
def shownPayload (f : Frame) : List U8 :=
  ((List.range (f 1).toNat).map fun i => f ((f 0).toNat + i)).takeWhile (· ≠ 0)

/-- The text about a frame. -/
def text (f : Frame) : List Line :=
  .received (f 1).toNat (f 0).toNat :: (shownPayload f).map .char ++
    [.newline, .dstPan (shownPan (frameGetDstPan (some f) shortAddr)),
      .dstAddr (shownAddr (frameGetDstAddr (some f) shortAddr longAddr)),
      .srcPan (shownPan (frameGetSrcPan (some f) shortAddr)),
      .srcAddr (shownAddr (frameGetSrcAddr (some f) shortAddr longAddr))]

end RadioRx
