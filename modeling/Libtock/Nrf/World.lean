import Libtock.Core.Run
import Libtock.Nrf.Parser

/-!
# Runs of the transport

A `World` is the memory of the transport, the calls that have not returned, and how far the upper
layer is with the last request for a buffer. The application acts by calling the transport; where it
yields, and where `printf` does, the kernel may fill `rx` and run callbacks on top. A handler of the
upper layer is application code too, so what it does are the next actions of the run.
-/

namespace Nrf

open Core

/-- The packet that a buffer is requested for. -/
structure Request where
  src : Source
  payload : List U8
  numOfBytes : U16
  deriving DecidableEq

/-- The last request for a buffer, until its packet has been reported. -/
inductive Ask
  | idle
  | requested (r : Request)
  | granted (r : Request)
  deriving DecidableEq

namespace Ask

def request : Ask → Option Request
  | idle => none
  | requested r => some r
  | granted r => some r

/-- A buffer is requested and none has been granted. -/
def isRequested : Ask → Bool
  | requested _ => true
  | _ => false

def grant : Ask → Ask
  | requested r => granted r
  | a => a

/-- What the upper layer learns from a call of its handler. -/
def tell (a : Ask) : Event → Ask
  | .rxBufRequest src payload numOfBytes => requested ⟨src, payload, numOfBytes⟩
  | .rxPktReceived _ _ _ _ => idle
  | .rxPktDropped => idle
  | _ => a

end Ask

structure World where
  state : State
  stack : List Frame
  ask : Ask

inductive Action
  | serPhyRxBufSet (p : Option Ptr)
  | sdAppEvtWait
  | serPhyTxPktSend (busy : Bool) (timer : Option Ptr) (ret : ℤ) (buffer : Option Buffer)
      (numOfBytes : U16)
  /-- The kernel writes to `rx`. -/
  | fill (rx : Buffer)
  /-- The kernel calls `ble_serialization_callback`. -/
  | upcall (callbackType rxLen : ℤ)
  | timeout
  /-- The code on top of the stack goes on; `ser_sd_transport_is_busy` answers `busy`. -/
  | resume (busy : Bool)

namespace World

/-- Application code runs. -/
def AppRuns (w : World) : Prop := w.stack.head? = some .app

/-- The code on top of the stack may yield. -/
def MayYield (w : World) : Prop :=
  w.stack.head? = some .app ∨ w.stack.head? = some .wait ∨ w.stack.head? = some .printf

instance (w : World) : Decidable w.AppRuns := inferInstanceAs (Decidable (_ = _))

instance (w : World) : Decidable w.MayYield := inferInstanceAs (Decidable (_ ∨ _))

/-- The world after a function has run: its state, its open parts on top of `stack`, its events. -/
def after (w : World) (stack : List Frame) (r : State × List Frame × List Event) :
    World × List Event :=
  (⟨r.1, r.2.1 ++ stack, r.2.2.foldl Ask.tell w.ask⟩, r.2.2)

/-- The state after a round of the loop, what comes next, and the events. -/
def loopRound (c : Headers) (rxLen : ℤ) (offset : ℕ) (s : State) :
    State × List Frame × List Event :=
  let (next, s, es) := round c rxLen offset s
  let frame : Frame := match next with
    | some offset => .loop rxLen offset
    | none => .announce
  (s, (if Event.printf ∈ es then [.printf] else []) ++ [frame], es)

def step (c : Headers) (w : World) : Action → Option (World × List Event)
  | .serPhyRxBufSet p =>
    if w.AppRuns then
      some ({ w with state := serPhyRxBufSet p w.state, ask := w.ask.grant }, [])
    else none
  | .sdAppEvtWait =>
    if w.AppRuns then some (w.after w.stack (sdAppEvtWait w.state)) else none
  | .serPhyTxPktSend busy timer ret buffer numOfBytes =>
    if w.AppRuns then
      (serPhyTxPktSend c busy timer ret buffer numOfBytes w.state).map fun r =>
        w.after w.stack (r.2.1, [], r.2.2)
    else none
  | .fill rx =>
    if w.MayYield then some ({ w with state := { w.state with rx := rx } }, []) else none
  | .upcall callbackType rxLen =>
    if w.MayYield ∧ (callbackType = 1 ∨ callbackType = 4) then
      some (w.after w.stack (bleSerializationCallback callbackType rxLen w.state))
    else none
  | .timeout => if w.MayYield then some (w.after w.stack (timeoutTimerCb w.state)) else none
  | .resume busy =>
    match w.stack with
    -- the main program does not return
    | .app :: frame :: stack => some ({ w with stack := frame :: stack }, [])
    | .wait :: stack =>
      if w.state.nrfSerializationDone then some ({ w with stack }, []) else none
    | .printf :: stack => some ({ w with stack }, [])
    | .loop rxLen offset :: stack => some (w.after stack (loopRound c rxLen offset w.state))
    | .announce :: stack => some (w.after stack (announce busy w.state))
    | .finish :: stack => some (w.after stack (finish busy w.state))
    | _ => none

def Step (c : Headers) (w : World) (a : Action) (w' : World) (es : List Event) : Prop :=
  w.step c a = some (w', es)

/-- After `ser_phy_open`. -/
def initial (rx : Buffer) : World where
  state :=
    { rxEventBuffers := fun _ _ => 0
      headEvent := 0
      tailEvent := 0
      rxRspBuffer := fun _ => 0
      haveRspPacket := false
      halRxBuf := none
      receivingPacket := false
      needWakeup := false
      serPhyEventHandler := true
      rx := rx
      tx := fun _ => 0
      txLen := 0
      queuedPackets := false
      timeoutTimer := none
      nrfSerializationDone := false }
  stack := [.app]
  ask := .idle

/-- After the kernel has called `ble_serialization_callback` for `rxLen` bytes in `rx`. -/
def upcalled (rx : Buffer) (rxLen : ℤ) : World :=
  ((initial rx).after [.app] (bleSerializationCallback 4 rxLen (initial rx).state)).1

lemma run_upcalled (c : Headers) (rx : Buffer) (rxLen : ℤ) :
    Run (Step c) (initial rx) [] (upcalled rx rxLen) :=
  Run.single (a := Action.upcall 4 rxLen) rfl

lemma indices_upcalled (rx : Buffer) (rxLen : ℤ) : (upcalled rx rxLen).state.Indices :=
  ⟨Nat.zero_lt_succ 4, Nat.zero_lt_succ 4⟩

/-- The steps whose action meets a condition. -/
def guarded (c : Headers) (P : World → Action → Prop) [∀ w a, Decidable (P w a)] (w : World)
    (a : Action) : Option (World × List Event) :=
  if P w a then w.step c a else none

lemma run_of_guarded {c : Headers} {P : World → Action → Prop} [∀ w a, Decidable (P w a)]
    {w w' : World} (as : List Action) {tr : List Event}
    (h : play (guarded c P) w as = some (w', tr)) : Run (Guarded (Step c) P) w tr w' := by
  have hguarded : guarded c P = restrict (fun w a => w.step c a) P := rfl
  rw [hguarded] at h
  exact Run.of_play_restrict (fun _ _ _ _ hstep => hstep) as h

end World

/-! ### Some constants and some bytes -/

def sampleHeaders : Headers where
  rxMaxPktSize := 384
  txMaxPktSize := 384
  resp := 1
  dtmResp := 4
  evt := 2
  labels := by decide

def bufferOf (l : List U8) : Buffer := fun i => l.getD i 0

end Nrf
