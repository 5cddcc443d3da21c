import Libtock.Adc.Sync
import Libtock.Core.Owner
import Libtock.Core.Run
import Libtock.Ieee802154.Send
import Libtock.Udp.State

/-!
# Upcalls that write to the stack

A function that waits subscribes the address of a local variable. The kernel keeps the last
subscription of each slot and delivers one upcall for each one-shot command it accepted, and any
number while the ADC samples continuously or a UDP port is bound. Calls are numbered; a call made
inside the `yield_for` of another is on top of it on the stack.
-/

namespace Upcalls

open Core Tock

/-- The subscribe slots. -/
inductive Slot
  | adc
  | udpRx
  | udpTx
  | radioTx
  deriving DecidableEq

inductive Userdata
  | app (p : Ptr)
  /-- A local variable of a call. -/
  | onStack (call : ℕ)

/-- The call that the userdata is a local variable of. -/
def Userdata.owner : Userdata → Option ℕ
  | app _ => none
  | onStack call => some call

def adcOwner (sub : Subscription Adc.Upcall Userdata) : Option ℕ := sub.userdata.owner

def udpOwner (sub : Subscription Udp.Upcall (Option Userdata)) : Option ℕ :=
  sub.userdata.bind Userdata.owner

/-- The static variables of the library. -/
structure Statics where
  adc : Adc.State
  udp : Udp.State
  bufCfg : ℕ → BitVec 8

inductive Call
  | adcSetCallback (callback : Option Adc.Upcall) (args : Ptr)
  | adcSetModeCallback (mode : Adc.AdcMode) (callback : Option Ptr) (args : Ptr)
  | adcSetBuffer (buffer : Ptr) (len : U32)
  | adcSetDoubleBuffer (buffer : Ptr) (len : U32)
  | adcSingleSample (channel : Adc.U8)
  | adcContinuousSample (channel : Adc.U8) (frequency : U32)
  | adcBufferedSample (channel : Adc.U8) (frequency : U32)
  | adcContinuousBufferedSample (channel : Adc.U8) (frequency : U32)
  | adcStopSampling
  | adcSampleSync (channel : Adc.U8)
  | adcSampleBufferSync (channel : Adc.U8) (frequency : U32) (buffer : Ptr) (length : U32)
  | udpBind (addr : Udp.SockAddr) (bufBindCfg : BitVec 32)
  | udpClose
  | udpRecv (callback : Option Ptr) (buf : BitVec 32) (len : U32)
  | udpRecvSync (buf : BitVec 32) (len : U32)
  | udpSendTo (buf : BitVec 32) (len : U32) (dstAddr : Udp.SockAddr)
  | ieee802154Send (addr : BitVec 16) (level keyIdMode : U32) (keyId : ℕ → BitVec 8)
      (payload : Ieee802154.Addr) (len : BitVec 8)

namespace Call

/-- A function that does not wait and has no static variables. -/
def finish {σ ρ : Type} (f : σ → Option ℕ) (s : Statics) (x : Sys σ ρ ℤ) :
    Sys (Option ℕ) Unit (Outcome × Statics) := do
  let ret ← x.mapContent f
  return (.returned ret, s)

/-- What the call does, `n` being its number. -/
def program (n : ℕ) (s : Statics) : Call → Sys (Option ℕ) Unit (Outcome × Statics)
  | adcSetCallback callback args => finish adcOwner s (Adc.adcSetCallback callback (.app args))
  | adcSetModeCallback mode callback args => do
    let (ret, adc) ← (Adc.setModeCallback mode callback (.app args) s.adc).mapContent adcOwner
    return (.returned ret, { s with adc })
  | adcSetBuffer buffer len => finish adcOwner s (Adc.adcSetBuffer buffer len)
  | adcSetDoubleBuffer buffer len => finish adcOwner s (Adc.adcSetDoubleBuffer buffer len)
  | adcSingleSample channel => finish adcOwner s (Adc.adcSingleSample channel)
  | adcContinuousSample channel frequency =>
    finish adcOwner s (Adc.adcContinuousSample channel frequency)
  | adcBufferedSample channel frequency =>
    finish adcOwner s (Adc.adcBufferedSample channel frequency)
  | adcContinuousBufferedSample channel frequency =>
    finish adcOwner s (Adc.adcContinuousBufferedSample channel frequency)
  | adcStopSampling => finish adcOwner s Adc.adcStopSampling
  | adcSampleSync channel => do
    let outcome ← (Adc.adcSampleSync channel (.onStack n)).mapContent adcOwner
    return (outcome, s)
  | adcSampleBufferSync channel frequency buffer length => do
    let outcome ← (Adc.adcSampleBufferSync channel frequency buffer length
      (.onStack n)).mapContent adcOwner
    return (outcome, s)
  | udpBind addr bufBindCfg => do
    let (ret, udp) ← (Udp.udpBind addr bufBindCfg s.udp).mapContent udpOwner
    return (.returned ret, { s with udp })
  | udpClose => finish udpOwner s Udp.udpClose
  | udpRecv callback buf len => finish udpOwner s (Udp.udpRecv callback buf len)
  | udpRecvSync buf len => do
    let outcome ← (Udp.udpRecvSync buf len (.onStack n)).mapContent udpOwner
    return (outcome, s)
  | udpSendTo buf len dstAddr => do
    let (outcome, udp) ←
      (Udp.udpSendTo buf len dstAddr (.onStack n) s.udp).mapContent udpOwner
    return (outcome, { s with udp })
  | ieee802154Send addr level keyIdMode keyId payload len => do
    let (outcome, bufCfg) ← (Ieee802154.ieee802154Send addr level keyIdMode keyId payload len
      (.onStack n) s.bufCfg).mapContent Userdata.owner
    return (outcome, { s with bufCfg })

/-- `COMMAND_BIND` binds a port; it closes the socket when the address is zero. -/
def binds : Call → Bool
  | udpBind addr _ => addr ≠ ⟨0, 0⟩
  | _ => false

end Call

/-! ### The kernel -/

def slotOf (driver num : U32) : Option Slot :=
  if driver = Adc.driverNumAdc ∧ num = 0 then some .adc
  else if driver = Udp.udpDriver ∧ num = Udp.subscribeRx then some .udpRx
  else if driver = Udp.udpDriver ∧ num = Udp.subscribeTx then some .udpTx
  else if driver = Ieee802154.radioDriver ∧ num = Ieee802154.subscribeTx then some .radioTx
  else none

/-- What an accepted command leads to. -/
def accept (binds : Bool) (driver num : U32) (s : Channels Slot ℕ) : Channels Slot ℕ :=
  if driver = Adc.driverNumAdc then
    if num = 1 ∨ num = 3 then s.start .adc
    else if num = 2 ∨ num = 4 then s.setOpen .adc true
    else if num = 5 then s.setOpen .adc false
    else s
  else if driver = Udp.udpDriver then
    if num = Udp.commandSend then s.start .udpTx
    else if num = Udp.commandBind then s.setOpen .udpRx binds
    else s
  else if driver = Ieee802154.radioDriver ∧ num = Ieee802154.commandSend then s.start .radioTx
  else s

def issue (binds : Bool) (s : Channels Slot ℕ) : Issued (Option ℕ) Unit → Channels Slot ℕ
  | .subscribe driver num content .accepted =>
    match slotOf driver num with
    | some i => s.assign i content.join
    | none => s
  | .command driver num _ _ r => if r.isAccepted then accept binds driver num s else s
  | _ => s

/-! ### Runs -/

structure World where
  statics : Statics
  channels : Channels Slot ℕ
  /-- The calls that wait, innermost first. -/
  stack : List ℕ
  /-- Whether the record of a call has been filled in. -/
  fired : ℕ → Bool
  /-- The number of calls so far. -/
  calls : ℕ

inductive Action
  | call (c : Call) (k : Kernel)
  /-- The kernel delivers the upcall of a one-shot operation, or one of any number. -/
  | upcall (i : Slot) (oneShot : Bool)
  /-- The innermost `yield_for` tests its condition; if it holds, its function returns. -/
  | test

namespace World

/-- At program start. -/
def initial (statics : Statics) : World where
  statics := statics
  channels := ⟨fun _ => none, fun _ => 0, fun _ => false⟩
  stack := []
  fired := fun _ => false
  calls := 0

/-- A call that was made and does not wait any more. -/
def Returned (w : World) (n : ℕ) : Prop := n < w.calls ∧ n ∉ w.stack

def step (w : World) : Action → Option World
  | .call c k =>
    let ((outcome, statics), issued) := (c.program w.calls w.statics).run k
    some { w with
      statics
      channels := issued.foldl (issue c.binds) w.channels
      stack := if outcome.isWaiting then w.calls :: w.stack else w.stack
      calls := w.calls + 1 }
  | .upcall i oneShot =>
    if (if oneShot then 0 < w.channels.due i else w.channels.isOpen i = true) then
      some { w with
        channels := if oneShot then w.channels.finish i else w.channels
        fired := match w.channels.owner i with
          | some n => Function.update w.fired n true
          | none => w.fired }
    else none
  | .test =>
    match w.stack with
    | n :: stack => if w.fired n then some { w with stack } else none
    | [] => none

/-- The step relation; there are no events. -/
def Step (w : World) (a : Action) (w' : World) (es : List Unit) : Prop :=
  w.step a = some w' ∧ es = []

end World

end Upcalls
