import Libtock.Core.Memory
import Libtock.Tock.Kernel

/-!
# The UDP library: `udp.c`

The library shares a buffer of its own with the driver, `BUF_TX_CFG`, from which the kernel takes
the source and the destination of a packet. Pointers to addresses are the addresses they lead to.
-/

namespace Udp

open Core Tock

def udpDriver : U32 := 0x30002

def allowRx : U32 := 0
def allowRoTx : U32 := 0
def allowCfg : U32 := 1
def allowRxCfg : U32 := 2

def subscribeRx : U32 := 0
def subscribeTx : U32 := 1

def commandGetIfaces : U32 := 1
def commandSend : U32 := 2
def commandBind : U32 := 3

/-- `sock_addr_t` -/
structure SockAddr where
  addr : BitVec 128
  port : BitVec 16
  deriving DecidableEq

def sizeofIpv6Addr : U32 := 16

def sizeofSockAddr : U32 := 18

/-- The buffers the library shares with the driver: two of its own, and the application's. -/
inductive Buffer
  | bufTxCfg
  | zeroAddr
  | app (ptr : BitVec 32) (len : U32)
  deriving DecidableEq

inductive Upcall
  | txDoneCallback
  | rxDoneCallback
  /-- A function of the application. -/
  | app (f : Ptr)
  deriving DecidableEq

/-- The two addresses in `BUF_TX_CFG`. -/
structure State where
  source : SockAddr
  destination : SockAddr
  deriving DecidableEq

/-- `BUF_TX_CFG` at program start. -/
def initial : State := ⟨⟨0, 0⟩, ⟨0, 0⟩⟩

/-- System calls to the UDP driver; `δ` is the type of the userdata. -/
abbrev Calls (δ : Type) := Sys (Subscription Upcall (Option δ)) Buffer

variable {δ : Type}

/-- What it does to `handle` and to `buf_bind_cfg` is left out: the kernel writes to the latter, and
nobody reads the former. -/
def udpBind (addr : SockAddr) (bufBindCfg : BitVec 32) (s : State) : Calls δ (ℤ × State) := do
  let handleAddr := addr
  let aval ← Sys.allowReadwrite udpDriver allowRxCfg (.app bufBindCfg (2 * sizeofSockAddr))
  if let .refused e := aval then return (tockStatusToReturncode e.status, s)
  let aval ← Sys.allowReadwrite udpDriver allowCfg .bufTxCfg
  if let .refused e := aval then return (tockStatusToReturncode e.status, s)
  let s := { s with source := handleAddr }
  let cval ← Sys.command udpDriver commandBind 0 0
  return (cval.toReturncode, s)

def udpClose : Calls δ ℤ := do
  let aval ← Sys.allowReadwrite udpDriver allowRxCfg .zeroAddr
  if let .refused e := aval then return tockStatusToReturncode e.status
  let cval ← Sys.command udpDriver commandBind 0 0
  let err := cval.toReturncode
  if err < 0 then return err
  let sval ← Sys.subscribe udpDriver subscribeRx none
  return sval.toReturncode

/-- The result of the last `tx_done_callback`. -/
def finishSend (upcalls : List UpcallArgs) : ℤ × List U32 :=
  (upcalls.foldl (fun _ args => statusToReturncode args.arg0) 0, [])

/-- `txDone` is the address of the local variable `tx_done`. -/
def udpSendTo (buf : BitVec 32) (len : U32) (dstAddr : SockAddr) (txDone : δ) (s : State) :
    Calls δ (Outcome × State) := do
  let s := { s with destination := dstAddr }
  let aval ← Sys.allowReadonly udpDriver allowRoTx (.app buf len)
  if let .refused e := aval then return (.returned (tockStatusToReturncode e.status), s)
  let sval ← Sys.subscribe udpDriver subscribeTx (some ⟨.txDoneCallback, some txDone⟩)
  if let .refused e := sval then return (.returned (tockStatusToReturncode e.status), s)
  let ret ← Sys.command udpDriver commandSend 0 0
  if ret = .success then return (.returned returncodeSuccess, s)
  return (.waits finishSend, s)

def udpRecvSync (buf : BitVec 32) (len : U32) (rxDone : δ) : Calls δ Outcome := do
  let aval ← Sys.allowReadwrite udpDriver allowRx (.app buf len)
  if let .refused e := aval then return .returned (tockStatusToReturncode e.status)
  let sval ← Sys.subscribe udpDriver subscribeRx (some ⟨.rxDoneCallback, some rxDone⟩)
  if let .refused e := sval then return .returned (tockStatusToReturncode e.status)
  return .waits fun upcalls => (upcalls.foldl (fun _ args => args.arg0.toInt) 0, [])

def udpRecv (callback : Option Ptr) (buf : BitVec 32) (len : U32) : Calls δ ℤ := do
  let aval ← Sys.allowReadwrite udpDriver allowRx (.app buf len)
  if let .refused e := aval then return tockStatusToReturncode e.status
  let sval ← Sys.subscribe udpDriver subscribeRx (callback.map fun f => ⟨.app f, none⟩)
  return sval.toReturncode

def udpListIfaces (ifaces : Option (BitVec 32)) (len : U32) : Calls δ ℤ := do
  match ifaces with
  | none => return returncodeEInval
  | some ifaces =>
    let aval ← Sys.allowReadwrite udpDriver allowCfg (.app ifaces (len * sizeofIpv6Addr))
    if let .refused e := aval then return tockStatusToReturncode e.status
    let cval ← Sys.command udpDriver commandGetIfaces len 0
    return cval.toReturncode

/-! ### `udp_send_to` for each way the kernel may answer -/

section

variable {k : Kernel} (buf : BitVec 32) (len : U32) (dstAddr : SockAddr) (txDone : δ) (s : State)

lemma udpSendTo_run_allow_refused {e : Failure}
    (ha : k.allowReadonly udpDriver allowRoTx = .refused e) :
    (udpSendTo buf len dstAddr txDone s).run k =
      ((.returned (tockStatusToReturncode e.status), { s with destination := dstAddr }),
        [.allowReadonly udpDriver allowRoTx (.app buf len) (.refused e)]) := by
  simp [udpSendTo, ha]

lemma udpSendTo_run_subscribe_refused {e : Failure}
    (ha : k.allowReadonly udpDriver allowRoTx = .accepted)
    (hs : k.subscribe udpDriver subscribeTx = .refused e) :
    (udpSendTo buf len dstAddr txDone s).run k =
      ((.returned (tockStatusToReturncode e.status), { s with destination := dstAddr }),
        [.allowReadonly udpDriver allowRoTx (.app buf len) .accepted,
          .subscribe udpDriver subscribeTx (some ⟨.txDoneCallback, some txDone⟩)
            (.refused e)]) := by
  simp [udpSendTo, ha, hs]

lemma udpSendTo_run_accepted (ha : k.allowReadonly udpDriver allowRoTx = .accepted)
    (hs : k.subscribe udpDriver subscribeTx = .accepted) :
    (udpSendTo buf len dstAddr txDone s).run k =
      ((if k.command udpDriver commandSend 0 0 = .success then .returned returncodeSuccess
          else .waits finishSend, { s with destination := dstAddr }),
        [.allowReadonly udpDriver allowRoTx (.app buf len) .accepted,
          .subscribe udpDriver subscribeTx (some ⟨.txDoneCallback, some txDone⟩) .accepted,
          .command udpDriver commandSend 0 0 (k.command udpDriver commandSend 0 0)]) := by
  by_cases hret : k.command udpDriver commandSend 0 0 = .success <;>
    simp only [udpSendTo, Sys.bind_run, Sys.allowReadonly_run, ha, Sys.subscribe_run, hs,
      Sys.command_run, hret, if_true, if_false] <;> rfl

end

end Udp
