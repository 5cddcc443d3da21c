import Libtock.Ieee802154.Radio
import Libtock.Tock.Kernel

/-!
# Transmission: `ieee802154_send`
-/

namespace Ieee802154

open Tock

def radioDriver : U32 := 0x30001

def allowRoTx : U32 := 0

def subscribeTx : U32 := 1

def commandSend : U32 := 26

/-- The buffers that `ieee802154_send` shares with the driver. -/
inductive Buffer
  | bufCfg
  | payload (ptr : Addr) (len : BitVec 8)

/-- System calls to the radio driver; `δ` is the type of the userdata. -/
abbrev Calls (δ : Type) := Sys δ Buffer

/-- The end of `ieee802154_send`: the results of the last `tx_done_callback`. -/
def finishSend (upcalls : List UpcallArgs) : ℤ × List U32 :=
  let (txResult, txAcked) :=
    upcalls.foldl (fun _ args => (statusToReturncode args.arg0, args.arg1)) (0, 0)
  (if txResult ≠ returncodeSuccess then txResult
    else if txAcked = 0 then returncodeENoack
    else returncodeSuccess, [])

/-- `BUF_CFG` is the memory it starts from; `keyId` is what the pointer of this name leads to, and
`txDone` the address of the local variable `tx_done`. -/
def ieee802154Send {δ : Type} (addr : BitVec 16) (level keyIdMode : U32) (keyId : ℕ → BitVec 8)
    (payload : Addr) (len : BitVec 8) (txDone : δ) (bufCfg : ℕ → BitVec 8) :
    Calls δ (Outcome × (ℕ → BitVec 8)) := do
  let rw ← Sys.allowReadwrite radioDriver (BitVec.ofNat 32 allowCfg) .bufCfg
  if let .refused e := rw then return (.returned (tockStatusToReturncode e.status), bufCfg)
  let bufCfg := Function.update bufCfg 0 (level.setWidth 8)
  let bufCfg := Function.update bufCfg 1 (keyIdMode.setWidth 8)
  let bytes := keyIdBytes keyIdMode
  let bufCfg := fun i => if 2 ≤ i ∧ i < 2 + bytes then keyId (i - 2) else bufCfg i
  let ro ← Sys.allowReadonly radioDriver allowRoTx (.payload payload len)
  if let .refused e := ro then return (.returned (tockStatusToReturncode e.status), bufCfg)
  let sub ← Sys.subscribe radioDriver subscribeTx (some txDone)
  if let .refused e := sub then return (.returned (tockStatusToReturncode e.status), bufCfg)
  let com ← Sys.command radioDriver commandSend (addr.setWidth 32) 0
  let ret := com.toReturncode
  if ret < 0 then return (.returned ret, bufCfg)
  return (.waits finishSend, bufCfg)

end Ieee802154
