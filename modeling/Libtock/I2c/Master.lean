import Libtock.Core.Bytes
import Libtock.Tock.Kernel

/-!
# The I2C master: `i2c_master.c`

The synchronous functions take an address and a length of 16 bits and pass them to functions that
take 8 bits. The buffer is shared in its whole length; what the command says of the transfer is what
is left of address and length.
-/

namespace I2c

open Core.Bytes Tock

abbrev U8 := BitVec 8

abbrev U16 := BitVec 16

def driverNumI2cMaster : U32 := 0x20003

def tockI2cMasterCb : U32 := 1

def tockI2cMasterBuf : U32 := 1

inductive Upcall
  | i2cCallback
  | app (p : Ptr)
  deriving DecidableEq

/-- System calls to the driver; the userdata is an address. -/
abbrev Calls := Sys (Subscription Upcall (Option Ptr)) Region

def i2cMasterSetCallback (callback : Option Upcall) (callbackArgs : Option Ptr) : Calls ℤ := do
  let sval ← Sys.subscribe driverNumI2cMaster tockI2cMasterCb (callback.map (⟨·, callbackArgs⟩))
  return sval.toReturncode

def i2cMasterSetBuffer (buffer : Option Ptr) (len : U32) : Calls ℤ := do
  let aval ← Sys.allowReadwrite driverNumI2cMaster tockI2cMasterBuf ⟨buffer, len⟩
  return aval.toReturncode

/-- `a` in the functions below. -/
def pack (address len : U8) : U32 := (len.setWidth 32 <<< 16) ||| address.setWidth 32

/-- The body that the functions below share. -/
def i2cMasterCommand (commandNum : U32) (address len : U8) : Calls ℤ := do
  let a := pack address len
  let cval ← Sys.command driverNumI2cMaster commandNum a (len.setWidth 32)
  return cval.toReturncode

def i2cMasterWrite : U8 → U8 → Calls ℤ := i2cMasterCommand 1

def i2cMasterRead : U8 → U8 → Calls ℤ := i2cMasterCommand 2

def i2cMasterWriteRead : U8 → U8 → Calls ℤ := i2cMasterCommand 3

/-- The body that the functions below share; `ready` is on the stack. -/
def i2cMasterSync (start : U8 → U8 → Calls ℤ) (ready : Ptr) (address : U16) (buffer : Option Ptr)
    (len : U16) : Calls Outcome := do
  let rval ← i2cMasterSetBuffer buffer (len.setWidth 32)
  if rval < 0 then return .returned rval
  let rval ← i2cMasterSetCallback (some .i2cCallback) (some ready)
  if rval < 0 then return .returned rval
  let rval ← start (address.setWidth 8) (len.setWidth 8)
  if rval < 0 then return .returned rval
  return .waits fun _ => (returncodeSuccess, [])

def i2cMasterWriteSync : Ptr → U16 → Option Ptr → U16 → Calls Outcome :=
  i2cMasterSync i2cMasterWrite

def i2cMasterReadSync : Ptr → U16 → Option Ptr → U16 → Calls Outcome :=
  i2cMasterSync i2cMasterRead

def i2cMasterWriteReadSync : Ptr → U16 → Option Ptr → U16 → Calls Outcome :=
  i2cMasterSync i2cMasterWriteRead

/-! ### The fields of the packed argument -/

section Pack

variable (address len : U8)

lemma address_lt : (address.setWidth 32 : U32).toNat < 2 ^ 16 := by
  rw [BitVec.toNat_setWidth]
  omega

lemma len_lt : (len.setWidth 32 : U32).toNat * 2 ^ 16 < 2 ^ 32 := by
  rw [BitVec.toNat_setWidth]
  omega

@[simp] lemma pack_and : pack address len &&& 0xFFFF#32 = address.setWidth 32 :=
  shiftLeft_or_and (by decide) (address_lt address) (len_lt len)

@[simp] lemma pack_shiftRight : pack address len >>> 16 = len.setWidth 32 :=
  shiftLeft_or_shiftRight (address_lt address) (len_lt len)

end Pack

/-- Truncation to a byte loses nothing of a small word. -/
lemma setWidth_setWidth_iff (x : U16) :
    (x.setWidth 8).setWidth 32 = x.setWidth 32 ↔ x < 0x100 := by
  have hbound : (0x100 : U16).toNat = 2 ^ 8 := rfl
  rw [← BitVec.toNat_inj, BitVec.lt_def, hbound]
  simp only [BitVec.toNat_setWidth]
  omega

/-! ### What the command says of a transfer -/

/-- The command gives the address and the length of the transfer, the latter in both arguments. -/
def Describes (address len : U16) : Issued (Subscription Upcall (Option Ptr)) Region → Prop
  | .command _ _ arg1 arg2 _ =>
    arg1 &&& 0xFFFF = address.setWidth 32 ∧ arg1 >>> 16 = len.setWidth 32 ∧
      arg2 = len.setWidth 32
  | _ => False

/-- The call fails, or it issues the command for the transfer asked for. -/
def Intact (address len : U16)
    (r : Outcome × List (Issued (Subscription Upcall (Option Ptr)) Region)) : Prop :=
  (∃ ret < 0, r.1 = .returned ret) ∨ ∃ i ∈ r.2, Describes address len i

/-- The kernel takes the buffer, the callback and the command with the truncated arguments. -/
structure Accepts (k : Kernel) (commandNum : U32) (address len : U8) : Prop where
  buffer : k.allowReadwrite driverNumI2cMaster tockI2cMasterBuf = .accepted
  callback : k.subscribe driverNumI2cMaster tockI2cMasterCb = .accepted
  command : k.command driverNumI2cMaster commandNum (pack address len) (len.setWidth 32) = .success

section Sync

variable {k : Kernel} {commandNum : U32} {ready : Ptr} {address len : U16} {buffer : Option Ptr}

lemma i2cMasterSync_of_accepts (h : Accepts k commandNum (address.setWidth 8) (len.setWidth 8)) :
    (i2cMasterSync (i2cMasterCommand commandNum) ready address buffer len).run k =
      (.waits fun _ => (returncodeSuccess, []),
        [.allowReadwrite driverNumI2cMaster tockI2cMasterBuf ⟨buffer, len.setWidth 32⟩ .accepted,
          .subscribe driverNumI2cMaster tockI2cMasterCb (some ⟨.i2cCallback, some ready⟩) .accepted,
          .command driverNumI2cMaster commandNum (pack (address.setWidth 8) (len.setWidth 8))
            ((len.setWidth 8).setWidth 32) .success]) := by
  simp [i2cMasterSync, i2cMasterSetBuffer, i2cMasterSetCallback, i2cMasterCommand, h.buffer,
    h.callback, h.command, returncodeSuccess]

lemma i2cMasterSync_of_refused
    (h : ¬ Accepts k commandNum (address.setWidth 8) (len.setWidth 8)) :
    ∃ ret < 0, ((i2cMasterSync (i2cMasterCommand commandNum) ready address buffer len).run k).1 =
      .returned ret := by
  by_cases hbuffer : k.allowReadwrite driverNumI2cMaster tockI2cMasterBuf = .accepted
  · by_cases hcallback : k.subscribe driverNumI2cMaster tockI2cMasterCb = .accepted
    · have hcommand : k.command driverNumI2cMaster commandNum
          (pack (address.setWidth 8) (len.setWidth 8)) ((len.setWidth 8).setWidth 32) ≠ .success :=
        fun hc => h ⟨hbuffer, hcallback, hc⟩
      refine ⟨_, (Response.toReturncode_neg_iff _).mpr hcommand, ?_⟩
      simp [i2cMasterSync, i2cMasterSetBuffer, i2cMasterSetCallback, i2cMasterCommand, hbuffer,
        hcallback, hcommand]
    · refine ⟨_, (Answer.toReturncode_neg_iff _).mpr hcallback, ?_⟩
      simp [i2cMasterSync, i2cMasterSetBuffer, i2cMasterSetCallback, hbuffer, hcallback]
  · refine ⟨_, (Answer.toReturncode_neg_iff _).mpr hbuffer, ?_⟩
    simp [i2cMasterSync, i2cMasterSetBuffer, hbuffer]

/-- Address and length arrive if they fit into a byte. -/
lemma i2cMasterSync_intact_iff :
    Intact address len
        ((i2cMasterSync (i2cMasterCommand commandNum) ready address buffer len).run k) ↔
      ¬ Accepts k commandNum (address.setWidth 8) (len.setWidth 8) ∨
        address < 0x100 ∧ len < 0x100 := by
  by_cases h : Accepts k commandNum (address.setWidth 8) (len.setWidth 8)
  · rw [i2cMasterSync_of_accepts h, or_iff_right (not_not_intro h)]
    simp [Intact, Describes, setWidth_setWidth_iff]
  · exact iff_of_true (.inl (i2cMasterSync_of_refused h)) (.inl h)

end Sync

/-- The synchronous functions. -/
inductive Transfer
  | write
  | read
  | writeRead

namespace Transfer

def commandNum : Transfer → U32
  | write => 1
  | read => 2
  | writeRead => 3

def sync : Transfer → Ptr → U16 → Option Ptr → U16 → Calls Outcome
  | write => i2cMasterWriteSync
  | read => i2cMasterReadSync
  | writeRead => i2cMasterWriteReadSync

lemma sync_eq (t : Transfer) : t.sync = i2cMasterSync (i2cMasterCommand t.commandNum) := by
  cases t <;> rfl

end Transfer

/-- A transfer that the kernel accepts is the one asked for exactly when its address and its length
fit into a byte. -/
theorem i2c_sync_intact_iff (t : Transfer) (k : Kernel) (ready : Ptr) (address : U16)
    (buffer : Option Ptr) (len : U16) :
    Intact address len ((t.sync ready address buffer len).run k) ↔
      ¬ Accepts k t.commandNum (address.setWidth 8) (len.setWidth 8) ∨
        address < 0x100 ∧ len < 0x100 := by
  rw [t.sync_eq]
  exact i2cMasterSync_intact_iff

/-- Of 300 bytes for the device 0x150, 44 bytes go to the device 0x50. -/
theorem i2c_write_sync_truncates :
    ¬ Intact 0x150 300 ((i2cMasterWriteSync 0x20001000 0x150 (some 0x20002000) 300).run
      (.steady .accepted .success)) := by
  intro h
  rcases i2cMasterSync_intact_iff.mp h with hrefused | hsmall
  · exact hrefused ⟨rfl, rfl, rfl⟩
  · exact absurd hsmall (by decide)

end I2c
