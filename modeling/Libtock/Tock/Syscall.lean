import Mathlib.Data.Int.Notation
import Mathlib.Data.Nat.Notation
import Libtock.Core.Memory

/-!
# Status codes and return codes of `tock.h`

The kernel answers a system call that fails with a status other than `TOCK_STATUSCODE_SUCCESS`;
the library turns it into a negative return code.
-/

namespace Tock

/-- `statuscode_t` -/
inductive StatusCode
  | success
  | fail
  | busy
  | already
  | off
  | reserve
  | inval
  | size
  | cancel
  | nomem
  | nosupport
  | nodevice
  | uninstalled
  | noack
  deriving DecidableEq

def StatusCode.toInt : StatusCode → ℤ
  | success => 0
  | fail => 1
  | busy => 2
  | already => 3
  | off => 4
  | reserve => 5
  | inval => 6
  | size => 7
  | cancel => 8
  | nomem => 9
  | nosupport => 10
  | nodevice => 11
  | uninstalled => 12
  | noack => 13

/-- The status of a system call that failed. -/
structure Failure where
  status : StatusCode
  ne_success : status ≠ .success
  deriving DecidableEq

def returncodeSuccess : ℤ := 0

def returncodeFail : ℤ := -1

def returncodeEAlready : ℤ := -3

def returncodeEInval : ℤ := -6

def returncodeESize : ℤ := -7

def returncodeENomem : ℤ := -9

def returncodeENoack : ℤ := -13

def returncodeEBadrval : ℤ := -1024

def tockStatusToReturncode (status : StatusCode) : ℤ := -1 * status.toInt

/-- The variants of a `syscall_return_t` that `tock_command_return_novalue_to_returncode` tells
apart. -/
inductive CommandReturn
  | success
  | failure (status : Failure)
  | other

def tockCommandReturnNovalueToReturncode : CommandReturn → ℤ
  | .success => returncodeSuccess
  | .failure e => tockStatusToReturncode e.status
  | .other => returncodeEBadrval

lemma tockStatusToReturncode_neg (e : Failure) : tockStatusToReturncode e.status < 0 := by
  have hne := e.ne_success
  revert hne
  cases e.status <;> decide

lemma tockCommandReturnNovalueToReturncode_neg {r : CommandReturn} (h : r ≠ .success) :
    tockCommandReturnNovalueToReturncode r < 0 := by
  cases r with
  | success => exact absurd rfl h
  | failure e => exact tockStatusToReturncode_neg e
  | other => decide

/-- A `subscribe_return_t`, `allow_rw_return_t` or `allow_ro_return_t`. -/
inductive Answer
  | accepted
  | refused (e : Failure)
  deriving DecidableEq

namespace Answer

/-- `tock_subscribe_return_to_returncode`, `tock_allow_rw_return_to_returncode` and
`tock_allow_ro_return_to_returncode` -/
def toReturncode : Answer → ℤ
  | accepted => returncodeSuccess
  | refused e => tockStatusToReturncode e.status

/-- What is in the slot of a driver after the call: the kernel keeps the old content when it
refuses. -/
def install {α : Type*} (new old : α) : Answer → α
  | accepted => new
  | refused _ => old

@[simp] lemma install_accepted {α : Type*} (new old : α) : accepted.install new old = new := rfl

@[simp] lemma install_refused {α : Type*} (new old : α) (e : Failure) :
    (refused e).install new old = old := rfl

@[simp] lemma toReturncode_neg_iff (a : Answer) : a.toReturncode < 0 ↔ a ≠ accepted := by
  cases a with
  | accepted => decide
  | refused e => simpa [toReturncode] using tockStatusToReturncode_neg e

@[simp] lemma toReturncode_lt_success_iff (a : Answer) :
    a.toReturncode < returncodeSuccess ↔ a ≠ accepted := toReturncode_neg_iff a

@[simp] lemma toReturncode_eq_iff (a : Answer) :
    a.toReturncode = returncodeSuccess ↔ a = accepted := by
  cases a with
  | accepted => exact iff_of_true rfl rfl
  | refused e =>
    have hneg : (refused e).toReturncode < 0 := (toReturncode_neg_iff _).mpr nofun
    exact iff_of_false hneg.ne nofun

end Answer

/-- The content of a subscribe slot. -/
structure Subscription (υ δ : Type*) where
  callback : υ
  userdata : δ
  deriving DecidableEq

/-- `syscall_return_t`: each variant with the data it carries. -/
inductive SyscallReturn
  | failure (status : StatusCode)
  | failureU32 (status : StatusCode) (v : BitVec 32)
  | failureU32U32 (status : StatusCode) (v v' : BitVec 32)
  | failureU64 (status : StatusCode) (v : BitVec 64)
  | success
  | successU32 (v : BitVec 32)
  | successU32U32 (v v' : BitVec 32)
  | successU64 (v : BitVec 64)
  | successU32U32U32 (v v' v'' : BitVec 32)
  | successU64U32 (v : BitVec 64) (v' : BitVec 32)
  deriving DecidableEq

/-- `allow_ro_return_t` -/
structure AllowRoReturn where
  success : Bool
  ptr : BitVec 32
  size : BitVec 32
  status : StatusCode

/-- `allow_readonly` on what the kernel answers; `none` when it exits. -/
def allowReadonly : SyscallReturn → Option AllowRoReturn
  | .successU32U32 v v' => some ⟨true, v, v', .success⟩
  | .failureU32U32 status v v' => some ⟨false, v, v', status⟩
  | _ => none

/-- `tock_command_return_u32_to_returncode`: the result and the memory; `none` when it writes
through a null pointer. -/
def tockCommandReturnU32ToReturncode (com : SyscallReturn) (val : Option (BitVec 32))
    (m : Core.Memory 32) : Option (ℤ × Core.Memory 32) :=
  match com with
  | .successU32 v => val.map fun p => (returncodeSuccess, m.store 4 p v)
  | .failure status => some (tockStatusToReturncode status, m)
  | _ => some (returncodeEBadrval, m)

/-- Only the variant with one word writes to memory, and then the call succeeds. -/
lemma tockCommandReturnU32ToReturncode_neg {com : SyscallReturn} {val : Option (BitVec 32)}
    {m m' : Core.Memory 32} {ret : ℤ}
    (h : tockCommandReturnU32ToReturncode com val m = some (ret, m')) (hneg : ret < 0) :
    m' = m := by
  cases com with
  | successU32 v =>
    obtain ⟨p, -, hp⟩ := Option.map_eq_some_iff.mp h
    cases hp
    exact absurd hneg (lt_irrefl _)
  | _ =>
    cases h
    rfl

end Tock
