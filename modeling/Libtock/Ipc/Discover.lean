import Libtock.Tock.Syscall

/-!
# Service discovery: `ipc_discover` of `ipc.c`

The name of a service is lent to the kernel in a slot that the whole process shares. The function
puts back what it found there, but only once the service has been found.
-/

namespace Ipc

open Core Tock

/-- What the kernel holds in read-only slot 0 of the IPC driver. -/
structure Allowed where
  ptr : BitVec 32
  size : BitVec 32
  deriving DecidableEq

/-- A string in memory, without the `NUL` that ends it. -/
structure CString where
  address : BitVec 32
  chars : List (BitVec 8)
  nonzero : ∀ c ∈ chars, c ≠ 0
  fits : chars.length < 2 ^ 32

namespace CString

def strlen (s : CString) : BitVec 32 := BitVec.ofNat 32 s.chars.length

lemma toNat_strlen (s : CString) : s.strlen.toNat = s.chars.length := by
  rw [strlen, BitVec.toNat_ofNat, Nat.mod_eq_of_lt s.fits]

/-- The string as a region to share. -/
def allowed (s : CString) : Allowed := ⟨s.address, s.strlen⟩

end CString

/-! ### The code -/

/-- What the kernel answers to the three system calls of `ipc_discover`. -/
structure Answers where
  share : Answer
  discover : SyscallReturn
  restore : Answer

/-- The call `allow_readonly(IPC_DRIVER_NUM, 0, …)` and the slot after it. The kernel hands out what
it held, or the new region if it refuses that. -/
def allow (answer : Answer) (new held : Allowed) : Option (AllowRoReturn × Allowed) :=
  let answered : SyscallReturn :=
    match answer with
    | .accepted => .successU32U32 held.ptr held.size
    | .refused e => .failureU32U32 e.status new.ptr new.size
  (allowReadonly answered).map fun prev => (prev, answer.install new held)

/-- The result, the slot and the memory; `none` when the service id would go through a null
pointer. -/
def ipcDiscover (k : Answers) (pkgName : CString) (svcId : Option (BitVec 32)) (slot : Allowed)
    (m : Memory 32) : Option (ℤ × Allowed × Memory 32) := do
  let len := pkgName.strlen
  let (prev, slot) ← allow k.share ⟨pkgName.address, len⟩ slot
  if !prev.success then return (tockStatusToReturncode prev.status, slot, m)
  let (ret, m) ← tockCommandReturnU32ToReturncode k.discover svcId m
  if ret < 0 then return (ret, slot, m)
  let (prev, slot) ← allow k.restore ⟨prev.ptr, prev.size⟩ slot
  if !prev.success then return (tockStatusToReturncode prev.status, slot, m)
  return (returncodeSuccess, slot, m)

/-! ### What it leaves in the slot -/

/-- The answers to the discover command that do not become a negative return code. -/
def Found (discover : SyscallReturn) : Prop :=
  (∃ v, discover = .successU32 v) ∨ discover = .failure .success

variable {discover : SyscallReturn} (pkgName : CString) (p : BitVec 32) (slot : Allowed)
  (m : Memory 32)

/-- The command writes the service id and nothing else. -/
lemma tockCommandReturnU32ToReturncode_found (h : Found discover) :
    ∃ m', tockCommandReturnU32ToReturncode discover (some p) m = some (0, m') := by
  rcases h with ⟨v, rfl⟩ | rfl
  · exact ⟨_, rfl⟩
  · exact ⟨_, rfl⟩

lemma tockCommandReturnU32ToReturncode_not_found (h : ¬ Found discover) :
    ∃ ret < 0, tockCommandReturnU32ToReturncode discover (some p) m = some (ret, m) := by
  cases discover with
  | successU32 v => exact absurd (.inl ⟨v, rfl⟩) h
  | failure status =>
    have hne : status ≠ .success := fun hs => h (.inr (by rw [hs]))
    exact ⟨_, tockStatusToReturncode_neg ⟨status, hne⟩, rfl⟩
  | _ => exact ⟨returncodeEBadrval, by decide, rfl⟩

/-- Once the service is found the region is swapped back. -/
lemma ipcDiscover_found (h : Found discover) :
    ∃ m', ipcDiscover ⟨.accepted, discover, .accepted⟩ pkgName (some p) slot m =
      some (returncodeSuccess, slot, m') := by
  obtain ⟨m', hcom⟩ := tockCommandReturnU32ToReturncode_found p m h
  exact ⟨m', by simp [ipcDiscover, allow, allowReadonly, hcom]⟩

/-- Otherwise the kernel keeps the name. -/
lemma ipcDiscover_not_found (h : ¬ Found discover) :
    ∃ ret < 0, ipcDiscover ⟨.accepted, discover, .accepted⟩ pkgName (some p) slot m =
      some (ret, pkgName.allowed, m) := by
  obtain ⟨ret, hneg, hcom⟩ := tockCommandReturnU32ToReturncode_not_found p m h
  exact ⟨ret, hneg, by simp [ipcDiscover, allow, allowReadonly, hcom, hneg, CString.allowed]⟩

/-- The slot is as before exactly when the service is found, or the slot held the name already. -/
theorem ipc_discover_restores_iff (discover : SyscallReturn) (pkgName : CString) (p : BitVec 32)
    (slot : Allowed) (m : Memory 32) :
    ∃ ret slot' m', ipcDiscover ⟨.accepted, discover, .accepted⟩ pkgName (some p) slot m =
        some (ret, slot', m') ∧
      (slot' = slot ↔ Found discover ∨ slot = pkgName.allowed) := by
  by_cases h : Found discover
  · obtain ⟨m', hrun⟩ := ipcDiscover_found pkgName p slot m h
    exact ⟨_, _, m', hrun, iff_of_true rfl (.inl h)⟩
  · obtain ⟨ret, -, hrun⟩ := ipcDiscover_not_found pkgName p slot m h
    refine ⟨ret, _, m, hrun, ?_⟩
    rw [or_iff_right h, eq_comm]

/-- The service is not running: the kernel answers `NODEVICE`. -/
theorem ipc_discover_keeps_name :
    let pkgName : CString := ⟨0x20001000, [0x61, 0x70, 0x70], by decide, by decide⟩
    ∃ slot' m', ipcDiscover ⟨.accepted, .failure .nodevice, .accepted⟩ pkgName (some 0x20002000)
        ⟨0, 0⟩ (fun _ => 0) = some (-11, slot', m') ∧
      slot' = ⟨0x20001000, 3⟩ ∧ slot' ≠ ⟨0, 0⟩ :=
  ⟨_, _, rfl, rfl, by decide⟩

end Ipc
