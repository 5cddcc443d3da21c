import Libtock.Tock.Syscall

/-!
# Growing the heap: `memop` of `tock.c` and `_sbrk` of `sys.c`

`memop` answers a refusal with `NULL`, and `_sbrk` looks for a negative return code. A refusal is
never taken for one, and an address can be.
-/

namespace Tock

/-- `memop`, on what the kernel answers to an operation and its argument. -/
def memop (kernel : BitVec 32 → BitVec 32 → SyscallReturn) (opType arg1 : BitVec 32) : BitVec 32 :=
  match kernel opType arg1 with
  | .successU32 val => val
  | _ => 0

/-- `ENOMEM` of `errno.h` -/
def enomem : ℤ := 12

/-- `_sbrk`: the address it returns, and `errno`. -/
def sbrk (kernel : BitVec 32 → BitVec 32 → SyscallReturn) (incr : BitVec 32) (errno : ℤ) :
    BitVec 32 × ℤ :=
  let ret := memop kernel 1 incr
  if ret.toInt = returncodeENomem then (-1, enomem) else (ret, errno)

/-- The kernel gave an address. -/
def SyscallReturn.Granted (r : SyscallReturn) : Prop := ∃ v, r = .successU32 v

/-- What `malloc` relies on: it is told that there is no more memory exactly when the kernel refuses
the request, and otherwise gets the address of the kernel. -/
structure ReportsExhaustion (answer : SyscallReturn) (r : BitVec 32 × ℤ) : Prop where
  refused_iff : r.1 = -1 ∧ r.2 = enomem ↔ ¬ answer.Granted
  address : ∀ v, answer = .successU32 v → r.1 = v
  ne_zero : ¬ answer.Granted → r.1 ≠ 0

variable {kernel : BitVec 32 → BitVec 32 → SyscallReturn} {incr v : BitVec 32} {errno : ℤ}

/-- A refused request looks like memory at address 0. -/
lemma sbrk_of_refused (h : ¬ (kernel 1 incr).Granted) : sbrk kernel incr errno = (0, errno) := by
  have hmemop : memop kernel 1 incr = 0 := by
    rw [memop]
    split
    · rename_i v hv
      exact absurd ⟨v, hv⟩ h
    · rfl
  rw [sbrk, hmemop]
  exact if_neg (by decide)

lemma sbrk_of_granted (h : kernel 1 incr = .successU32 v) :
    sbrk kernel incr errno =
      if v.toInt = returncodeENomem then (-1, enomem) else (v, errno) := by
  rw [sbrk, memop, h]

/-- An address that reads as `RETURNCODE_ENOMEM` is reported as a refusal, and the last address
as well if `errno` says so already; no refusal is. -/
theorem sbrk_reportsExhaustion_iff (kernel : BitVec 32 → BitVec 32 → SyscallReturn)
    (incr : BitVec 32) (errno : ℤ) :
    ReportsExhaustion (kernel 1 incr) (sbrk kernel incr errno) ↔
      ∃ v, kernel 1 incr = .successU32 v ∧ v.toInt ≠ returncodeENomem ∧
        ¬ (v = -1 ∧ errno = enomem) := by
  constructor
  · intro h
    by_cases hgranted : (kernel 1 incr).Granted
    · obtain ⟨v, hv⟩ := hgranted
      have hrefused := mt h.refused_iff.mp (not_not_intro ⟨v, hv⟩)
      rw [sbrk_of_granted hv] at hrefused
      split_ifs at hrefused with hnomem
      · exact absurd ⟨rfl, rfl⟩ hrefused
      · exact ⟨v, hv, hnomem, hrefused⟩
    · exact absurd (congrArg Prod.fst (sbrk_of_refused hgranted)) (h.ne_zero hgranted)
  · rintro ⟨v, hv, hnomem, hlast⟩
    have hgranted : (kernel 1 incr).Granted := ⟨v, hv⟩
    rw [sbrk_of_granted hv, if_neg hnomem]
    refine ⟨iff_of_false hlast (not_not_intro hgranted), ?_, absurd hgranted⟩
    intro v' hv'
    rw [hv, SyscallReturn.successU32.injEq] at hv'
    exact hv'

/-- No memory is left: `_sbrk` returns 0 and leaves `errno` alone. -/
theorem sbrk_refused_returns_null :
    sbrk (fun _ _ => .failure .nomem) 0x400 0 = (0, 0) ∧
      ¬ ReportsExhaustion (.failure .nomem) (sbrk (fun _ _ => .failure .nomem) 0x400 0) := by
  have hrefused : ¬ (SyscallReturn.failure .nomem).Granted := by
    rintro ⟨v, hv⟩
    cases hv
  exact ⟨rfl, fun h => h.ne_zero hrefused rfl⟩

end Tock
