import Libtock.Crt0.Start

/-!
# The entry point: the assembly of `_start`

The two versions of `_start` are lists of instructions of a small register machine. A system call is
recorded with its arguments and the stack pointer it is made with; the kernel may leave anything in
the registers of its results and keeps the others. The programs only branch forwards.
-/

namespace Crt0

/-! ### The machine -/

/-- What an instruction does, for registers `R`; branch targets and functions have names. -/
inductive Instr (R : Type)
  /-- `ldr d, [n, #offset]` and `lw d, offset(n)` -/
  | load (d n : R) (offset : U32)
  /-- `movs d, #v` and `li d, v` -/
  | imm (d : R) (v : U32)
  /-- `add d, #v` and `addi d, n, v` -/
  | addImm (d n : R) (v : U32)
  | add (d n k : R)
  | and (d n k : R)
  | bic (d n k : R)
  | not (d n : R)
  /-- `mov d, n`, `movs d, n` and `mv d, n` -/
  | move (d n : R)
  | cmp (n k : R)
  /-- Branches if the first operand of the last `cmp` was greater, both taken as signed. -/
  | bgt (label : String)
  | label (name : String)
  /-- `svc #class` -/
  | svc (cls : U32)
  /-- `ecall` with the class in `r` -/
  | ecall (r : R)
  /-- A call of a function that does not return. -/
  | call (name : String)

/-- A system call, and the stack pointer when it is made. -/
structure Trap where
  cls : U32
  op : U32
  arg : U32
  sp : U32

structure Machine (R : Type) where
  regs : R → U32
  gt : Bool
  traps : List Trap
  /-- The function that was called at the end. -/
  called : Option String

/-- The registers that system calls use. -/
structure Abi (R : Type) where
  op : R
  arg : R
  sp : R
  /-- The registers that hold results behind a call. -/
  results : List R

section Exec

variable {R : Type} [DecidableEq R] (abi : Abi R) (m : Mem) (ans : ℕ → R → U32)

def Machine.set (d : R) (v : U32) (s : Machine R) : Machine R :=
  { s with regs := Function.update s.regs d v }

/-- The kernel answers the `k`-th call with `ans k` in the registers of results. -/
def Machine.trap (cls : U32) (s : Machine R) : Machine R :=
  { s with
    regs := fun r => if r ∈ abi.results then ans s.traps.length r else s.regs r
    traps := s.traps ++ [⟨cls, s.regs abi.op, s.regs abi.arg, s.regs abi.sp⟩] }

/-- Runs the program; after a branch it skips what stands before the label. -/
def exec : List (Instr R) → Option String → Machine R → Machine R
  | [], _, s => s
  | .label l :: is, some l', s => exec is (if l = l' then none else some l') s
  | _ :: is, some l', s => exec is (some l') s
  | i :: is, none, s =>
    match i with
    | .load d n offset => exec is none (s.set d (word m (s.regs n + offset)))
    | .imm d v => exec is none (s.set d v)
    | .addImm d n v => exec is none (s.set d (s.regs n + v))
    | .add d n k => exec is none (s.set d (s.regs n + s.regs k))
    | .and d n k => exec is none (s.set d (s.regs n &&& s.regs k))
    | .bic d n k => exec is none (s.set d (s.regs n &&& ~~~s.regs k))
    | .not d n => exec is none (s.set d (~~~s.regs n))
    | .move d n => exec is none (s.set d (s.regs n))
    | .cmp n k => exec is none { s with gt := (s.regs k).slt (s.regs n) }
    | .bgt l => exec is (if s.gt then some l else none) s
    | .label _ => exec is none s
    | .svc cls => exec is none (s.trap abi ans cls)
    | .ecall r => exec is none (s.trap abi ans (s.regs r))
    | .call f => { s with called := some f }

end Exec

/-! ### The two programs -/

inductive ArmReg
  | r0 | r1 | r2 | r3 | r4 | r5 | r6 | r7 | r9 | sp
  deriving DecidableEq

inductive RiscvReg
  | a0 | a1 | a2 | a3 | a4 | t0 | t1 | t2 | s0 | s1 | s2 | sp
  deriving DecidableEq

def armAbi : Abi ArmReg := ⟨.r0, .r1, .sp, [.r0, .r1, .r2, .r3]⟩

def riscvAbi : Abi RiscvReg := ⟨.a0, .a1, .sp, [.a0, .a1, .a2, .a3]⟩

section Thumb

open Instr ArmReg

/-- `_start` for `__thumb__` -/
def startThumb : List (Instr ArmReg) := [
  load r4 r0 36,
  addImm r4 r4 7,
  add r4 r4 r1,
  imm r5 7,
  bic r4 r4 r5,
  load r5 r0 24,
  load r6 r0 28,
  add r5 r5 r6,
  add r5 r5 r1,
  move r6 r0,
  move r7 r1,
  cmp r5 r3,
  bgt "skip_set_sp",
  move sp r4,
  label "skip_set_sp",
  imm r0 0,
  move r1 r5,
  svc 5,
  imm r0 10,
  move r1 r4,
  svc 5,
  imm r0 11,
  move r1 r5,
  svc 5,
  move sp r4,
  load r0 r6 4,
  add r0 r0 r7,
  move r9 r0,
  move r0 r6,
  move r1 r7,
  call "_c_start_pic"]

end Thumb

section Riscv

open Instr RiscvReg

/-- `_start` for `__riscv`; its `bgt` compares the registers itself. -/
def startRiscv : List (Instr RiscvReg) := [
  load t0 a0 36,
  addImm t0 t0 7,
  add t0 t0 a1,
  imm t1 7,
  not t1 t1,
  and t0 t0 t1,
  load t1 a0 24,
  load t2 a0 28,
  add t1 t1 t2,
  add t1 t1 a1,
  move s0 a0,
  move s1 t0,
  move s2 a1,
  cmp t1 a3,
  bgt "skip_set_sp",
  move sp t0,
  label "skip_set_sp",
  imm a4 5,
  imm a0 0,
  move a1 t1,
  ecall a4,
  imm a4 5,
  imm a0 10,
  move a1 s1,
  ecall a4,
  imm a4 5,
  imm a0 11,
  move a1 t1,
  ecall a4,
  move sp s1,
  move a0 s0,
  move s0 sp,
  move a1 s2,
  call "_c_start_nopic"]

end Riscv

/-! ### What they compute -/

/-- `struct hdr`'s `stack_size` -/
def stackSize (app : U32) (m : Mem) : U32 := word m (app + 36)

/-- `((uint32_t) mem_start + myhdr->stack_size + 7) & 0xfffffff8` -/
def stacktop (app mem : U32) (m : Mem) : U32 := (stackSize app m + 7 + mem) &&& ~~~7

/-- `mem_start + myhdr->bss_start + myhdr->bss_size` -/
def appBrk (app mem : U32) (m : Mem) : U32 := bssStart app m + bssSize app m + mem

/-- The stack pointer during the system calls: the one the kernel gave as long as the memory below
the new break may not be accessible. -/
def entrySp (app mem heapBreak sp : U32) (m : Mem) : U32 :=
  if heapBreak.slt (appBrk app mem m) then sp else stacktop app mem m

/-- `memop(0, app_brk)`, `memop(10, stacktop)` and `memop(11, app_brk)` -/
def entryTraps (app mem heapBreak sp : U32) (m : Mem) : List Trap :=
  [⟨5, 0, appBrk app mem m, entrySp app mem heapBreak sp m⟩,
    ⟨5, 10, stacktop app mem m, entrySp app mem heapBreak sp m⟩,
    ⟨5, 11, appBrk app mem m, entrySp app mem heapBreak sp m⟩]

/-- How `_start` ends: with a call of `f`, and the stack pointer and two arguments set up. -/
structure Enters (app mem heapBreak sp : U32) (m : Mem) (f : String) (traps : List Trap)
    (called : Option String) (arg0 arg1 sp' : U32) : Prop where
  called_eq : called = some f
  traps_eq : traps = entryTraps app mem heapBreak sp m
  arg0_eq : arg0 = app
  arg1_eq : arg1 = mem
  sp_eq : sp' = stacktop app mem m

variable (m : Mem)

lemma exec_startThumb (ans : ℕ → ArmReg → U32) (regs : ArmReg → U32) (gt : Bool) :
    let s := exec armAbi m ans startThumb none ⟨regs, gt, [], none⟩
    Enters (regs .r0) (regs .r1) (regs .r3) (regs .sp) m "_c_start_pic" s.traps s.called
      (s.regs .r0) (s.regs .r1) (s.regs .sp) ∧ s.regs .r9 = gotStart (regs .r0) m + regs .r1 := by
  have hbrk : word m (regs .r0 + 24#32) + word m (regs .r0 + 28#32) + regs .r1
      = appBrk (regs .r0) (regs .r1) m := rfl
  cases hgt : (regs .r3).slt (appBrk (regs .r0) (regs .r1) m) with
  | true =>
    refine ⟨⟨?_, ?_, ?_, ?_, ?_⟩, ?_⟩ <;>
      simp [startThumb, exec, Machine.set, Machine.trap, armAbi, hbrk, hgt, entryTraps, entrySp,
        stacktop, stackSize, gotStart]
  | false =>
    refine ⟨⟨?_, ?_, ?_, ?_, ?_⟩, ?_⟩ <;>
      simp [startThumb, exec, Machine.set, Machine.trap, armAbi, hbrk, hgt, entryTraps, entrySp,
        stacktop, stackSize, gotStart]

lemma exec_startRiscv (ans : ℕ → RiscvReg → U32) (regs : RiscvReg → U32) (gt : Bool) :
    let s := exec riscvAbi m ans startRiscv none ⟨regs, gt, [], none⟩
    Enters (regs .a0) (regs .a1) (regs .a3) (regs .sp) m "_c_start_nopic" s.traps s.called
      (s.regs .a0) (s.regs .a1) (s.regs .sp) ∧ s.regs .s0 = stacktop (regs .a0) (regs .a1) m := by
  have hbrk : word m (regs .a0 + 24#32) + word m (regs .a0 + 28#32) + regs .a1
      = appBrk (regs .a0) (regs .a1) m := rfl
  cases hgt : (regs .a3).slt (appBrk (regs .a0) (regs .a1) m) with
  | true =>
    refine ⟨⟨?_, ?_, ?_, ?_, ?_⟩, ?_⟩ <;>
      simp [startRiscv, exec, Machine.set, Machine.trap, riscvAbi, hbrk, hgt, entryTraps, entrySp,
        stacktop, stackSize]
  | false =>
    refine ⟨⟨?_, ?_, ?_, ?_, ?_⟩, ?_⟩ <;>
      simp [startRiscv, exec, Machine.set, Machine.trap, riscvAbi, hbrk, hgt, entryTraps, entrySp,
        stacktop, stackSize]

end Crt0
