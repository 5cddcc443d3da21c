import Libtock.Crt0.Entry
import Libtock.Crt0.Relocation

/-!
# The memory of a process at its start

The linker script puts the stack at the bottom of RAM, then the global offset table, the data and
the BSS section, and the break goes behind them. With what the kernel promises a process this is
enough for the start-up code: the sections are where the start-up routines want them, and these
routines leave the stack alone. While `_start` makes its system calls its stack pointer has accessible
memory below it, unless the signed comparison of the two breaks goes wrong.
-/

namespace Crt0

open Core Memory

/-! ### The linker script and the kernel -/

/-- What `userland_generic.ld` says of the numbers in the header. -/
structure Linked (app : U32) (m : Mem) : Prop where
  /-- The stack is padded to 16 bytes, and the global offset table follows. -/
  stack : 16 * (((stackSize app m).toNat + 15) / 16) ≤ (gotStart app m).toNat
  got : (gotStart app m).toNat + (gotSize app m).toNat ≤ (dataStart app m).toNat
  data : (dataStart app m).toNat + (dataSize app m).toNat ≤ (bssStart app m).toNat

/-- The size of the memory below the break that `_start` asks for. -/
def ramSize (app : U32) (m : Mem) : ℕ := (bssStart app m).toNat + (bssSize app m).toNat

/-- Where the kernel starts a process: `n` bytes are what it pushes on the stack in a system call. -/
structure Granted (n : ℕ) (app mem heapBreak sp : U32) (m : Mem) (flash : Set U32) : Prop where
  aligned : 8 ∣ mem.toNat
  fits : mem.toNat + ramSize app m < 2 ^ 32
  ram : Disjoint (block mem (ramSize app m)) flash
  sp : mem.toNat + n ≤ sp.toNat ∧ sp.toNat ≤ heapBreak.toNat
  stack : n ≤ (stackSize app m).toNat

/-- What start-up reads is in flash. -/
structure InFlash (app : U32) (m : Mem) (flash : Set U32) : Prop where
  header : block app 40 ⊆ flash
  gotSrc : block (gotSrc app m) (gotSize app m).toNat ⊆ flash
  dataSrc : block (dataSrc app m) (dataSize app m).toNat ⊆ flash

/-- `_start` compares the breaks as signed numbers. That is right for breaks in one half of the
address space, and does no harm if the stack pointer it leads to is below the lower break. -/
def ComparesWell (app mem heapBreak sp : U32) (m : Mem) : Prop :=
  heapBreak.msb ≠ (appBrk app mem m).msb →
    if heapBreak < appBrk app mem m then (stacktop app mem m).toNat ≤ heapBreak.toNat
    else sp.toNat ≤ (appBrk app mem m).toNat

/-- The `n` bytes below the stack pointer of a call are accessible, before the break moves from
`heapBreak` to `brk` and after. -/
def FramesFit (n : ℕ) (mem heapBreak brk : U32) (traps : List Trap) : Prop :=
  ∀ t ∈ traps, mem.toNat + n ≤ t.sp.toNat ∧ t.sp.toNat ≤ heapBreak.toNat ∧
    t.sp.toNat ≤ brk.toNat

variable {n : ℕ} {app mem heapBreak sp : U32} {m : Mem} {flash : Set U32}

/-! ### The top of the stack and the break -/

/-- Clearing the three low bits rounds down to a multiple of 8. -/
lemma toNat_and_not_seven (x : U32) : (x &&& ~~~(7 : U32)).toNat = 8 * (x.toNat / 8) := by
  have hmask : ∀ i < 32, (~~~(7 : U32)).getLsbD i = !decide (i < 3) := by decide
  have hshift : x &&& ~~~(7 : U32) = x >>> 3 <<< 3 := by
    apply BitVec.eq_of_getLsbD_eq
    intro i hi
    rw [BitVec.getLsbD_and, hmask i hi, BitVec.getLsbD_shiftLeft, BitVec.getLsbD_ushiftRight]
    rcases Nat.lt_or_ge i 3 with hlt | hge
    · simp [hlt]
    · simp [hi, Nat.not_lt.mpr hge, Nat.add_sub_cancel' hge]
  have hx := x.isLt
  rw [hshift, BitVec.toNat_shiftLeft, BitVec.toNat_ushiftRight, Nat.shiftLeft_eq,
    Nat.shiftRight_eq_div_pow, Nat.mod_eq_of_lt (by omega)]
  omega

lemma toNat_stacktop (h : (stackSize app m).toNat + 7 + mem.toNat < 2 ^ 32) :
    (stacktop app mem m).toNat = 8 * (((stackSize app m).toNat + 7 + mem.toNat) / 8) := by
  have hsum : (stackSize app m + 7 + mem).toNat = (stackSize app m).toNat + 7 + mem.toNat := by
    have h7 : (7 : U32).toNat = 7 := rfl
    rw [BitVec.toNat_add, BitVec.toNat_add, h7]
    omega
  rw [stacktop, toNat_and_not_seven, hsum]

section Granted

variable (hgranted : Granted n app mem heapBreak sp m flash)

include hgranted

lemma toNat_appBrk : (appBrk app mem m).toNat = mem.toNat + ramSize app m := by
  have hfits := hgranted.fits
  rw [ramSize] at hfits ⊢
  rw [appBrk, BitVec.toNat_add, BitVec.toNat_add]
  omega

/-- Where a part of the RAM of the process is. -/
lemma mem_part_iff {start : U32} {k : ℕ} (hk : start.toNat + k ≤ ramSize app m) {a : U32} :
    a ∈ block (start + mem) k ↔
      mem.toNat + start.toNat ≤ a.toNat ∧ a.toNat < mem.toNat + start.toNat + k := by
  have hfits := hgranted.fits
  have ha := a.isLt
  have hstart : (start + mem).toNat = mem.toNat + start.toNat := by
    rw [BitVec.toNat_add]
    omega
  rw [mem_block, BitVec.toNat_sub, hstart]
  omega

lemma disjoint_flash {start : U32} {k : ℕ} (hk : start.toNat + k ≤ ramSize app m) :
    Disjoint (block (start + mem) k) flash := by
  refine hgranted.ram.mono_left fun a ha => ?_
  have hzero : (0#32).toNat + ramSize app m ≤ ramSize app m := by simp
  have hram := mem_part_iff hgranted hzero (a := a)
  rw [mem_part_iff hgranted hk] at ha
  rw [BitVec.zero_add, BitVec.toNat_ofNat] at hram
  rw [hram]
  omega

lemma disjoint_parts {start start' : U32} {k k' : ℕ} (hle : start.toNat + k ≤ start'.toNat)
    (hk' : start'.toNat + k' ≤ ramSize app m) :
    Disjoint (block (start + mem) k) (block (start' + mem) k') := by
  rw [Set.disjoint_left]
  intro a ha ha'
  rw [mem_part_iff hgranted (by omega)] at ha
  rw [mem_part_iff hgranted hk'] at ha'
  omega

end Granted

section Linked

variable (hlinked : Linked app m) (hgranted : Granted n app mem heapBreak sp m flash)

include hlinked

/-- The sections are below the break, in their order. -/
lemma sections_le : (gotStart app m).toNat + (gotSize app m).toNat ≤ ramSize app m ∧
    (dataStart app m).toNat + (dataSize app m).toNat ≤ ramSize app m ∧
    (bssStart app m).toNat + (bssSize app m).toNat ≤ ramSize app m := by
  have hgot := hlinked.got
  have hdata := hlinked.data
  rw [ramSize]
  omega

include hgranted

/-- The stack is as large as was asked for, and ends before the global offset table. -/
lemma stacktop_bounds :
    mem.toNat + (stackSize app m).toNat ≤ (stacktop app mem m).toNat ∧
      (stacktop app mem m).toNat ≤ mem.toNat + (gotStart app m).toNat ∧
      8 ∣ (stacktop app mem m).toNat := by
  have hstack := hlinked.stack
  have hsections := sections_le hlinked
  have hfits := hgranted.fits
  obtain ⟨k, hk⟩ := hgranted.aligned
  rw [toNat_stacktop (by omega), hk]
  refine ⟨by omega, by omega, ⟨_, rfl⟩⟩

/-- The alignment to 8 bytes is one to 16 for some sizes of the stack. -/
lemma stacktop_aligned_iff : 16 ∣ (stacktop app mem m).toNat ↔
    ((stackSize app m).toNat + 7 + mem.toNat) % 16 < 8 := by
  have hstack := hlinked.stack
  have hsections := sections_le hlinked
  have hfits := hgranted.fits
  obtain ⟨k, hk⟩ := hgranted.aligned
  rw [toNat_stacktop (by omega)]
  omega

/-- During the system calls the stack pointer has `n` accessible bytes below it, before the break
moves and after, if the comparison of the breaks does no harm. -/
lemma entrySp_bounds_iff :
    (mem.toNat + n ≤ (entrySp app mem heapBreak sp m).toNat ∧
        (entrySp app mem heapBreak sp m).toNat ≤ heapBreak.toNat ∧
        (entrySp app mem heapBreak sp m).toNat ≤ (appBrk app mem m).toNat) ↔
      ComparesWell app mem heapBreak sp m := by
  obtain ⟨hlow, hhigh⟩ := hgranted.sp
  obtain ⟨hsize, hend, -⟩ := stacktop_bounds hlinked hgranted
  have hbrk := toNat_appBrk hgranted
  have hstack := hgranted.stack
  have hsections := sections_le hlinked
  by_cases hlt : heapBreak < appBrk app mem m
  · have hmoves := BitVec.lt_def.mp hlt
    by_cases hmsb : heapBreak.msb = (appBrk app mem m).msb
    · -- the break moves up: the kernel's stack pointer stays good
      have hslt : heapBreak.slt (appBrk app mem m) = true := by
        rwa [BitVec.slt_eq_ult_of_msb_eq hmsb, BitVec.ult_iff_lt]
      simp only [entrySp, hslt, ComparesWell, hmsb]
      exact iff_of_true ⟨hlow, hhigh, hhigh.trans hmoves.le⟩ fun hne => absurd rfl hne
    · -- our own stack is taken although the break moves up
      have hslt : heapBreak.slt (appBrk app mem m) = false := by
        rwa [BitVec.slt_eq_not_ult_of_msb_neq hmsb, Bool.not_eq_false', BitVec.ult_iff_lt]
      simp only [entrySp, hslt, ComparesWell, ne_eq, hmsb, not_false_eq_true, true_implies, hlt,
        if_true, Bool.false_eq_true, if_false]
      exact ⟨fun h => h.2.1, fun h => ⟨by omega, h, by omega⟩⟩
  · have hmoves := not_lt.mp (BitVec.lt_def.not.mp hlt)
    by_cases hmsb : heapBreak.msb = (appBrk app mem m).msb
    · -- the break moves down: our own stack is below both
      have hslt : heapBreak.slt (appBrk app mem m) = false := by
        rwa [BitVec.slt_eq_ult_of_msb_eq hmsb, ← Bool.not_eq_true, BitVec.ult_iff_lt]
      simp only [entrySp, hslt, ComparesWell, hmsb, Bool.false_eq_true, if_false]
      exact iff_of_true ⟨by omega, by omega, by omega⟩ fun hne => absurd rfl hne
    · -- the kernel's stack pointer is kept although the break moves down
      have hslt : heapBreak.slt (appBrk app mem m) = true := by
        rwa [BitVec.slt_eq_not_ult_of_msb_neq hmsb, Bool.not_eq_true', ← Bool.not_eq_true,
          BitVec.ult_iff_lt]
      simp only [entrySp, hslt, ComparesWell, ne_eq, hmsb, not_false_eq_true, true_implies, hlt,
        if_true, if_false]
      exact ⟨fun h => h.2.2, fun h => ⟨hlow, hhigh, h⟩⟩

lemma entryTraps_framesFit_iff :
    FramesFit n mem heapBreak (appBrk app mem m) (entryTraps app mem heapBreak sp m) ↔
      ComparesWell app mem heapBreak sp m := by
  rw [← entrySp_bounds_iff hlinked hgranted]
  simp only [FramesFit, entryTraps, List.forall_mem_cons, List.not_mem_nil, false_implies,
    implies_true, and_true, and_self]

/-- The sections are where the start-up routines want them. -/
lemma Linked.placed (himage : InFlash app m flash) : Placed app mem m flash := by
  obtain ⟨hgot, hdata, hbss⟩ := sections_le hlinked
  have hgot_data := hlinked.got
  have hdata_bss := hlinked.data
  exact ⟨himage.header, himage.gotSrc, himage.dataSrc, disjoint_flash hgranted hgot,
    disjoint_flash hgranted hdata, disjoint_flash hgranted hbss,
    disjoint_parts hgranted hgot_data hdata, disjoint_parts hgranted (by omega) hbss,
    disjoint_parts hgranted hdata_bss hbss⟩

/-- The sections lie between the stack and the break. -/
lemma section_bounds {a : U32}
    (ha : a ∈ gotBlock app mem m ∪ dataBlock app mem m ∪ bssBlock app mem m) :
    (stacktop app mem m).toNat ≤ a.toNat ∧ a.toNat < (appBrk app mem m).toNat := by
  obtain ⟨hgot, hdata, hbss⟩ := sections_le hlinked
  obtain ⟨-, hstack, -⟩ := stacktop_bounds hlinked hgranted
  have hgot_data := hlinked.got
  have hdata_bss := hlinked.data
  rw [toNat_appBrk hgranted]
  rcases ha with (ha | ha) | ha
  · rw [gotBlock, gotDst, mem_part_iff hgranted hgot] at ha
    omega
  · rw [dataBlock, dataDst, mem_part_iff hgranted hdata] at ha
    omega
  · rw [bssBlock, bssDst, mem_part_iff hgranted hbss] at ha
    omega

/-- No part of the stack belongs to a section. -/
lemma notMem_sections {a : U32} (ha : a.toNat < (stacktop app mem m).toNat) :
    a ∉ gotBlock app mem m ∧ a ∉ dataBlock app mem m ∧ a ∉ bssBlock app mem m := by
  have hnot : a ∉ gotBlock app mem m ∪ dataBlock app mem m ∪ bssBlock app mem m :=
    fun hin => absurd (section_bounds hlinked hgranted hin).1 (Nat.not_le.mpr ha)
  simpa only [Set.mem_union, not_or, and_assoc] using hnot

end Linked

/-! ### From the entry point to `main` -/

/-- What `_start` and the routine it calls with `arg0` and `arg1` have done when `main` begins:
the kernel was told the break and the stack; the stack is aligned and ends before the sections, which
end at the break; what it holds is left alone. -/
structure Ready (app mem : U32) (m : Mem) (traps : List Trap) (sp : U32) (m' : Mem) : Prop where
  calls : traps.map (fun t => (t.cls, t.op, t.arg)) =
    [(5, 0, appBrk app mem m), (5, 10, sp), (5, 11, appBrk app mem m)]
  aligned : 8 ∣ sp.toNat
  size : mem.toNat + (stackSize app m).toNat ≤ sp.toNat
  sections : ∀ a ∈ gotBlock app mem m ∪ dataBlock app mem m ∪ bssBlock app mem m,
    sp.toNat ≤ a.toNat ∧ a.toNat < (appBrk app mem m).toNat
  stack : ∀ a : U32, a.toNat < sp.toNat → m' a = m a

lemma Enters.ready {f : String} {traps : List Trap} {called : Option String} {arg0 arg1 sp' : U32}
    {m' : Mem} (h : Enters app mem heapBreak sp m f traps called arg0 arg1 sp')
    (hlinked : Linked app m) (hgranted : Granted n app mem heapBreak sp m flash)
    (hstack : ∀ a : U32, a.toNat < (stacktop app mem m).toNat → m' a = m a) :
    Ready app mem m traps sp' m' ∧
      (FramesFit n mem heapBreak (appBrk app mem m) traps ↔ ComparesWell app mem heapBreak sp m) := by
  obtain ⟨-, rfl, -, -, rfl⟩ := h
  obtain ⟨hsize, -, haligned⟩ := stacktop_bounds hlinked hgranted
  exact ⟨⟨rfl, haligned, hsize, fun a ha => section_bounds hlinked hgranted ha, hstack⟩,
    entryTraps_framesFit_iff hlinked hgranted⟩

/-- On ARM, for every image as the linker script lays it out: `_start` and `_c_start_pic` reach
`main`, and register 9 points to the global offset table that was relocated. The frames of the system
calls fit if and only if the comparison of the breaks does no harm. -/
theorem start_thumb_ready {regs : ArmReg → U32} (gt : Bool) (ans : ℕ → ArmReg → U32)
    (hlinked : Linked (regs .r0) m)
    (hgranted : Granted n (regs .r0) (regs .r1) (regs .r3) (regs .sp) m flash)
    (himage : InFlash (regs .r0) m flash) (htable : TablePlaced (regs .r0) (regs .r1) m flash) :
    let s := exec armAbi m ans startThumb none ⟨regs, gt, [], none⟩
    s.called = some "_c_start_pic" ∧ s.regs .r9 = gotDst (regs .r0) (regs .r1) m ∧
      (∃ m', (∀ fuel ≥ 2 ^ 30, cStartPic fuel (s.regs .r0) (s.regs .r1) m = some m') ∧
        Ready (regs .r0) (regs .r1) m s.traps (s.regs .sp) m') ∧
      (FramesFit n (regs .r1) (regs .r3) (appBrk (regs .r0) (regs .r1) m) s.traps ↔
        ComparesWell (regs .r0) (regs .r1) (regs .r3) (regs .sp) m) := by
  obtain ⟨henters, hr9⟩ := exec_startThumb m ans regs gt
  have hplaced := hlinked.placed hgranted himage
  have hstack : ∀ a : U32, a.toNat < (stacktop (regs .r0) (regs .r1) m).toNat →
      relocated (regs .r0) (regs .r1) m a = m a := by
    intro a ha
    obtain ⟨hgot, hdata, hbss⟩ := notMem_sections hlinked hgranted ha
    rw [relocated_of_notMem htable hdata,
      loadSections_of_notMem hplaced (fun a => gotLoaded_flash hplaced) hdata hbss]
    exact gotLoaded_of_notMem fun hin => hgot (block_mono (Nat.mul_div_le _ 4) hin)
  obtain ⟨hready, hframes⟩ := henters.ready hlinked hgranted hstack
  refine ⟨henters.called_eq, hr9, ⟨_, ?_, hready⟩, hframes⟩
  intro fuel hfuel
  rw [henters.arg0_eq, henters.arg1_eq]
  exact cStartPic_eq hplaced htable hfuel

/-- On RISC-V, likewise, with `_c_start_nopic`. The linker script wants the stack there aligned to 16
bytes, `_start` does so only for some sizes. -/
theorem start_riscv_ready {regs : RiscvReg → U32} (gt : Bool) (ans : ℕ → RiscvReg → U32)
    (hlinked : Linked (regs .a0) m)
    (hgranted : Granted n (regs .a0) (regs .a1) (regs .a3) (regs .sp) m flash)
    (himage : InFlash (regs .a0) m flash) :
    let s := exec riscvAbi m ans startRiscv none ⟨regs, gt, [], none⟩
    s.called = some "_c_start_nopic" ∧ s.regs .s0 = s.regs .sp ∧
      Ready (regs .a0) (regs .a1) m s.traps (s.regs .sp)
        (cStartNopic (s.regs .a0) (s.regs .a1) m) ∧
      (FramesFit n (regs .a1) (regs .a3) (appBrk (regs .a0) (regs .a1) m) s.traps ↔
        ComparesWell (regs .a0) (regs .a1) (regs .a3) (regs .sp) m) ∧
      (16 ∣ (s.regs .sp).toNat ↔
        ((stackSize (regs .a0) m).toNat + 7 + (regs .a1).toNat) % 16 < 8) := by
  obtain ⟨henters, hs0⟩ := exec_startRiscv m ans regs gt
  have hplaced := hlinked.placed hgranted himage
  have hstack : ∀ a : U32, a.toNat < (stacktop (regs .a0) (regs .a1) m).toNat →
      cStartNopic (regs .a0) (regs .a1) m a = m a := by
    intro a ha
    obtain ⟨hgot, hdata, hbss⟩ := notMem_sections hlinked hgranted ha
    have hflash : ∀ a ∈ flash,
        m.copy (gotDst (regs .a0) (regs .a1) m) (gotSrc (regs .a0) m) (gotSize (regs .a0) m).toNat a
          = m a := fun a ha => patch_of_notMem (Set.disjoint_right.mp hplaced.got ha)
    exact (loadSections_of_notMem hplaced hflash hdata hbss).trans (patch_of_notMem hgot)
  obtain ⟨hready, hframes⟩ := henters.ready hlinked hgranted hstack
  refine ⟨henters.called_eq, hs0.trans henters.sp_eq.symm, ?_, hframes, ?_⟩
  · rwa [henters.arg0_eq, henters.arg1_eq]
  · rw [henters.sp_eq]
    exact stacktop_aligned_iff hlinked hgranted

/-! ### A small image -/

/-- A header, with a stack of 40 bytes, one entry of the global offset table, two words of data and
an empty relocation table. -/
def stackImageWords : List U32 :=
  [40, 48, 4, 44, 52, 8, 60, 4, 52, 40, 0x80000010, 4, 0x80000020, 0]

def stackImage (app : U32) : Mem :=
  storeWords app 14 (fun i => stackImageWords.getD i 0) fun _ => 0

lemma word_stackImage {i : ℕ} (hi : i < 14) :
    word (stackImage app) (app + BitVec.ofNat 32 (4 * i)) = stackImageWords.getD i 0 :=
  load_storeWords hi (by decide)

lemma stackImage_linked : Linked app (stackImage app) := by
  have hgot : gotStart app (stackImage app) = 48 := word_stackImage (i := 1) (by decide)
  have hgotSize : gotSize app (stackImage app) = 4 := word_stackImage (i := 2) (by decide)
  have hdata : dataStart app (stackImage app) = 52 := word_stackImage (i := 4) (by decide)
  have hdataSize : dataSize app (stackImage app) = 8 := word_stackImage (i := 5) (by decide)
  have hbss : bssStart app (stackImage app) = 60 := word_stackImage (i := 6) (by decide)
  have hstack : stackSize app (stackImage app) = 40 := word_stackImage (i := 9) (by decide)
  constructor
  · rw [hstack, hgot]
    decide
  · rw [hgot, hgotSize, hdata]
    decide
  · rw [hdata, hdataSize, hbss]
    decide

lemma stackImage_inFlash : InFlash app (stackImage app) (block app 56) := by
  have hword : word (stackImage app) (app + BitVec.ofNat 32 (4 * 0)) = 40 :=
    word_stackImage (by decide)
  rw [Nat.mul_zero, BitVec.add_zero] at hword
  have hgotSym : gotSymStart app (stackImage app) = 40 := hword
  have hgotSize : gotSize app (stackImage app) = 4 := word_stackImage (i := 2) (by decide)
  have hdataSym : dataSymStart app (stackImage app) = 44 := word_stackImage (i := 3) (by decide)
  have hdataSize : dataSize app (stackImage app) = 8 := word_stackImage (i := 5) (by decide)
  constructor
  · exact block_mono (by decide)
  · rw [Crt0.gotSrc, hgotSym, hgotSize, BitVec.add_comm]
    exact block_add_subset (i := 40) (by decide)
  · rw [Crt0.dataSrc, hdataSym, hdataSize, BitVec.add_comm]
    exact block_add_subset (i := 44) (by decide)

lemma stackImage_tablePlaced : TablePlaced app mem (stackImage app) (block app 56) := by
  have hreldataStart : reldataStart app (stackImage app) = 52 :=
    word_stackImage (i := 8) (by decide)
  have hreldata : reldata app (stackImage app) = app + 52 := by
    rw [reldata, hreldataStart, BitVec.add_comm]
  have hlen : word (stackImage app) (reldata app (stackImage app)) = 0 := by
    rw [hreldata]
    exact word_stackImage (i := 13) (by decide)
  have hentries : ∀ {j}, ¬ j < entries app (stackImage app) := by
    rw [entries, hlen]
    exact Nat.not_lt_zero _
  constructor
  · rw [hlen, hreldata]
    exact block_add_subset (i := 52) (by decide)
  · rw [hlen]
    decide
  · exact fun j hj => absurd hj hentries
  · exact fun j hj => absurd hj hentries
  · exact fun j hj => absurd hj hentries

lemma appBrk_stackImage : appBrk app mem (stackImage app) = 64 + mem := by
  have hbss : bssStart app (stackImage app) = 60 := word_stackImage (i := 6) (by decide)
  have hbssSize : bssSize app (stackImage app) = 4 := word_stackImage (i := 7) (by decide)
  rw [appBrk, hbss, hbssSize]
  rfl

/-- The image at `0x10000`, in RAM behind it. -/
lemma stackImage_granted (mem heapBreak : U32) (h8 : 8 ∣ mem.toNat) (hmem : 0x10038 ≤ mem.toNat)
    (hfits : mem.toNat + 64 < 2 ^ 32) (hsp : mem.toNat + 32 ≤ heapBreak.toNat) :
    Granted 32 0x10000 mem heapBreak heapBreak (stackImage 0x10000) (block 0x10000 56) := by
  have hbss : bssStart 0x10000 (stackImage 0x10000) = 60 := word_stackImage (i := 6) (by decide)
  have hbssSize : bssSize 0x10000 (stackImage 0x10000) = 4 := word_stackImage (i := 7) (by decide)
  have hstack : stackSize 0x10000 (stackImage 0x10000) = 40 := word_stackImage (i := 9) (by decide)
  have hram : ramSize 0x10000 (stackImage 0x10000) = 64 := by
    rw [ramSize, hbss, hbssSize]
    rfl
  refine ⟨h8, by rwa [hram], ?_, ⟨hsp, le_rfl⟩, ?_⟩
  · rw [hram]
    have happ : (0x10000 : U32).toNat = 0x10000 := rfl
    have hlt := mem.isLt
    refine disjoint_block_of_le ?_ ?_
    · rw [BitVec.toNat_sub, happ]
      omega
    · rw [BitVec.toNat_sub, happ]
      omega
  · rw [hstack]
    decide

/-- The registers with which the image is started at `0x10000`. -/
def stackImageArm (mem heapBreak : U32) : ArmReg → U32
  | .r0 => 0x10000
  | .r1 => mem
  | .r3 | .sp => heapBreak
  | _ => 0

def stackImageRiscv (mem heapBreak : U32) : RiscvReg → U32
  | .a0 => 0x10000
  | .a1 => mem
  | .a3 | .sp => heapBreak
  | _ => 0

/-- In the middle of the address space the signed comparison leaves the stack pointer above the new
break. -/
theorem start_thumb_ready_image :
    (∃ s : Machine ArmReg, s.called = some "_c_start_pic" ∧
      (∃ m', (∀ fuel ≥ 2 ^ 30,
          cStartPic fuel (s.regs .r0) (s.regs .r1) (stackImage 0x10000) = some m') ∧
        Ready 0x10000 0x20000000 (stackImage 0x10000) s.traps (s.regs .sp) m') ∧
      FramesFit 32 0x20000000 0x20001000 0x20000040 s.traps) ∧
    ∃ s : Machine ArmReg, s.called = some "_c_start_pic" ∧
      ¬ FramesFit 32 0x7fffff00 0x80000100 0x7fffff40 s.traps := by
  constructor
  · have hlinked : Linked (stackImageArm 0x20000000 0x20001000 .r0) (stackImage 0x10000) :=
      stackImage_linked
    have hgranted := stackImage_granted 0x20000000 0x20001000 (by decide) (by decide) (by decide)
      (by decide)
    obtain ⟨hcalled, -, hready, hframes⟩ := start_thumb_ready false (fun _ _ => 0) hlinked
      hgranted stackImage_inFlash stackImage_tablePlaced
    refine ⟨_, hcalled, hready, ?_⟩
    have hwell : ComparesWell 0x10000 0x20000000 0x20001000 0x20001000 (stackImage 0x10000) := by
      rw [ComparesWell, appBrk_stackImage]
      exact fun hne => absurd (by decide) hne
    have hfit : FramesFit 32 0x20000000 0x20001000
        (appBrk 0x10000 0x20000000 (stackImage 0x10000)) _ := hframes.mpr hwell
    rw [appBrk_stackImage] at hfit
    exact hfit
  · have hlinked : Linked (stackImageArm 0x7fffff00 0x80000100 .r0) (stackImage 0x10000) :=
      stackImage_linked
    have hgranted := stackImage_granted 0x7fffff00 0x80000100 (by decide) (by decide) (by decide)
      (by decide)
    obtain ⟨hcalled, -, -, hframes⟩ := start_thumb_ready false (fun _ _ => 0) hlinked
      hgranted stackImage_inFlash stackImage_tablePlaced
    refine ⟨_, hcalled, fun hfit => ?_⟩
    have hbrk : appBrk 0x10000 0x7fffff00 (stackImage 0x10000) = 0x7fffff40 := appBrk_stackImage
    have hwell : ComparesWell 0x10000 0x7fffff00 0x80000100 0x80000100 (stackImage 0x10000) :=
      hframes.mp (hbrk.symm ▸ hfit)
    rw [ComparesWell, appBrk_stackImage] at hwell
    exact absurd (hwell (by decide)) (by decide)

/-- The stack of 40 bytes is not aligned as the linker script wants it. -/
theorem start_riscv_ready_image :
    ∃ s : Machine RiscvReg, s.called = some "_c_start_nopic" ∧
      Ready 0x10000 0x20000000 (stackImage 0x10000) s.traps (s.regs .sp)
        (cStartNopic (s.regs .a0) (s.regs .a1) (stackImage 0x10000)) ∧
      FramesFit 32 0x20000000 0x20001000 0x20000040 s.traps ∧ ¬ 16 ∣ (s.regs .sp).toNat := by
  have hlinked : Linked (stackImageRiscv 0x20000000 0x20001000 .a0) (stackImage 0x10000) :=
    stackImage_linked
  have hgranted := stackImage_granted 0x20000000 0x20001000 (by decide) (by decide) (by decide)
    (by decide)
  obtain ⟨hcalled, -, hready, hframes, haligned⟩ := start_riscv_ready false (fun _ _ => 0) hlinked
    hgranted stackImage_inFlash
  refine ⟨_, hcalled, hready, ?_, ?_⟩
  · have hwell : ComparesWell 0x10000 0x20000000 0x20001000 0x20001000 (stackImage 0x10000) := by
      rw [ComparesWell, appBrk_stackImage]
      exact fun hne => absurd (by decide) hne
    have hfit : FramesFit 32 0x20000000 0x20001000
        (appBrk 0x10000 0x20000000 (stackImage 0x10000)) _ := hframes.mpr hwell
    rw [appBrk_stackImage] at hfit
    exact hfit
  · have hstack : stackSize (stackImageRiscv 0x20000000 0x20001000 .a0) (stackImage 0x10000) = 40 :=
      word_stackImage (i := 9) (by decide)
    rw [haligned, hstack]
    decide

end Crt0
