import Libtock.Crt0.Start

/-!
# What start-up leaves in memory

An image lies in flash and its sections go to blocks of RAM that overlap neither each other nor
flash. So what the loops read is not changed by what they write, and each loop has a closed form:
the table of corrected entries, and one corrected word for each entry of the relocation table.
-/

namespace Crt0

open Core Memory

variable {app mem : U32} {m m' : Mem} {flash : Set U32}

/-! ### Where the sections are -/

section Places

variable (app mem : U32) (m : Mem)

/-- The global offset table in RAM and in flash. -/
def gotDst : U32 := gotStart app m + mem
def gotSrc : U32 := gotSymStart app m + app

def dataDst : U32 := dataStart app m + mem
def dataSrc : U32 := dataSymStart app m + app

def bssDst : U32 := bssStart app m + mem

/-- The relocation table: its address, how many entries it has, the offset that entry `j` lists, and
the address of the word at this offset. -/
def reldata : U32 := reldataStart app m + app
def entries : ℕ := (word m (reldata app m)).toNat / 8
def offset (j : ℕ) : U32 := word m (index (reldata app m + 4) (BitVec.ofNat 32 (2 * j)))
def target (j : ℕ) : U32 := offset app m j + mem

def gotBlock : Set U32 := block (gotDst app mem m) (gotSize app m).toNat
def dataBlock : Set U32 := block (dataDst app mem m) (dataSize app m).toNat
def bssBlock : Set U32 := block (bssDst app mem m) (bssSize app m).toNat

end Places

/-- The image is in flash; its sections in RAM are disjoint from flash and from each other. -/
structure Placed (app mem : U32) (m : Mem) (flash : Set U32) : Prop where
  header : block app 40 ⊆ flash
  gotSrc : block (gotSrc app m) (gotSize app m).toNat ⊆ flash
  dataSrc : block (dataSrc app m) (dataSize app m).toNat ⊆ flash
  got : Disjoint (gotBlock app mem m) flash
  data : Disjoint (dataBlock app mem m) flash
  bss : Disjoint (bssBlock app mem m) flash
  got_data : Disjoint (gotBlock app mem m) (dataBlock app mem m)
  got_bss : Disjoint (gotBlock app mem m) (bssBlock app mem m)
  data_bss : Disjoint (dataBlock app mem m) (bssBlock app mem m)

/-- The relocation table is in flash, and lists different aligned offsets of words of the data
section. -/
structure TablePlaced (app mem : U32) (m : Mem) (flash : Set U32) : Prop where
  table : block (reldata app m) (4 + (word m (reldata app m)).toNat) ⊆ flash
  whole : 8 ∣ (word m (reldata app m)).toNat
  aligned : ∀ j < entries app m, 4 ∣ (offset app m j).toNat
  inside : ∀ j < entries app m, block (target app mem m j) 4 ⊆ dataBlock app mem m
  distinct : ∀ j < entries app m, ∀ k < entries app m, offset app m j = offset app m k → j = k

/-- What the sections in RAM hold when `main` is called. -/
structure Relocated (app mem : U32) (m m' : Mem) : Prop where
  got : ∀ i < (gotSize app m).toNat / 4,
    word m' (gotDst app mem m + BitVec.ofNat 32 (4 * i)) =
      reloc app mem (word m (gotSrc app m + BitVec.ofNat 32 (4 * i)))
  listed : ∀ j < entries app m,
    word m' (target app mem m j) =
      reloc app mem (word m (dataSrc app m + (target app mem m j - dataDst app mem m)))
  data : ∀ a ∈ dataBlock app mem m, (∀ j < entries app m, a ∉ block (target app mem m j) 4) →
    m' a = m (dataSrc app m + (a - dataDst app mem m))
  bss : ∀ a ∈ bssBlock app mem m, m' a = 0
  others : ∀ a, a ∉ block (gotDst app mem m) (4 * ((gotSize app m).toNat / 4)) →
    a ∉ dataBlock app mem m → a ∉ bssBlock app mem m → m' a = m a

/-! ### Addresses and the correction -/

lemma index_ofNat (p : U32) (i : ℕ) :
    index p (BitVec.ofNat 32 i) = p + BitVec.ofNat 32 (4 * i) := by
  rw [index, BitVec.ofNat_mul]
  rfl

/-- To take bits away that are set and to add them again changes nothing. -/
lemma xor_add_cancel {v c : U32} (h : v &&& c = c) : (v ^^^ c) + c = v := by
  have hbits : ∀ i, (v.getLsbD i && c.getLsbD i) = c.getLsbD i := fun i => by
    rw [← BitVec.getLsbD_and, h]
  have hand : (v ^^^ c) &&& c = 0 := by
    apply BitVec.eq_of_getLsbD_eq
    intro i _
    have := hbits i
    rw [BitVec.getLsbD_and, BitVec.getLsbD_xor]
    cases hv : v.getLsbD i <;> cases hc : c.getLsbD i <;> simp_all
  rw [BitVec.add_eq_or_of_and_eq_zero _ _ hand]
  apply BitVec.eq_of_getLsbD_eq
  intro i _
  have := hbits i
  rw [BitVec.getLsbD_or, BitVec.getLsbD_xor]
  cases hv : v.getLsbD i <;> cases hc : c.getLsbD i <;> simp_all

/-- At the addresses of the linker script the correction changes nothing. -/
lemma reloc_link (v : U32) : reloc 0x80000000 0 v = v := by
  rw [reloc]
  split_ifs with h
  · exact BitVec.add_zero v
  · have hbit : (0x80000000 : U32) = BitVec.twoPow 32 31 := by decide
    apply xor_add_cancel
    rw [hbit, BitVec.and_twoPow] at h ⊢
    split_ifs at h ⊢ with hv
    · rfl
    · exact absurd rfl h

lemma word_congr {p : U32} (hp : block p 4 ⊆ flash) (h : ∀ a ∈ flash, m' a = m a) :
    word m' p = word m p := load_congr fun a ha => h a (hp ha)

/-! ### The global offset table -/

/-- The words of the table, as the loop stores them. -/
def gotWord (app mem : U32) (m : Mem) (src : U32) (i : ℕ) : U32 :=
  reloc app mem (word m (src + BitVec.ofNat 32 (4 * i)))

/-- From a memory in which the first `k` entries are stored, the loop stores the others. -/
lemma gotLoop_spec {dst src : U32} {n : ℕ} (hn : n = (gotSize app m).toNat / 4)
    (hsize : Disjoint (block (app + 8) 4) (block dst (4 * n)))
    (hsrc : Disjoint (block src (4 * n)) (block dst (4 * n))) {k fuel : ℕ} (hk : k ≤ n)
    (hfuel : n - k < fuel) :
    gotLoop app mem dst src fuel (BitVec.ofNat 32 k)
        (m.storeWords dst k (gotWord app mem m src)) =
      some (m.storeWords dst n (gotWord app mem m src)) := by
  have hlt := (gotSize app m).isLt
  have hframe : ∀ {p : U32} {k : ℕ}, k ≤ n → Disjoint (block p 4) (block dst (4 * n)) →
      word (m.storeWords dst k (gotWord app mem m src)) p = word m p := by
    intro p k hk hp
    apply load_congr
    intro a ha
    apply storeWords_of_notMem
    exact fun hin => Set.disjoint_left.mp hp ha (block_mono (by omega) hin)
  induction fuel generalizing k with
  | zero => omega
  | succ fuel ih =>
    have hbound : gotSize app (m.storeWords dst k (gotWord app mem m src)) = gotSize app m :=
      hframe hk hsize
    have hcond : BitVec.ofNat 32 k < gotSize app m / 4 ↔ k < n := by
      rw [BitVec.lt_def, BitVec.toNat_udiv, BitVec.toNat_ofNat, Nat.mod_eq_of_lt (by omega), hn]
      rfl
    rw [gotLoop, hbound]
    rcases Nat.lt_or_eq_of_le hk with hkn | rfl
    · have hentry : word (m.storeWords dst k (gotWord app mem m src))
          (src + BitVec.ofNat 32 (4 * k)) = word m (src + BitVec.ofNat 32 (4 * k)) :=
        hframe hk (hsrc.mono_left (block_add_subset (by omega)))
      have hnext : BitVec.ofNat 32 k + 1 = BitVec.ofNat 32 (k + 1) := by
        rw [BitVec.ofNat_add]
        rfl
      have hstore := storeWords_succ (m := m) (p := dst) (n := k) (g := gotWord app mem m src)
        (by omega)
      rw [if_pos (hcond.mpr hkn), index_ofNat, index_ofNat, hentry, hnext]
      rw [gotWord] at hstore
      rw [← hstore]
      exact ih (by omega) (by omega)
    · rw [if_neg (mt hcond.mp (lt_irrefl k))]

/-! ### The relocation table -/

lemma next_entry (k : ℕ) : BitVec.ofNat 32 (2 * k) + 2 = BitVec.ofNat 32 (2 * (k + 1)) := by
  rw [Nat.mul_succ, BitVec.ofNat_add]
  rfl

/-- The bound of the loop, for entry `k`. -/
lemma entry_lt_iff {len : U32} {k : ℕ} (hk : k ≤ len.toNat / 4) :
    BitVec.ofNat 32 (2 * k) < len / 4 ↔ 2 * k < len.toNat / 4 := by
  have hlt := len.isLt
  rw [BitVec.lt_def, BitVec.toNat_udiv, BitVec.toNat_ofNat, Nat.mod_eq_of_lt (by omega)]
  rfl

/-- When no listed word is in the table, the loop changes the listed words, one after the other. -/
lemma reldataLoop_spec {rd : U32} {n : ℕ} {t : ℕ → U32} (hlen : (word m rd).toNat = 8 * n)
    (ht : ∀ j < n, t j = word m (index (rd + 4) (BitVec.ofNat 32 (2 * j))) + mem)
    (hdisj : ∀ j < n, Disjoint (block rd (4 + 8 * n)) (block (t j) 4)) {k fuel : ℕ} (hk : k ≤ n)
    (hfuel : n - k < fuel) :
    reldataLoop app mem rd fuel (BitVec.ofNat 32 (2 * k)) (m.mapWords (reloc app mem) t k) =
      some (m.mapWords (reloc app mem) t n) := by
  have hframe : ∀ {p : U32} {k : ℕ}, k ≤ n → block p 4 ⊆ block rd (4 + 8 * n) →
      word (m.mapWords (reloc app mem) t k) p = word m p := by
    intro p k hk hp
    apply load_congr
    intro a ha
    apply mapWords_of_notMem
    exact fun j hj => Set.disjoint_left.mp (hdisj j (by omega)) (hp ha)
  induction fuel generalizing k with
  | zero => omega
  | succ fuel ih =>
    have hbound : word (m.mapWords (reloc app mem) t k) rd = word m rd :=
      hframe hk (block_mono (by omega))
    have hcond : BitVec.ofNat 32 (2 * k) < word m rd / 4 ↔ 2 * k < (word m rd).toNat / 4 :=
      entry_lt_iff (by omega)
    rw [reldataLoop, hbound]
    rcases Nat.lt_or_eq_of_le hk with hkn | rfl
    · have hentry : word (m.mapWords (reloc app mem) t k)
          (index (rd + 4) (BitVec.ofNat 32 (2 * k))) + mem = t k := by
        rw [ht k hkn, index_ofNat]
        refine congrArg (· + mem) (hframe hk ?_)
        rw [show rd + 4 = rd + BitVec.ofNat 32 4 from rfl, add_ofNat_add_ofNat]
        exact block_add_subset (by omega)
      rw [if_pos (hcond.mpr (by omega)), next_entry]
      simp only [hentry]
      exact ih (k := k + 1) (by omega) (by omega)
    · rw [if_neg (mt hcond.mp (by omega))]

/-- At the addresses of the linker script the loop stores what is there, whatever the table says. -/
lemma reldataLoop_link (rd : U32) (m : Mem) {k fuel : ℕ} (hk : k ≤ (word m rd).toNat / 4)
    (hfuel : (word m rd).toNat / 4 < k + fuel) :
    reldataLoop 0x80000000 0 rd fuel (BitVec.ofNat 32 (2 * k)) m = some m := by
  induction fuel generalizing k with
  | zero => omega
  | succ fuel ih =>
    have hcond := entry_lt_iff hk
    rw [reldataLoop]
    split_ifs with h
    · have hstep := hcond.mp h
      have hstore : ∀ p, m.store 4 p (reloc 0x80000000 0 (word m p)) = m := by
        intro p
        rw [reloc_link]
        exact store_load m 4 p
      simp only [hstore, next_entry]
      exact ih (by omega) (by omega)
    · rfl

lemma reldataLoop_link_zero (rd : U32) (m : Mem) {fuel : ℕ} (hfuel : 2 ^ 30 ≤ fuel) :
    reldataLoop 0x80000000 0 rd fuel 0 m = some m := by
  have hlt := (word m rd).isLt
  exact reldataLoop_link rd m (k := 0) (Nat.zero_le _) (by omega)

/-! ### The whole routine -/

section Sections

variable (hplaced : Placed app mem m flash) (hflash : ∀ a ∈ flash, m' a = m a)

include hplaced hflash

/-- The header reads the same in every memory with the same flash. -/
lemma hdr_word_congr {o : ℕ} (ho : o + 4 ≤ 40) :
    word m' (app + BitVec.ofNat 32 o) = word m (app + BitVec.ofNat 32 o) := by
  apply word_congr _ hflash
  exact (block_add_subset ho).trans hplaced.header

lemma loadSections_eq :
    loadSections app mem m' =
      (m'.copy (dataDst app mem m) (dataSrc app m) (dataSize app m).toNat).fill (bssDst app mem m) 0
        (bssSize app m).toNat := by
  have hsize : dataSize app m' = dataSize app m :=
    hdr_word_congr hplaced hflash (o := 20) (by decide)
  have hdst : dataStart app m' = dataStart app m :=
    hdr_word_congr hplaced hflash (o := 16) (by decide)
  have hsrc : dataSymStart app m' = dataSymStart app m :=
    hdr_word_congr hplaced hflash (o := 12) (by decide)
  have hcopy : ∀ a ∈ flash,
      m'.copy (dataDst app mem m) (dataSrc app m) (dataSize app m).toNat a = m a := by
    intro a ha
    rw [copy, patch_of_notMem, hflash a ha]
    exact Set.disjoint_right.mp hplaced.data ha
  have hbss : bssStart app (m'.copy (dataDst app mem m) (dataSrc app m) (dataSize app m).toNat) =
      bssStart app m := hdr_word_congr hplaced hcopy (o := 24) (by decide)
  have hbssSize : bssSize app (m'.copy (dataDst app mem m) (dataSrc app m) (dataSize app m).toNat) =
      bssSize app m := hdr_word_congr hplaced hcopy (o := 28) (by decide)
  rw [dataDst, dataSrc] at hbss hbssSize
  simp only [loadSections, hsize, hdst, hsrc, hbss, hbssSize, dataDst, dataSrc, bssDst]

/-- The data section holds its initializers. -/
lemma loadSections_data {a : U32} (ha : a ∈ dataBlock app mem m) :
    loadSections app mem m' a = m (dataSrc app m + (a - dataDst app mem m)) := by
  have hbss : a ∉ bssBlock app mem m := Set.disjoint_left.mp hplaced.data_bss ha
  have hsrc : dataSrc app m + (a - dataDst app mem m) ∈ flash := by
    apply hplaced.dataSrc
    rw [mem_block, BitVec.add_comm, BitVec.add_sub_cancel]
    exact ha
  rw [loadSections_eq hplaced hflash, fill, patch_of_notMem hbss, copy, patch_of_mem ha]
  exact hflash _ hsrc

lemma loadSections_bss {a : U32} (ha : a ∈ bssBlock app mem m) : loadSections app mem m' a = 0 := by
  rw [loadSections_eq hplaced hflash, fill, patch_of_mem ha]

lemma loadSections_of_notMem {a : U32} (hdata : a ∉ dataBlock app mem m)
    (hbss : a ∉ bssBlock app mem m) : loadSections app mem m' a = m' a := by
  rw [loadSections_eq hplaced hflash, fill, patch_of_notMem hbss, copy, patch_of_notMem hdata]

/-- A word of the data section is its initializer. -/
lemma word_loadSections {p : U32} (hp : block p 4 ⊆ dataBlock app mem m) :
    word (loadSections app mem m') p = word m (dataSrc app m + (p - dataDst app mem m)) := by
  apply eq_of_byteAt_eq (n := 4)
  intro i hi
  have hdata := loadSections_data hplaced hflash (hp (add_ofNat_mem_block hi))
  rw [word, word, byteAt_load _ _ hi, byteAt_load _ _ hi, hdata]
  congr 1
  ring

/-- Flash is as before. -/
lemma loadSections_flash {a : U32} (ha : a ∈ flash) : loadSections app mem m' a = m a := by
  have hdata := Set.disjoint_right.mp hplaced.data ha
  have hbss := Set.disjoint_right.mp hplaced.bss ha
  rw [loadSections_of_notMem hplaced hflash hdata hbss]
  exact hflash a ha

end Sections

/-- The memory behind the loop over the global offset table. -/
def gotLoaded (app mem : U32) (m : Mem) : Mem :=
  m.storeWords (gotDst app mem m) ((gotSize app m).toNat / 4) (gotWord app mem m (gotSrc app m))

lemma gotLoaded_of_notMem {a : U32}
    (ha : a ∉ block (gotDst app mem m) (4 * ((gotSize app m).toNat / 4))) :
    gotLoaded app mem m a = m a := storeWords_of_notMem ha

lemma gotLoaded_flash (hplaced : Placed app mem m flash) {a : U32} (ha : a ∈ flash) :
    gotLoaded app mem m a = m a := by
  apply gotLoaded_of_notMem
  intro hin
  exact Set.disjoint_right.mp hplaced.got ha (block_mono (Nat.mul_div_le _ 4) hin)

lemma gotLoop_eq (hplaced : Placed app mem m flash) {fuel : ℕ} (hfuel : 2 ^ 30 ≤ fuel) :
    gotLoop app mem (gotDst app mem m) (gotSrc app m) fuel 0 m = some (gotLoaded app mem m) := by
  have hlt := (gotSize app m).isLt
  have hle : 4 * ((gotSize app m).toNat / 4) ≤ (gotSize app m).toNat := Nat.mul_div_le _ 4
  have hdst : Disjoint flash (block (gotDst app mem m) (4 * ((gotSize app m).toNat / 4))) :=
    (hplaced.got.mono_left (block_mono hle)).symm
  have hsize : Disjoint (block (app + 8) 4)
      (block (gotDst app mem m) (4 * ((gotSize app m).toNat / 4))) :=
    hdst.mono_left ((block_add_subset (i := 8) (by decide)).trans hplaced.header)
  have hsrc := hdst.mono_left ((block_mono hle).trans hplaced.gotSrc)
  calc gotLoop app mem (gotDst app mem m) (gotSrc app m) fuel 0 m
    _ = gotLoop app mem (gotDst app mem m) (gotSrc app m) fuel (BitVec.ofNat 32 0)
          (m.storeWords (gotDst app mem m) 0 (gotWord app mem m (gotSrc app m))) := by
      rw [storeWords_zero]
      rfl
    _ = some (gotLoaded app mem m) := gotLoop_spec rfl hsize hsrc (Nat.zero_le _) (by omega)

lemma target_disjoint (htable : TablePlaced app mem m flash) {j k : ℕ} (hj : j < entries app m)
    (hk : k < entries app m) (hne : j ≠ k) :
    Disjoint (block (target app mem m j) 4) (block (target app mem m k) 4) := by
  have hapart : ∀ {j k : ℕ}, j < entries app m → k < entries app m → j ≠ k →
      4 ≤ (target app mem m j - target app mem m k).toNat := by
    intro j k hj hk hne
    have hoffset : offset app m j ≠ offset app m k := fun h => hne (htable.distinct j hj k hk h)
    have hnat : (offset app m j).toNat ≠ (offset app m k).toNat := fun h =>
      hoffset (BitVec.eq_of_toNat_eq h)
    have haj := htable.aligned j hj
    have hak := htable.aligned k hk
    have hsub : target app mem m j - target app mem m k = offset app m j - offset app m k := by
      rw [target, target]
      ring
    rw [hsub, BitVec.toNat_sub]
    omega
  exact disjoint_block_of_le (hapart hk hj hne.symm) (hapart hj hk hne)

/-- The memory behind the loop over the relocation table. -/
def relocated (app mem : U32) (m : Mem) : Mem :=
  (loadSections app mem (gotLoaded app mem m)).mapWords (reloc app mem) (target app mem m)
    (entries app m)

lemma cStartPic_eq (hplaced : Placed app mem m flash) (htable : TablePlaced app mem m flash)
    {fuel : ℕ} (hfuel : 2 ^ 30 ≤ fuel) :
    cStartPic fuel app mem m = some (relocated app mem m) := by
  have hgot := gotLoop_eq hplaced hfuel
  have hflash : ∀ a ∈ flash, loadSections app mem (gotLoaded app mem m) a = m a := fun a =>
    loadSections_flash hplaced fun a => gotLoaded_flash hplaced
  have hlt := (word m (reldata app m)).isLt
  have hlen : (word m (reldata app m)).toNat = 8 * entries app m :=
    (Nat.mul_div_cancel' htable.whole).symm
  have hreldata : reldataStart app (loadSections app mem (gotLoaded app mem m)) + app =
      reldata app m := by
    rw [reldata]
    exact congrArg (· + app) (hdr_word_congr hplaced hflash (o := 32) (by decide))
  have hlen' : (word (loadSections app mem (gotLoaded app mem m)) (reldata app m)).toNat =
      8 * entries app m := by
    rw [word_congr ((block_mono (by omega)).trans htable.table) hflash, hlen]
  have htarget : ∀ j < entries app m, target app mem m j =
      word (loadSections app mem (gotLoaded app mem m))
        (index (reldata app m + 4) (BitVec.ofNat 32 (2 * j))) + mem := by
    intro j hj
    rw [target, offset, word_congr _ hflash]
    rw [index_ofNat, show reldata app m + 4 = reldata app m + BitVec.ofNat 32 4 from rfl,
      add_ofNat_add_ofNat]
    exact (block_add_subset (by omega)).trans htable.table
  have hdisj : ∀ j < entries app m,
      Disjoint (block (reldata app m) (4 + 8 * entries app m)) (block (target app mem m j) 4) := by
    intro j hj
    apply Disjoint.mono _ (htable.inside j hj) hplaced.data.symm
    rw [← hlen]
    exact htable.table
  rw [gotDst, gotSrc] at hgot
  simp only [cStartPic, hgot, Option.bind_eq_bind, Option.bind_some, hreldata]
  exact reldataLoop_spec hlen' htarget hdisj (k := 0) (Nat.zero_le _) (by omega)

/-- Outside of the data section the relocation table changes nothing. -/
lemma relocated_of_notMem (htable : TablePlaced app mem m flash) {a : U32}
    (ha : a ∉ dataBlock app mem m) :
    relocated app mem m a = loadSections app mem (gotLoaded app mem m) a := by
  apply mapWords_of_notMem
  intro j hj hin
  exact ha (htable.inside j hj hin)

/-- The sections loaded behind it leave the global offset table as it is. -/
lemma word_relocated_got (hplaced : Placed app mem m flash) (htable : TablePlaced app mem m flash)
    {i : ℕ} (hi : i < (gotSize app m).toNat / 4) :
    word (relocated app mem m) (gotDst app mem m + BitVec.ofNat 32 (4 * i)) =
      reloc app mem (word m (gotSrc app m + BitVec.ofNat 32 (4 * i))) := by
  have hlt := (gotSize app m).isLt
  have hin : block (gotDst app mem m + BitVec.ofNat 32 (4 * i)) 4 ⊆ gotBlock app mem m :=
    block_add_subset (by omega)
  have hword : word (relocated app mem m) (gotDst app mem m + BitVec.ofNat 32 (4 * i)) =
      word (gotLoaded app mem m) (gotDst app mem m + BitVec.ofNat 32 (4 * i)) := by
    apply load_congr
    intro a ha
    have hdata := Set.disjoint_left.mp hplaced.got_data (hin ha)
    have hbss := Set.disjoint_left.mp hplaced.got_bss (hin ha)
    rw [relocated_of_notMem htable hdata]
    exact loadSections_of_notMem hplaced (fun a => gotLoaded_flash hplaced) hdata hbss
  rw [hword]
  exact load_storeWords hi (by omega)

/-- Start-up of a position-independent image reaches `main`, and has corrected each entry of the
global offset table and each word that the relocation table lists, once. -/
theorem pic_relocates (hplaced : Placed app mem m flash) (htable : TablePlaced app mem m flash) :
    ∃ m', (∀ fuel ≥ 2 ^ 30, cStartPic fuel app mem m = some m') ∧ Relocated app mem m m' := by
  have hflash : ∀ a ∈ flash, gotLoaded app mem m a = m a := fun a => gotLoaded_flash hplaced
  refine ⟨relocated app mem m, fun fuel hfuel => cStartPic_eq hplaced htable hfuel, ?_⟩
  constructor
  · intro i hi
    exact word_relocated_got hplaced htable hi
  · intro j hj
    rw [← word_loadSections hplaced hflash (htable.inside j hj)]
    apply load_mapWords (by decide) hj
    intro i hi k hk hne
    exact target_disjoint htable hi hk hne
  · intro a ha hunlisted
    rw [relocated, mapWords_of_notMem hunlisted]
    exact loadSections_data hplaced hflash ha
  · intro a ha
    rw [relocated_of_notMem htable (Set.disjoint_right.mp hplaced.data_bss ha)]
    exact loadSections_bss hplaced hflash ha
  · intro a hgot hdata hbss
    rw [relocated_of_notMem htable hdata, loadSections_of_notMem hplaced hflash hdata hbss]
    exact gotLoaded_of_notMem hgot

/-- At the addresses of the linker script the entries of the global offset table are copied. -/
lemma gotLoaded_link (hgot : 4 ∣ (gotSize 0x80000000 m).toNat) :
    gotLoaded 0x80000000 0 m =
      m.copy (gotDst 0x80000000 0 m) (gotSrc 0x80000000 m) (gotSize 0x80000000 m).toNat := by
  have hcopy := copy_eq_storeWords (gotDst 0x80000000 0 m) (gotSrc 0x80000000 m)
    ((gotSize 0x80000000 m).toNat / 4) m
  rw [Nat.mul_div_cancel' hgot] at hcopy
  rw [hcopy, gotLoaded]
  congr 1
  funext i
  exact reloc_link _

/-- At the addresses of the linker script start-up with and without relocation is the same. -/
theorem start_paths_agree (hplaced : Placed 0x80000000 0 m flash)
    (hgot : 4 ∣ (gotSize 0x80000000 m).toNat) {fuel : ℕ} (hfuel : 2 ^ 30 ≤ fuel) :
    cStartPic fuel 0x80000000 0 m = some (cStartNopic 0x80000000 0 m) := by
  have hloop := gotLoop_eq hplaced hfuel
  rw [gotLoaded_link hgot, gotDst, gotSrc] at hloop
  simp only [cStartPic, hloop, Option.bind_eq_bind, Option.bind_some]
  exact reldataLoop_link_zero _ _ hfuel

/-! ### A small image -/

/-- A header, one entry of the global offset table, two words of data, and a relocation table that
lists the second of them. -/
def imageWords : List U32 :=
  [40, 0, 4, 44, 4, 8, 12, 4, 52, 0, 0x80000010, 4, 0x80000020, 8, 8, 0]

def image (app : U32) : Mem := storeWords app 16 (fun i => imageWords.getD i 0) fun _ => 0

lemma word_image {i : ℕ} (hi : i < 16) :
    word (image app) (app + BitVec.ofNat 32 (4 * i)) = imageWords.getD i 0 :=
  load_storeWords hi (by decide)

lemma gotSize_image (app : U32) : gotSize app (image app) = 4 := word_image (i := 2) (by decide)

lemma dataStart_image (app : U32) : dataStart app (image app) = 4 :=
  word_image (i := 4) (by decide)

lemma dataSize_image (app : U32) : dataSize app (image app) = 8 := word_image (i := 5) (by decide)

lemma image_placed (h : 64 ≤ (app - mem).toNat) (h' : 64 ≤ (mem - app).toNat) :
    Placed app mem (image app) (block app 64) := by
  have hflash : ∀ {o n : ℕ}, o + n ≤ 64 → block (BitVec.ofNat 32 o + app) n ⊆ block app 64 := by
    intro o n hon
    rw [BitVec.add_comm]
    exact block_add_subset hon
  have hram : ∀ {o n : ℕ}, o + n ≤ 64 →
      Disjoint (block (BitVec.ofNat 32 o + mem) n) (block app 64) := by
    intro o n hon
    rw [BitVec.add_comm]
    exact (disjoint_block_of_le h h').mono_left (block_add_subset hon)
  have hapart : ∀ {x y : U32} {n k : ℕ}, n ≤ (y - x).toNat → k ≤ (x - y).toNat →
      Disjoint (block (x + mem) n) (block (y + mem) k) := by
    intro x y n k hn hk
    apply disjoint_block_of_le
    · rwa [add_sub_add_right_eq_sub]
    · rwa [add_sub_add_right_eq_sub]
  have hgotSym : gotSymStart app (image app) = 40 := by
    have hword : word (image app) (app + BitVec.ofNat 32 (4 * 0)) = 40 := word_image (by decide)
    rwa [Nat.mul_zero, BitVec.add_zero] at hword
  have hgot : gotStart app (image app) = 0 := word_image (i := 1) (by decide)
  have hdataSym : dataSymStart app (image app) = 44 := word_image (i := 3) (by decide)
  have hbss : bssStart app (image app) = 12 := word_image (i := 6) (by decide)
  have hbssSize : bssSize app (image app) = 4 := word_image (i := 7) (by decide)
  constructor
  · exact block_mono (by decide)
  · rw [Crt0.gotSrc, hgotSym, gotSize_image]
    exact hflash (o := 40) (n := 4) (by decide)
  · rw [Crt0.dataSrc, hdataSym, dataSize_image]
    exact hflash (o := 44) (n := 8) (by decide)
  · rw [gotBlock, gotDst, hgot, gotSize_image]
    exact hram (o := 0) (n := 4) (by decide)
  · rw [dataBlock, dataDst, dataStart_image, dataSize_image]
    exact hram (o := 4) (n := 8) (by decide)
  · rw [bssBlock, bssDst, hbss, hbssSize]
    exact hram (o := 12) (n := 4) (by decide)
  · rw [gotBlock, dataBlock, gotDst, dataDst, hgot, dataStart_image, gotSize_image, dataSize_image]
    exact hapart (by decide) (by decide)
  · rw [gotBlock, bssBlock, gotDst, bssDst, hgot, hbss, gotSize_image, hbssSize]
    exact hapart (by decide) (by decide)
  · rw [dataBlock, bssBlock, dataDst, bssDst, dataStart_image, hbss, dataSize_image, hbssSize]
    exact hapart (by decide) (by decide)

lemma image_tablePlaced : TablePlaced app mem (image app) (block app 64) := by
  have hreldataStart : reldataStart app (image app) = 52 := word_image (i := 8) (by decide)
  have hreldata : reldata app (image app) = app + 52 := by
    rw [reldata, hreldataStart, BitVec.add_comm]
  have hlen : word (image app) (reldata app (image app)) = 8 := by
    rw [hreldata]
    exact word_image (i := 13) (by decide)
  have hentries : entries app (image app) = 1 := by
    rw [entries, hlen]
    rfl
  have hoffset : offset app (image app) 0 = 8 := by
    have haddr : app + 52 + 4 + BitVec.ofNat 32 (4 * (2 * 0)) = app + BitVec.ofNat 32 (4 * 14) := by
      rw [BitVec.add_assoc, BitVec.add_assoc]
      rfl
    rw [offset, index_ofNat, hreldata, haddr]
    exact word_image (by decide)
  constructor
  · rw [hlen, hreldata]
    exact block_add_subset (i := 52) (by decide)
  · rw [hlen]
    decide
  · intro j hj
    rw [hentries, Nat.lt_one_iff] at hj
    rw [hj, hoffset]
    decide
  · intro j hj
    rw [hentries, Nat.lt_one_iff] at hj
    have hstart : 8 + mem = 4 + mem + BitVec.ofNat 32 4 := by
      rw [add_right_comm]
      rfl
    rw [hj, target, hoffset, dataBlock, dataDst, dataStart_image, dataSize_image, hstart]
    exact block_add_subset (by decide)
  · intro j hj k hk _
    omega

/-- The image, loaded at `0x10000` and `0x20000000`. -/
theorem pic_relocates_image :
    ∃ m', (∀ fuel ≥ 2 ^ 30, cStartPic fuel 0x10000 0x20000000 (image 0x10000) = some m') ∧
      Relocated 0x10000 0x20000000 (image 0x10000) m' :=
  pic_relocates (image_placed (by decide) (by decide)) image_tablePlaced

theorem start_paths_agree_image :
    cStartPic (2 ^ 30) 0x80000000 0 (image 0x80000000) =
      some (cStartNopic 0x80000000 0 (image 0x80000000)) := by
  apply start_paths_agree (image_placed (by decide) (by decide)) _ le_rfl
  rw [gotSize_image]
  decide

end Crt0
