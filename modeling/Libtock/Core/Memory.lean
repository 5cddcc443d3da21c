import Mathlib.Data.BitVec
import Mathlib.Data.Set.BooleanAlgebra
import Mathlib.Order.CompletePartialOrder
import Mathlib.Tactic.Ring

/-!
# Byte-addressed memory

A memory maps every address of `w` bits to a byte; addresses wrap around. Words lie in memory low
byte first, and `byteAt v i` is the `i`-th byte of the word `v`.

Everything that writes is a `patch`: it gives the bytes of one block new values and leaves the other
addresses alone. Storing a word, `memcpy` and `memset` are the patches `store`, `copy` and `fill`.
-/

namespace Core

/-- The `i`-th byte of a word, counted from the low end. -/
def byteAt {k : ℕ} (v : BitVec k) (i : ℕ) : BitVec 8 := (v >>> (8 * i)).setWidth 8

section Words

variable {k n : ℕ}

lemma getLsbD_byteAt (v : BitVec k) (i j : ℕ) :
    (byteAt v i).getLsbD j = (decide (j < 8) && v.getLsbD (8 * i + j)) := by
  simp [byteAt]

@[simp] lemma byteAt_append_zero (hi : BitVec k) (lo : BitVec 8) : byteAt (hi ++ lo) 0 = lo := by
  apply BitVec.eq_of_getLsbD_eq
  intro j hj
  rw [getLsbD_byteAt, BitVec.getLsbD_append]
  simp [hj]

@[simp] lemma byteAt_append_succ (hi : BitVec k) (lo : BitVec 8) (i : ℕ) :
    byteAt (hi ++ lo) (i + 1) = byteAt hi i := by
  apply BitVec.eq_of_getLsbD_eq
  intro j hj
  have hge : ¬ 8 * (i + 1) + j < 8 := by omega
  have hsub : 8 * (i + 1) + j - 8 = 8 * i + j := by omega
  rw [getLsbD_byteAt, getLsbD_byteAt, BitVec.getLsbD_append, if_neg hge, hsub]

/-- The low bytes of a word are those of its truncation. -/
lemma byteAt_setWidth (v : BitVec k) {i : ℕ} (hi : i < n) :
    byteAt (v.setWidth (8 * n)) i = byteAt v i := by
  apply BitVec.eq_of_getLsbD_eq
  intro j hj
  have hlt : 8 * i + j < 8 * n := by omega
  rw [getLsbD_byteAt, getLsbD_byteAt, BitVec.getLsbD_setWidth]
  simp [hlt]

/-- A word of `n` bytes is determined by its bytes. -/
lemma eq_of_byteAt_eq {v v' : BitVec (8 * n)} (h : ∀ i < n, byteAt v i = byteAt v' i) : v = v' := by
  apply BitVec.eq_of_getLsbD_eq
  intro j hj
  have hbyte := congrArg (fun b => b.getLsbD (j % 8)) (h (j / 8) (by omega))
  have hjoin : 8 * (j / 8) + j % 8 = j := by omega
  have hlt : j % 8 < 8 := Nat.mod_lt _ (by decide)
  simpa only [getLsbD_byteAt, hlt, hjoin, decide_true, Bool.true_and] using hbyte

end Words

abbrev Memory (w : ℕ) := BitVec w → BitVec 8

variable {w : ℕ}

/-- The addresses of the `n` bytes from `p` on. -/
def block (p : BitVec w) (n : ℕ) : Set (BitVec w) := {a | (a - p).toNat < n}

section Blocks

variable {p q a : BitVec w} {n k i : ℕ}

lemma mem_block : a ∈ block p n ↔ (a - p).toNat < n := Iff.rfl

instance (p : BitVec w) (n : ℕ) : DecidablePred (· ∈ block p n) := fun a =>
  inferInstanceAs (Decidable ((a - p).toNat < n))

lemma add_ofNat_sub_self (p : BitVec w) (i : ℕ) : p + BitVec.ofNat w i - p = BitVec.ofNat w i := by
  rw [BitVec.add_comm, BitVec.add_sub_cancel]

lemma add_ofNat_mem_block (hi : i < n) : p + BitVec.ofNat w i ∈ block p n := by
  rw [mem_block, add_ofNat_sub_self, BitVec.toNat_ofNat]
  exact (Nat.mod_le _ _).trans_lt hi

/-- Each address of a block is the start of the block and a distance. -/
lemma add_distance (p a : BitVec w) : p + BitVec.ofNat w (a - p).toNat = a := by
  have hdist : BitVec.ofNat w (a - p).toNat = a - p := by
    rw [BitVec.ofNat_toNat, BitVec.setWidth_eq]
  rw [hdist, BitVec.add_comm, BitVec.sub_add_cancel]

lemma block_mono (h : k ≤ n) : block p k ⊆ block p n := fun _ ha => Nat.lt_of_lt_of_le ha h

/-- A part of a block. -/
lemma block_add_subset (h : i + k ≤ n) : block (p + BitVec.ofNat w i) k ⊆ block p n := by
  intro a ha
  have hsum : a - p = a - (p + BitVec.ofNat w i) + BitVec.ofNat w i := by ring
  rw [mem_block, hsum, BitVec.toNat_add, BitVec.toNat_ofNat]
  have hi : i % 2 ^ w ≤ i := Nat.mod_le _ _
  have hlt : (a - (p + BitVec.ofNat w i)).toNat < k := ha
  exact (Nat.mod_le _ _).trans_lt (by omega)

/-- Blocks are disjoint when each one ends before the other starts. -/
lemma disjoint_block_of_le (h : n ≤ (q - p).toNat) (h' : k ≤ (p - q).toNat) :
    Disjoint (block p n) (block q k) := by
  rw [Set.disjoint_left]
  intro a hp hq
  rw [mem_block] at hp hq
  rcases Nat.le_total (a - q).toNat (a - p).toNat with hle | hle
  · have hdist : q - p = (a - p) - (a - q) := by ring
    rw [hdist, BitVec.toNat_sub_of_le hle] at h
    omega
  · have hdist : p - q = (a - q) - (a - p) := by ring
    rw [hdist, BitVec.toNat_sub_of_le hle] at h'
    omega

/-- The distance from a later start. -/
lemma toNat_sub_add (h : i ≤ (a - p).toNat) :
    (a - (p + BitVec.ofNat w i)).toNat = (a - p).toNat - i := by
  have hlt : i < 2 ^ w := h.trans_lt (a - p).isLt
  have hi : (BitVec.ofNat w i).toNat = i := by
    rw [BitVec.toNat_ofNat, Nat.mod_eq_of_lt hlt]
  have hsub : a - (p + BitVec.ofNat w i) = (a - p) - BitVec.ofNat w i := by ring
  rw [hsub, BitVec.toNat_sub_of_le, hi]
  rw [BitVec.le_def, hi]
  exact h

end Blocks

namespace Memory

/-! ### Reading words -/

/-- The word of `n` bytes at `p`. -/
def load : (n : ℕ) → BitVec w → Memory w → BitVec (8 * n)
  | 0, _, _ => 0#0
  | n + 1, p, m => load n (p + 1) m ++ m p

variable {m m' : Memory w} {p q a : BitVec w} {n k i : ℕ}

lemma byteAt_load (m : Memory w) (p : BitVec w) (hi : i < n) :
    byteAt (m.load n p) i = m (p + BitVec.ofNat w i) := by
  induction n generalizing p i with
  | zero => omega
  | succ n ih =>
    rw [load]
    cases i with
    | zero => simp
    | succ i =>
      rw [byteAt_append_succ, ih (p + 1) (by omega), BitVec.add_assoc]
      congr 2
      rw [Nat.add_comm i 1, BitVec.ofNat_add]
      rfl

lemma load_congr (h : ∀ a ∈ block p n, m a = m' a) : m.load n p = m'.load n p := by
  apply eq_of_byteAt_eq
  intro i hi
  rw [byteAt_load m p hi, byteAt_load m' p hi, h _ (add_ofNat_mem_block hi)]

/-! ### Writing -/

/-- Gives the `n` bytes from `p` on new values: `f k` to the byte at distance `k`. -/
def patch (p : BitVec w) (n : ℕ) (f : BitVec w → BitVec 8) (m : Memory w) : Memory w := fun a =>
  if (a - p).toNat < n then f (a - p) else m a

/-- Stores a word of `n` bytes. -/
def store (n : ℕ) (p : BitVec w) (v : BitVec (8 * n)) : Memory w → Memory w :=
  patch p n fun k => byteAt v k.toNat

/-- `memcpy` -/
def copy (dst src : BitVec w) (n : ℕ) (m : Memory w) : Memory w :=
  m.patch dst n fun k => m (src + k)

/-- `memset` -/
def fill (p : BitVec w) (x : BitVec 8) (n : ℕ) : Memory w → Memory w := patch p n fun _ => x

variable {f f' : BitVec w → BitVec 8} {v : BitVec (8 * n)}

lemma patch_of_mem (h : a ∈ block p n) : m.patch p n f a = f (a - p) := if_pos h

lemma patch_of_notMem (h : a ∉ block p n) : m.patch p n f a = m a := if_neg h

lemma patch_add_ofNat (hi : i < n) :
    m.patch p n f (p + BitVec.ofNat w i) = f (BitVec.ofNat w i) := by
  rw [patch_of_mem (add_ofNat_mem_block hi), add_ofNat_sub_self]

lemma store_of_notMem (h : a ∉ block p n) : m.store n p v a = m a := patch_of_notMem h

lemma store_add_ofNat (hi : i < n) (hn : n ≤ 2 ^ w) :
    m.store n p v (p + BitVec.ofNat w i) = byteAt v i := by
  rw [store, patch_add_ofNat hi, BitVec.toNat_ofNat, Nat.mod_eq_of_lt (by omega)]

lemma load_store (hn : n ≤ 2 ^ w) : (m.store n p v).load n p = v := by
  apply eq_of_byteAt_eq
  intro i hi
  rw [byteAt_load _ p hi, store_add_ofNat hi hn]

lemma load_store_of_disjoint (h : Disjoint (block q k) (block p n)) :
    (m.store n p v).load k q = m.load k q := by
  apply load_congr
  intro a ha
  exact store_of_notMem (Set.disjoint_left.mp h ha)

/-- The low bytes of a stored word. -/
lemma load_store_of_le {x : BitVec (8 * k)} (hnk : n ≤ k) (hk : k ≤ 2 ^ w) :
    (m.store k p x).load n p = x.setWidth (8 * n) := by
  apply eq_of_byteAt_eq
  intro i hi
  rw [byteAt_load _ p hi, store_add_ofNat (by omega) hk, byteAt_setWidth x hi]

/-- Storing what is there changes nothing. -/
lemma store_load (m : Memory w) (n : ℕ) (p : BitVec w) : m.store n p (m.load n p) = m := by
  funext a
  by_cases ha : a ∈ block p n
  · rw [store, patch_of_mem ha, byteAt_load m p ha, add_distance]
  · exact store_of_notMem ha

/-- A longer word stored first is seen in the bytes behind the shorter one, and only there. -/
lemma store_store_eq_iff {x : BitVec (8 * k)} (hk : k ≤ 2 ^ w) :
    (m.store k p x).store n p v = m.store n p v ↔
      ∀ i, n ≤ i → i < k → m (p + BitVec.ofNat w i) = byteAt x i := by
  constructor
  · intro h i hni hik
    have hout : p + BitVec.ofNat w i ∉ block p n := by
      rw [mem_block, add_ofNat_sub_self, BitVec.toNat_ofNat, Nat.mod_eq_of_lt (by omega)]
      omega
    have ha := congrFun h (p + BitVec.ofNat w i)
    rw [store_of_notMem hout, store_of_notMem hout, store_add_ofNat hik hk] at ha
    exact ha.symm
  · intro h
    funext a
    by_cases hn : a ∈ block p n
    · rw [store, store, patch_of_mem hn, patch_of_mem hn]
    · rw [store_of_notMem hn, store_of_notMem hn]
      by_cases hk' : a ∈ block p k
      · rw [store, patch_of_mem hk', ← h _ (not_lt.mp hn) hk', add_distance]
      · exact store_of_notMem hk'

/-! ### Tables of words -/

/-- Stores the words `g 0`, …, `g (n - 1)` one behind the other. -/
def storeWords (p : BitVec w) (n : ℕ) (g : ℕ → BitVec 32) : Memory w → Memory w :=
  patch p (4 * n) fun k => byteAt (g (k.toNat / 4)) (k.toNat % 4)

variable {g : ℕ → BitVec 32}

@[simp] lemma storeWords_zero : m.storeWords p 0 g = m := by
  funext a
  exact patch_of_notMem (by simp [mem_block])

lemma storeWords_of_notMem (h : a ∉ block p (4 * n)) : m.storeWords p n g a = m a :=
  patch_of_notMem h

lemma add_ofNat_add_ofNat (p : BitVec w) (i j : ℕ) :
    p + BitVec.ofNat w i + BitVec.ofNat w j = p + BitVec.ofNat w (i + j) := by
  rw [BitVec.ofNat_add, BitVec.add_assoc]

lemma load_storeWords (hi : i < n) (hn : 4 * n ≤ 2 ^ w) :
    (m.storeWords p n g).load 4 (p + BitVec.ofNat w (4 * i)) = g i := by
  apply eq_of_byteAt_eq
  intro j hj
  rw [byteAt_load _ _ hj, add_ofNat_add_ofNat, storeWords, patch_add_ofNat (by omega),
    BitVec.toNat_ofNat, Nat.mod_eq_of_lt (by omega), show (4 * i + j) / 4 = i by omega,
    show (4 * i + j) % 4 = j by omega]

/-- The loop that stores a table stores its last word last. -/
lemma storeWords_succ (hn : 4 * (n + 1) ≤ 2 ^ w) :
    m.storeWords p (n + 1) g = (m.storeWords p n g).store 4 (p + BitVec.ofNat w (4 * n)) (g n) := by
  funext a
  by_cases hlast : a ∈ block (p + BitVec.ofNat w (4 * n)) 4
  · have hin : a ∈ block p (4 * (n + 1)) := block_add_subset (by omega) hlast
    have hge : 4 * n ≤ (a - p).toNat := by
      have hsum : a - p = a - (p + BitVec.ofNat w (4 * n)) + BitVec.ofNat w (4 * n) := by ring
      have hn' : (BitVec.ofNat w (4 * n)).toNat = 4 * n := by
        rw [BitVec.toNat_ofNat, Nat.mod_eq_of_lt (by omega)]
      rw [mem_block] at hlast
      rw [hsum, BitVec.toNat_add_of_lt (by omega), hn']
      omega
    have hdist := toNat_sub_add hge
    rw [mem_block, hdist] at hlast
    rw [storeWords, store, patch_of_mem hin, patch_of_mem (mem_block.mpr (hdist ▸ hlast)), hdist,
      show (a - p).toNat / 4 = n by omega, show (a - p).toNat % 4 = (a - p).toNat - 4 * n by omega]
  · rw [store_of_notMem hlast]
    by_cases ha : a ∈ block p (4 * n)
    · rw [storeWords, storeWords, patch_of_mem ha, patch_of_mem (block_mono (by omega) ha)]
    · rw [storeWords_of_notMem ha]
      apply storeWords_of_notMem
      intro hin
      rw [mem_block] at ha hin hlast
      rw [toNat_sub_add (not_lt.mp ha)] at hlast
      omega

/-- Copying whole words is copying a table. -/
lemma copy_eq_storeWords (p q : BitVec w) (n : ℕ) (m : Memory w) :
    m.copy p q (4 * n) = m.storeWords p n fun i => m.load 4 (q + BitVec.ofNat w (4 * i)) := by
  funext a
  by_cases ha : a ∈ block p (4 * n)
  · have hlt : (a - p).toNat % 4 < 4 := Nat.mod_lt _ (by decide)
    have hsum : 4 * ((a - p).toNat / 4) + (a - p).toNat % 4 = (a - p).toNat := by omega
    rw [copy, storeWords, patch_of_mem ha, patch_of_mem ha, byteAt_load _ _ hlt,
      add_ofNat_add_ofNat, hsum, BitVec.ofNat_toNat, BitVec.setWidth_eq]
  · rw [copy, storeWords, patch_of_notMem ha, patch_of_notMem ha]

/-! ### Strings of bytes -/

/-- The `n` bytes from `p` on. -/
def bytes (p : BitVec w) (n : ℕ) (m : Memory w) : List (BitVec 8) :=
  (List.range n).map fun i => m (p + BitVec.ofNat w i)

/-- Stores a string of bytes. -/
def put (p : BitVec w) (l : List (BitVec 8)) : Memory w → Memory w :=
  patch p l.length fun k => l.getD k.toNat 0

variable {l : List (BitVec 8)}

@[simp] lemma length_bytes (m : Memory w) : (m.bytes p n).length = n := by simp [bytes]

lemma getElem_bytes (hi : i < (m.bytes p n).length) :
    (m.bytes p n)[i] = m (p + BitVec.ofNat w i) := by
  simp only [bytes, List.getElem_map, List.getElem_range]

lemma bytes_congr (h : ∀ a ∈ block p n, m a = m' a) : m.bytes p n = m'.bytes p n := by
  apply List.map_congr_left
  intro i hi
  exact h _ (add_ofNat_mem_block (List.mem_range.mp hi))

lemma bytes_put (hl : l.length ≤ 2 ^ w) : (m.put p l).bytes p l.length = l := by
  apply List.ext_getElem (length_bytes _)
  intro i hi hi'
  rw [getElem_bytes, put, patch_add_ofNat hi', BitVec.toNat_ofNat,
    Nat.mod_eq_of_lt (hi'.trans_le hl), List.getD_eq_getElem?_getD, List.getElem?_eq_getElem hi',
    Option.getD_some]

lemma bytes_copy (m : Memory w) (p q : BitVec w) (n : ℕ) :
    (m.copy p q n).bytes p n = m.bytes q n := by
  apply List.map_congr_left
  intro i hi
  exact patch_add_ofNat (List.mem_range.mp hi)

/-- Equal bytes are equal words. -/
lemma load_of_bytes_eq (h : m.bytes p n = m'.bytes q n) (hi : i + k ≤ n) :
    m.load k (p + BitVec.ofNat w i) = m'.load k (q + BitVec.ofNat w i) := by
  apply eq_of_byteAt_eq
  intro j hj
  have hij : i + j < (m.bytes p n).length := by rw [length_bytes]; omega
  have hij' : i + j < (m'.bytes q n).length := by rw [length_bytes]; omega
  rw [byteAt_load _ _ hj, byteAt_load _ _ hj, add_ofNat_add_ofNat, add_ofNat_add_ofNat,
    ← getElem_bytes hij, ← getElem_bytes hij']
  simp only [h]

/-! ### Words changed in place -/

/-- Replaces the words at `t 0`, …, `t (n - 1)`, one after the other, by their image under `φ`. -/
def mapWords (φ : BitVec 32 → BitVec 32) (t : ℕ → BitVec w) : ℕ → Memory w → Memory w
  | 0, m => m
  | n + 1, m =>
    let m := mapWords φ t n m
    m.store 4 (t n) (φ (m.load 4 (t n)))

variable {φ : BitVec 32 → BitVec 32} {t : ℕ → BitVec w}

lemma mapWords_of_notMem (h : ∀ j < n, a ∉ block (t j) 4) : mapWords φ t n m a = m a := by
  induction n with
  | zero => rfl
  | succ n ih =>
    rw [mapWords, store_of_notMem (h n (Nat.lt_succ_self n))]
    exact ih fun j hj => h j (hj.trans (Nat.lt_succ_self n))

/-- Words apart from each other are changed once each. -/
lemma load_mapWords {j : ℕ} (hw : 4 ≤ 2 ^ w) (hj : j < n)
    (hdisj : ∀ i < n, ∀ k < n, i ≠ k → Disjoint (block (t i) 4) (block (t k) 4)) :
    (mapWords φ t n m).load 4 (t j) = φ (m.load 4 (t j)) := by
  induction n with
  | zero => omega
  | succ n ih =>
    have hlt := Nat.lt_succ_self n
    rw [mapWords]
    rcases Nat.lt_or_eq_of_le (Nat.le_of_lt_succ hj) with hjn | rfl
    · have hothers := hdisj j hj n hlt hjn.ne
      rw [load_store_of_disjoint hothers]
      exact ih hjn fun i hi k hk => hdisj i (hi.trans hlt) k (hk.trans hlt)
    · rw [load_store hw]
      congr 1
      apply load_congr
      intro a ha
      apply mapWords_of_notMem
      intro i hi hin
      exact Set.disjoint_left.mp (hdisj i (hi.trans hlt) j hlt hi.ne) hin ha

end Memory

end Core
