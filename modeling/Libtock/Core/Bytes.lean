import Mathlib.Data.BitVec

/-!
# Bytes in memory

`Holds mem i l`: the list `l` lies in memory from address `i` on. A 16-bit word is written low byte
first; `join` puts it together again, and a field of a word is not changed by the bits outside it.
Two fields packed into one word can be read back.
-/

namespace Core.Bytes

variable {α : Type*} {mem : ℕ → α} {i : ℕ} {l l' : List α} {x : α}

def Holds (mem : ℕ → α) : ℕ → List α → Prop
  | _, [] => True
  | i, x :: l => mem i = x ∧ Holds mem (i + 1) l

instance [DecidableEq α] (mem : ℕ → α) (i : ℕ) (l : List α) : Decidable (Holds mem i l) := by
  induction l generalizing i with
  | nil => exact inferInstanceAs (Decidable True)
  | cons x l ih => exact @instDecidableAnd _ _ _ (ih (i + 1))

@[simp] lemma holds_nil : Holds mem i [] := trivial

@[simp] lemma holds_cons : Holds mem i (x :: l) ↔ mem i = x ∧ Holds mem (i + 1) l := Iff.rfl

lemma holds_append : Holds mem i (l ++ l') ↔ Holds mem i l ∧ Holds mem (i + l.length) l' := by
  induction l generalizing i with
  | nil => simp
  | cons x l ih =>
    simp only [List.cons_append, holds_cons, ih, and_assoc, List.length_cons]
    rw [Nat.add_right_comm, Nat.add_assoc]

/-! ### Words -/

/-- The bytes of a word, low byte first. -/
def le16 (x : BitVec 16) : List (BitVec 8) := [x.setWidth 8, (x >>> 8).setWidth 8]

/-- The word with the given bytes. -/
def join (lo hi : BitVec 8) : BitVec 16 := lo.setWidth 16 ||| hi.setWidth 16 <<< 8

lemma join_split (x : BitVec 16) : join (x.setWidth 8) ((x >>> 8).setWidth 8) = x := by
  rw [join]
  ext i hi
  by_cases h : i < 8
  · simp [h, BitVec.getLsbD_eq_getElem hi]
  · have hi' : 8 + (i - 8) = i := by omega
    simp [h, hi', BitVec.getLsbD_eq_getElem hi]
    intro _
    omega

lemma Holds.join_le16 {mem : ℕ → BitVec 8} {i : ℕ} {x : BitVec 16} (h : Holds mem i (le16 x)) :
    join (mem i) (mem (i + 1)) = x := by
  rw [h.1, h.2.1, join_split]

/-- A field of a word is not changed by bits masked with an `m` that leaves the field out. -/
lemma field_or {w : ℕ} (a m b k : BitVec w) (n : ℕ) (h : m >>> n &&& k = 0) :
    ((a &&& m) ||| b) >>> n &&& k = b >>> n &&& k := by
  have h' : (a &&& m) >>> n &&& k = 0 := by
    rw [BitVec.ushiftRight_and_distrib, BitVec.and_assoc, h]
    simp
  rw [BitVec.ushiftRight_or_distrib, BitVec.and_or_distrib_right, h']
  simp

/-! ### Packed fields -/

section Packed

variable {w n : ℕ} {hi lo : BitVec w}

/-- A word that is shifted without loss, with another one in the bits that became free. -/
lemma toNat_shiftLeft_or (hlo : lo.toNat < 2 ^ n) (hhi : hi.toNat * 2 ^ n < 2 ^ w) :
    (hi <<< n ||| lo).toNat = hi.toNat * 2 ^ n + lo.toNat := by
  rw [BitVec.toNat_or, BitVec.toNat_shiftLeft, Nat.shiftLeft_eq, Nat.mod_eq_of_lt hhi,
    ← Nat.shiftLeft_eq, Nat.shiftLeft_add_eq_or_of_lt hlo]

lemma shiftLeft_or_and (hn : n ≤ w) (hlo : lo.toNat < 2 ^ n) (hhi : hi.toNat * 2 ^ n < 2 ^ w) :
    (hi <<< n ||| lo) &&& BitVec.ofNat w (2 ^ n - 1) = lo := by
  have hmask : 2 ^ n - 1 < 2 ^ w :=
    (Nat.sub_lt (Nat.two_pow_pos n) Nat.one_pos).trans_le (Nat.pow_le_pow_right Nat.two_pos hn)
  apply BitVec.eq_of_toNat_eq
  rw [BitVec.toNat_and, BitVec.toNat_ofNat, Nat.mod_eq_of_lt hmask, Nat.and_two_pow_sub_one_eq_mod,
    toNat_shiftLeft_or hlo hhi, Nat.mul_add_mod', Nat.mod_eq_of_lt hlo]

lemma shiftLeft_or_shiftRight (hlo : lo.toNat < 2 ^ n) (hhi : hi.toNat * 2 ^ n < 2 ^ w) :
    (hi <<< n ||| lo) >>> n = hi := by
  apply BitVec.eq_of_toNat_eq
  rw [BitVec.toNat_ushiftRight, toNat_shiftLeft_or hlo hhi, Nat.shiftRight_eq_div_pow, Nat.add_comm,
    Nat.add_mul_div_right _ _ (Nat.two_pow_pos n), Nat.div_eq_of_lt hlo, Nat.zero_add]

end Packed

end Core.Bytes
