import Mathlib.Data.BitVec
import Mathlib.Tactic.Ring

/-!
# A free-running counter read through its low bits

Time is an unbounded tick count; a `w`-bit clock shows it modulo `2 ^ w`. Differences of clock
values are differences of times modulo `2 ^ w`, whatever happened to the high bits in between.
-/

namespace Core.Clock

variable {w : ℕ}

/-- The difference of two clock values is the elapsed time modulo `2 ^ w`. -/
lemma toNat_ofNat_sub {a b : ℕ} (h : b ≤ a) :
    (BitVec.ofNat w a - BitVec.ofNat w b).toNat = (a - b) % 2 ^ w := by
  obtain ⟨d, rfl⟩ := Nat.exists_eq_add_of_le h
  rw [BitVec.ofNat_add, BitVec.add_comm, BitVec.add_sub_cancel, BitVec.toNat_ofNat,
    Nat.add_sub_cancel_left]

/-- A time that lies ahead, by less than a clock period, looks long past. -/
lemma toNat_ofNat_sub_of_lt {a b : ℕ} (hlt : a < b) (h : b ≤ a + 2 ^ w) :
    (BitVec.ofNat w a - BitVec.ofNat w b).toNat = 2 ^ w - (b - a) := by
  have hsub : BitVec.ofNat w a = BitVec.ofNat w (a + 2 ^ w) := by
    apply BitVec.eq_of_toNat_eq
    simp
  rw [hsub, toNat_ofNat_sub h, Nat.mod_eq_of_lt (by omega)]
  omega

/-- A clock never shows more elapsed time than has passed. -/
lemma toNat_ofNat_sub_le {a b : ℕ} (h : b ≤ a) :
    (BitVec.ofNat w a - BitVec.ofNat w b).toNat ≤ a - b :=
  toNat_ofNat_sub h ▸ Nat.mod_le _ _

lemma ofNat_add_toNat (a : ℕ) (x : BitVec w) :
    BitVec.ofNat w (a + x.toNat) = BitVec.ofNat w a + x := by
  rw [BitVec.ofNat_add, BitVec.ofNat_toNat, BitVec.setWidth_eq]

/-- Comparing a distance with its distance to `a + t` compares it with `t`. -/
lemma sub_lt_sub_add_iff (a b t : BitVec w) : b - a < b - (a + t) ↔ b - a < t := by
  have hb : b - (a + t) = (b - a) - t := by
    rw [BitVec.sub_eq_add_neg, BitVec.neg_add, BitVec.sub_eq_add_neg, BitVec.sub_eq_add_neg,
      BitVec.sub_eq_add_neg, BitVec.add_assoc]
  rw [hb]
  generalize b - a = d
  have hd := d.isLt
  have ht := t.isLt
  rw [BitVec.lt_def, BitVec.lt_def, BitVec.toNat_sub]
  rcases lt_or_ge d.toNat t.toNat with hlt | hge
  · rw [Nat.mod_eq_of_lt (by omega)]
    omega
  · rw [show 2 ^ w - t.toNat + d.toNat = d.toNat - t.toNat + 2 ^ w by omega, Nat.add_mod_right,
      Nat.mod_eq_of_lt (by omega)]
    omega

end Core.Clock
