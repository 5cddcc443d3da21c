import Mathlib.Algebra.Order.Field.Basic
import Mathlib.Algebra.Order.Field.Rat
import Mathlib.Tactic.FieldSimp
import Mathlib.Tactic.Linarith
import Mathlib.Tactic.Ring

/-!
# Scaling by a ratio in two truncating parts

`m * f / k` is computed without the wide product: whole multiples of `k` are scaled by `f`, the
remainder by `f / k`. What is lost is the product of the two remainders.
-/

namespace Core

/-- `m * f / k` as `m / k` whole parts and the rest, each scaled by integers. -/
def scale (k m f : ℕ) : ℕ := (m / k) * f + (m % k) * (f / k)

lemma mul_scale_add (k m f : ℕ) : k * scale k m f + (m % k) * (f % k) = m * f := by
  calc k * scale k m f + (m % k) * (f % k)
      = (k * (m / k)) * f + (m % k) * (k * (f / k) + f % k) := by
        rw [scale]
        ring
    _ = (k * (m / k) + m % k) * f := by
        rw [Nat.div_add_mod]
        ring
    _ = m * f := by rw [Nat.div_add_mod]

/-- What the two truncations lose. -/
lemma sub_scale {k : ℕ} (hk : 0 < k) (m f : ℕ) :
    (m * f / k : ℚ) - scale k m f = ((m % k * (f % k) : ℕ) : ℚ) / k := by
  have hk' : (k : ℚ) ≠ 0 := by exact_mod_cast hk.ne'
  have h : (k * scale k m f + (m % k * (f % k) : ℕ) : ℚ) = m * f := by
    exact_mod_cast mul_scale_add k m f
  field_simp
  linarith

/-- The result is less than one unit off exactly when the product of the remainders is. -/
lemma abs_scale_sub_lt_one_iff {k : ℕ} (hk : 0 < k) (m f : ℕ) :
    |(scale k m f : ℚ) - m * f / k| < 1 ↔ (m % k) * (f % k) < k := by
  have hk' : (0 : ℚ) < k := by exact_mod_cast hk
  rw [abs_sub_comm, sub_scale hk, abs_of_nonneg (by positivity), div_lt_one hk', Nat.cast_lt]

/-- Then no whole unit is lost. -/
lemma div_le_scale {k m f : ℕ} (h : (m % k) * (f % k) < k) : m * f / k ≤ scale k m f := by
  rw [← Nat.lt_succ_iff, Nat.div_lt_iff_lt_mul (Nat.zero_lt_of_lt h), ← mul_scale_add k m f,
    Nat.succ_mul, Nat.mul_comm k]
  exact Nat.add_lt_add_left h _

/-- No wrapping below the bound on the exact value. -/
lemma scale_lt {k m f b : ℕ} (h : (m * f / k : ℚ) < b) (hk : 0 < k) : scale k m f < b := by
  have hle := sub_scale hk m f
  have hnonneg : (0 : ℚ) ≤ ((m % k * (f % k) : ℕ) : ℚ) / k := by positivity
  have hlt : (scale k m f : ℚ) < b := by linarith
  exact_mod_cast hlt

lemma pred_le_mod_iff {a b : ℕ} (hb : 0 < b) : b - 1 ≤ a % b ↔ b ∣ a + 1 := by
  have hlt := Nat.mod_lt a hb
  have hsplit : a + 1 = b * (a / b) + (a % b + 1) := by rw [← Nat.add_assoc, Nat.div_add_mod]
  rw [hsplit, Nat.dvd_add_right (Nat.dvd_mul_right _ _)]
  constructor
  · intro h
    rw [show a % b + 1 = b by omega]
  · intro h
    have hle := Nat.le_of_dvd (Nat.succ_pos _) h
    omega

/-- The residue of the result is the largest one exactly when the scaled product lies `k` below a
multiple of `k * b`. -/
lemma pred_le_scale_mod_iff {k b : ℕ} (hk : 0 < k) (hb : 0 < b) (m f : ℕ) :
    b - 1 ≤ scale k m f % b ↔ k * b ∣ m * f - (m % k) * (f % k) + k := by
  have hsum : m * f - (m % k) * (f % k) + k = k * (scale k m f + 1) := by
    rw [← mul_scale_add k m f, Nat.add_sub_cancel]
    ring
  rw [hsum, Nat.mul_dvd_mul_iff_left hk, pred_le_mod_iff hb]

end Core
