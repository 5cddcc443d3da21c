import Libtock.Alarm.State
import Libtock.Core.Scale

/-!
# The interval of a timer

`timer_in` and `timer_every` turn milliseconds into ticks by scaling with the frequency, and lose
the product of the two remainders on the way. What they compute is as asked exactly for the
durations for which that product is below one tick and, past the range of the clock, by accident.
-/

namespace Alarm

open Core Tock

/-- An interval that stands for `ms` milliseconds at `frequency`: less than a tick off, and the
longest one when none is long enough. -/
structure AsAsked (ms frequency interval : U32) : Prop where
  close : (ms.toNat * frequency.toNat / 1000 : ℚ) < 2 ^ 32 →
    |(interval.toNat : ℚ) - ms.toNat * frequency.toNat / 1000| < 1
  saturates : 2 ^ 32 ≤ (ms.toNat * frequency.toNat / 1000 : ℚ) → 2 ^ 32 - 1 ≤ interval.toNat

/-- The product of the two remainders is less than a tick, or the product of the arguments is so
large that it wraps around to the longest interval. -/
def LosesLittle (ms frequency : U32) : Prop :=
  if ms.toNat * frequency.toNat < 1000 * 2 ^ 32 then
    (ms.toNat % 1000) * (frequency.toNat % 1000) < 1000
  else
    1000 * 2 ^ 32 ∣
      ms.toNat * frequency.toNat - (ms.toNat % 1000) * (frequency.toNat % 1000) + 1000

instance (ms frequency : U32) : Decidable (LosesLittle ms frequency) :=
  inferInstanceAs (Decidable (ite _ _ _))

lemma toNat_ticks (ms frequency : U32) :
    (ticks ms frequency).toNat = scale 1000 ms.toNat frequency.toNat % 2 ^ 32 := by
  simp [ticks, scale, BitVec.toNat_add, BitVec.toNat_mul]

lemma toNat_ticks_of_fits {ms frequency : U32}
    (h : (ms.toNat * frequency.toNat / 1000 : ℚ) < 2 ^ 32) :
    (ticks ms frequency).toNat = scale 1000 ms.toNat frequency.toNat := by
  have hlt : scale 1000 ms.toNat frequency.toNat < 2 ^ 32 :=
    scale_lt (by exact_mod_cast h) (by decide)
  rw [toNat_ticks, Nat.mod_eq_of_lt hlt]

lemma fits_iff (ms frequency : U32) :
    (ms.toNat * frequency.toNat / 1000 : ℚ) < 2 ^ 32 ↔
      ms.toNat * frequency.toNat < 1000 * 2 ^ 32 := by
  rw [div_lt_iff₀ (by norm_num), mul_comm (2 ^ 32 : ℚ)]
  exact_mod_cast Iff.rfl

lemma ticks_asAsked_iff (ms frequency : U32) :
    AsAsked ms frequency (ticks ms frequency) ↔ LosesLittle ms frequency := by
  by_cases hfits : (ms.toNat * frequency.toNat / 1000 : ℚ) < 2 ^ 32
  · have hclose := abs_scale_sub_lt_one_iff (k := 1000) (by decide) ms.toNat frequency.toNat
    rw [← toNat_ticks_of_fits hfits] at hclose
    rw [LosesLittle, if_pos ((fits_iff _ _).mp hfits), ← hclose]
    exact ⟨fun h => h.close hfits, fun h => ⟨fun _ => h, fun hge => absurd hfits (not_lt.mpr hge)⟩⟩
  · have hlast := pred_le_scale_mod_iff (k := 1000) (b := 2 ^ 32) (by decide) (by decide)
      ms.toNat frequency.toNat
    rw [← toNat_ticks] at hlast
    rw [LosesLittle, if_neg fun h => hfits ((fits_iff _ _).mpr h), ← hlast]
    exact ⟨fun h => h.saturates (not_lt.mp hfits),
      fun h => ⟨fun hlt => absurd hlt hfits, fun _ => h⟩⟩

/-- Both functions hand `alarm_at` an interval that is as asked exactly when little is lost. -/
theorem timer_interval_asAsked_iff (fuel t : ℕ) (ms : U32) (cb : Option Callback)
    (repeatingCb : Callback) (ud timer : Ptr) (s : State) :
    timerIn fuel t ms cb ud timer s =
        alarmAt fuel (alarmInternalRead t) (ticks ms s.frequency) (cb.map .user) ud timer s ∧
      timerEvery fuel t ms repeatingCb ud timer s =
        alarmAt fuel (alarmInternalRead t) (ticks ms s.frequency) (some .repeatingUpcall) timer
          timer { s with
            timers := Function.update s.timers timer
              ⟨ticks ms s.frequency, repeatingCb, ud⟩ } ∧
      (AsAsked ms s.frequency (ticks ms s.frequency) ↔ LosesLittle ms s.frequency) :=
  ⟨rfl, rfl, ticks_asAsked_iff ms s.frequency⟩

/-- At 32768 Hz almost a second comes out 23 ms short, and the longest time wraps around. -/
theorem timer_interval_short :
    ¬ AsAsked 999 32768 (ticks 999 32768) ∧ ¬ AsAsked (-1) 32768 (ticks (-1) 32768) := by
  rw [ticks_asAsked_iff, ticks_asAsked_iff]
  decide

end Alarm
