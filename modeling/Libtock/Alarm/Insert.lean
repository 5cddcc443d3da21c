import Libtock.Alarm.Linked
import Libtock.Core.Clock
import Mathlib.Data.List.TakeWhile

/-!
# Insertion in the order of distances

`root_insert` compares how far expirations lie ahead of the reference of the new alarm, modulo the
clock. Whatever wraps around in the sums, the new alarm goes before the first one that is not nearer
than its own `dt`, so a list in the order of these distances stays in it.
-/

namespace Alarm

open Core Tock

/-- How far the expiration of `x` lies ahead of the reference of `a`. -/
def distance (a x : AlarmData) : U32 := x.reference + x.dt - a.reference

variable {data : Ptr → AlarmData} {s : State} {l : List Ptr} {n : Ptr}

lemma distance_self (a : AlarmData) : distance a a = a.dt := by
  rw [distance, BitVec.add_comm, BitVec.add_sub_cancel]

/-- The test of `root_insert` on clock values. -/
lemma insertsBefore_iff {a c : AlarmData} :
    insertsBefore a c = true ↔ a.dt ≤ distance a c := by
  simp [insertsBefore, withinRange, distance, Clock.sub_lt_sub_add_iff, BitVec.not_lt]

/-- In the order of distances from the reference of `n`. -/
def Nearer (data : Ptr → AlarmData) (n x y : Ptr) : Prop :=
  distance (data n) (data x) ≤ distance (data n) (data y)

instance (data : Ptr → AlarmData) (n : Ptr) : DecidableRel (Nearer data n) :=
  fun _ _ => inferInstanceAs (Decidable (_ ≤ _))

instance (data : Ptr → AlarmData) (n : Ptr) : Std.Total (Nearer data n) :=
  ⟨fun x y => BitVec.le_total (distance (data n) (data x)) (distance (data n) (data y))⟩

instance (data : Ptr → AlarmData) (n : Ptr) : IsTrans Ptr (Nearer data n) :=
  ⟨fun _ _ _ => BitVec.le_trans⟩

/-- The new alarm goes before the first one that is not nearer than its `dt`. -/
lemma insertAlarm_eq_append (data : Ptr → AlarmData) (n : Ptr) (l : List Ptr) :
    insertAlarm data n l =
      l.takeWhile (fun x => distance (data n) (data x) < (data n).dt) ++
        n :: l.dropWhile (fun x => distance (data n) (data x) < (data n).dt) := by
  rw [insertAlarm, List.orderedInsert_eq_take_drop]
  simp only [insertsBefore_iff, BitVec.not_le]

/-- That is where its distance from its own reference belongs. -/
lemma insertAlarm_eq_orderedInsert (data : Ptr → AlarmData) (n : Ptr) (l : List Ptr) :
    insertAlarm data n l = l.orderedInsert (Nearer data n) n := by
  rw [insertAlarm_eq_append, List.orderedInsert_eq_take_drop]
  simp only [Nearer, distance_self, BitVec.not_le]

/-- `root_insert` on a list in the order of the distances from the reference of the new alarm. -/
theorem root_insert_ordered {fuel : ℕ} (hlist : s.IsList l) (hn : n ∉ l)
    (hsorted : l.Pairwise (Nearer s.data n)) (hfuel : l.length < fuel) :
    ∃ s' l₁ l₂, rootInsert fuel n s = .ok s' ∧ l = l₁ ++ l₂ ∧ s'.IsList (l₁ ++ n :: l₂) ∧
      (∀ x ∈ l₁, distance (s.data n) (s.data x) < (s.data n).dt) ∧
      (∀ x ∈ l₂.head?, (s.data n).dt ≤ distance (s.data n) (s.data x)) ∧
      (l₁ ++ n :: l₂).Pairwise (Nearer s'.data n) ∧ s'.data = s.data := by
  obtain ⟨s', hrun, hlist', hrel⟩ := rootInsert_spec hlist hn hfuel
  have hdata : s'.data = s.data := funext hrel.data_eq
  refine ⟨s', l.takeWhile _, l.dropWhile _, hrun, List.takeWhile_append_dropWhile.symm,
    insertAlarm_eq_append s.data n l ▸ hlist', ?_, ?_, ?_, hdata⟩
  · intro x hx
    simpa using List.mem_takeWhile_imp hx
  · intro x hx
    have hnot := List.head?_dropWhile_not (fun x => distance (s.data n) (s.data x) < (s.data n).dt) l
    rw [Option.mem_def.mp hx] at hnot
    simpa using hnot
  · rw [hdata, ← insertAlarm_eq_append, insertAlarm_eq_orderedInsert]
    exact hsorted.orderedInsert n l

/-- The clock wraps around between the references of the two alarms, and they expire together. -/
theorem root_insert_ordered_wrap :
    let s : State :=
      { alarms := fun p =>
          if p = 2 then ⟨⟨0x10, 0x10, none, 0⟩, none, none⟩
          else ⟨⟨0xFFFFFFFF, 0x21, none, 0⟩, none, none⟩
        timers := fun _ => ⟨0, .app 0, 0⟩
        root := some 2
        queue := .initial fun _ => ⟨.repeatingUpcall, 0, 0, 0, 0⟩
        frequency := 32768
        subscribed := true
        alarmSet := some (0x10, 0x10)
        flags := fun _ => false
        initialised := fun _ => true }
    distance (s.data 4) (s.data 2) = (s.data 4).dt ∧
      ∃ s', rootInsert 2 4 s = .ok s' ∧ s'.IsList [4, 2] := by
  intro s
  have hlist : s.IsList [2] := ⟨⟨rfl, rfl⟩, ⟨rfl, trivial⟩⟩
  obtain ⟨s', l₁, l₂, hrun, hl, hlist', hbefore, -⟩ :=
    root_insert_ordered hlist (n := 4) (by decide) (List.pairwise_singleton _ _)
      (show [2].length < 2 by decide)
  have hnil : l₁ = [] := by
    rcases List.eq_nil_or_concat l₁ with h | ⟨a, x, rfl⟩
    · exact h
    · obtain rfl : x = 2 := by
        have : x ∈ [2] := hl ▸ by simp
        simpa using this
      exact absurd (hbefore 2 (by simp)) (by decide)
  subst hnil
  obtain rfl : l₂ = [2] := hl.symm
  exact ⟨by decide, s', hrun, hlist'⟩

end Alarm
