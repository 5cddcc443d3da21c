import Mathlib.Data.Nat.Notation
import Mathlib.Logic.Function.Basic

/-!
# Channels that write to memory of their owner

A channel, when it delivers, writes to an object of its owner. It can deliver while one-shot
operations are outstanding, once for each, and any number of times while it is open. Owners come and
go. A system is sound for the owners alive if every channel that can deliver has one of them, or
none: then no delivery writes to an object that is gone.
-/

namespace Core

/-- Channels `ι` with owners `κ`. -/
structure Channels (ι κ : Type*) where
  owner : ι → Option κ
  /-- How many one-shot operations are outstanding. -/
  due : ι → ℕ
  /-- It delivers any number of times. -/
  isOpen : ι → Bool

namespace Channels

variable {ι κ : Type*}

/-- The channel can deliver. -/
def Active (s : Channels ι κ) (i : ι) : Prop := 0 < s.due i ∨ s.isOpen i = true

instance (s : Channels ι κ) (i : ι) : Decidable (s.Active i) := inferInstanceAs (Decidable (_ ∨ _))

/-- The owner of a channel that can deliver is alive. -/
def Sound (live : κ → Prop) (s : Channels ι κ) : Prop :=
  ∀ i k, s.owner i = some k → s.Active i → live k

lemma Sound.mono {s : Channels ι κ} {live live' : κ → Prop} (h : s.Sound live)
    (hlive : ∀ k, live k → live' k) : s.Sound live' :=
  fun i k ho ha => hlive k (h i k ho ha)

/-- An owner may go when none of its channels can deliver. -/
lemma Sound.retire {s : Channels ι κ} {live : κ → Prop} {k : κ}
    (h : s.Sound fun x => x = k ∨ live x) (hquiet : ∀ i, s.owner i = some k → ¬ s.Active i) :
    s.Sound live := by
  intro i x ho ha
  rcases h i x ho ha with rfl | hx
  · exact absurd ha (hquiet i ho)
  · exact hx

/-! ### Operations -/

variable [DecidableEq ι]

/-- Gives a channel a new owner. -/
def assign (i : ι) (owner : Option κ) (s : Channels ι κ) : Channels ι κ :=
  { s with owner := Function.update s.owner i owner }

/-- Starts a one-shot operation. -/
def start (i : ι) (s : Channels ι κ) : Channels ι κ :=
  { s with due := Function.update s.due i (s.due i + 1) }

def setOpen (i : ι) (b : Bool) (s : Channels ι κ) : Channels ι κ :=
  { s with isOpen := Function.update s.isOpen i b }

/-- Delivers the answer to a one-shot operation. -/
def finish (i : ι) (s : Channels ι κ) : Channels ι κ :=
  { s with due := Function.update s.due i (s.due i - 1) }

variable {s : Channels ι κ} {live : κ → Prop} {i j : ι}

lemma active_start : (s.start i).Active j ↔ s.Active j ∨ j = i := by
  by_cases hj : j = i
  · subst hj
    simp [Active, start]
  · simp [Active, start, hj]

lemma Active.of_setOpen {b : Bool} (h : (s.setOpen i b).Active j) :
    s.Active j ∨ j = i ∧ b = true := by
  by_cases hj : j = i
  · subst hj
    simp only [Active, setOpen, Function.update_self] at h
    exact h.elim (fun hdue => .inl (.inl hdue)) fun hb => .inr ⟨rfl, hb⟩
  · simp only [Active, setOpen, Function.update_of_ne hj] at h
    exact .inl h

lemma Active.of_finish (h : (s.finish i).Active j) : s.Active j := by
  by_cases hj : j = i
  · subst hj
    simp only [Active, finish, Function.update_self] at h
    exact h.imp_left fun hlt => Nat.lt_of_lt_of_le hlt (Nat.sub_le _ _)
  · simpa only [Active, finish, Function.update_of_ne hj] using h

namespace Sound

lemma assign (h : s.Sound live) {owner : Option κ} (howner : ∀ k ∈ owner, live k) :
    (s.assign i owner).Sound live := by
  intro j k ho ha
  by_cases hj : j = i
  · subst hj
    simp only [Channels.assign, Function.update_self] at ho
    exact howner k ho
  · simp only [Channels.assign, Function.update_of_ne hj] at ho
    exact h j k ho ha

lemma assign_of_not_active (h : s.Sound live) (hi : ¬ s.Active i) (owner : Option κ) :
    (s.assign i owner).Sound live := by
  intro j k ho ha
  by_cases hj : j = i
  · subst hj
    exact absurd ha hi
  · simp only [Channels.assign, Function.update_of_ne hj] at ho
    exact h j k ho ha

lemma start (h : s.Sound live) (howner : ∀ k ∈ s.owner i, live k) : (s.start i).Sound live := by
  intro j k ho ha
  rcases active_start.mp ha with ha | rfl
  · exact h j k ho ha
  · exact howner k ho

lemma setOpen (h : s.Sound live) {b : Bool} (howner : b = true → ∀ k ∈ s.owner i, live k) :
    (s.setOpen i b).Sound live := by
  intro j k ho ha
  rcases ha.of_setOpen with ha | ⟨rfl, hb⟩
  · exact h j k ho ha
  · exact howner hb k ho

lemma finish (h : s.Sound live) : (s.finish i).Sound live :=
  fun j k ho ha => h j k ho ha.of_finish

end Sound

end Channels

end Core
