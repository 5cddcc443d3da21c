import Mathlib.Data.List.Basic

/-!
# Frames with a length in front

A frame is a header of fixed size, which says how many elements follow, and these elements, of which
there is at least one. `split` cuts the maximal leading run of complete frames off a list, and
returns the payloads and what is left. It inverts writing frames one after the other.
-/

namespace Core.Framing

/-- How long a header is and what length it announces. -/
structure Header (β : Type*) where
  size : ℕ
  length : List β → ℕ

variable {β : Type*} (hd : Header β)

/-- The length that the list announces. -/
def Header.announced (l : List β) : ℕ := hd.length (l.take hd.size)

/-- The list starts with a complete frame. -/
def Header.Starts (l : List β) : Prop :=
  hd.size ≤ l.length ∧ 1 ≤ hd.announced l ∧ hd.size + hd.announced l ≤ l.length

instance (l : List β) : Decidable (hd.Starts l) :=
  inferInstanceAs (Decidable (_ ∧ _ ∧ _))

/-- The payloads of the leading frames, and the rest. -/
def split (l : List β) : List (List β) × List β :=
  if hd.Starts l then
    let r := split (l.drop (hd.size + hd.announced l))
    ((l.drop hd.size).take (hd.announced l) :: r.1, r.2)
  else
    ([], l)
termination_by l.length
decreasing_by
  rename_i h
  have hpos := h.2.1
  have hlen := h.2.2
  rw [List.length_drop]
  omega

variable {hd} {l : List β}

lemma split_of_not_starts (h : ¬ hd.Starts l) : split hd l = ([], l) := by
  rw [split, if_neg h]

lemma split_of_starts (h : hd.Starts l) :
    split hd l =
      ((l.drop hd.size).take (hd.announced l) ::
        (split hd (l.drop (hd.size + hd.announced l))).1,
        (split hd (l.drop (hd.size + hd.announced l))).2) := by
  rw [split, if_pos h]

/-- A frame in front is cut off. -/
lemma split_append {front payload rest : List β} (hfront : front.length = hd.size)
    (hlen : hd.length front = payload.length) (hne : payload ≠ []) :
    split hd (front ++ payload ++ rest) =
      (payload :: (split hd rest).1, (split hd rest).2) := by
  have htake : hd.announced (front ++ payload ++ rest) = payload.length := by
    rw [Header.announced, List.append_assoc, ← hfront, List.take_left, hlen]
  have hpos : 0 < payload.length := List.length_pos_iff.mpr hne
  have hstarts : hd.Starts (front ++ payload ++ rest) := by
    refine ⟨?_, ?_, ?_⟩
    · simp only [List.length_append]
      omega
    · omega
    · simp only [htake, List.length_append]
      omega
  rw [split_of_starts hstarts, htake]
  have hdrop : (front ++ payload ++ rest).drop (hd.size + payload.length) = rest := by
    rw [← hfront, ← List.length_append, List.drop_left]
  have hpayload : ((front ++ payload ++ rest).drop hd.size).take payload.length = payload := by
    rw [List.append_assoc, ← hfront, List.drop_left, List.take_left]
  rw [hdrop, hpayload]

/-- Frames written one after the other are read back. -/
lemma split_flatMap {α : Type*} (hd : Header β) (front payload : α → List β)
    (hfront : ∀ a, (front a).length = hd.size) (hne : ∀ a, payload a ≠ []) (as : List α)
    (hlen : ∀ a ∈ as, hd.length (front a) = (payload a).length) (h0 : ¬ hd.Starts []) :
    split hd (as.flatMap fun a => front a ++ payload a) = (as.map payload, []) := by
  induction as with
  | nil => exact split_of_not_starts h0
  | cons a as ih =>
    have ih := ih fun b hb => hlen b (List.mem_cons_of_mem _ hb)
    rw [List.flatMap_cons, split_append (hfront a) (hlen a List.mem_cons_self) (hne a), ih,
      List.map_cons]

end Core.Framing
