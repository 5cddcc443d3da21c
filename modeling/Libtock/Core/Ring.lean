import Mathlib.Data.List.Basic
import Mathlib.Logic.Function.Basic
import Mathlib.Data.List.Range

/-!
# Ring buffers with one slot kept empty

A ring of `n` slots is an array with two indices: `cur`, the next slot to read, and `last`, the
next slot to write. It is empty when they agree and full when advancing `last` would make them
agree, so it holds at most `n - 1` elements. `Ring.contents` is the queue such an array stores.
-/

namespace Core.Ring

variable {β : Type*} {n cur last : ℕ}

/-- The number of stored elements. -/
def size (n cur last : ℕ) : ℕ := (last + n - cur) % n

/-- The stored elements, oldest first. -/
def contents (n : ℕ) (slots : ℕ → β) (cur last : ℕ) : List β :=
  (List.range (size n cur last)).map fun i => slots ((cur + i) % n)

@[simp] lemma length_contents (slots : ℕ → β) :
    (contents n slots cur last).length = size n cur last := by
  simp [contents]

lemma size_eq (hc : cur < n) (hl : last < n) :
    size n cur last = if cur ≤ last then last - cur else last + n - cur := by
  rw [size]
  split_ifs with h
  · rw [show last + n - cur = last - cur + n by omega, Nat.add_mod_right,
      Nat.mod_eq_of_lt (by omega)]
  · exact Nat.mod_eq_of_lt (by omega)

lemma next_eq (hl : last < n) : (last + 1) % n = if last + 1 = n then 0 else last + 1 := by
  split_ifs with h
  · rw [h, Nat.mod_self]
  · exact Nat.mod_eq_of_lt (by omega)

lemma size_lt (hc : cur < n) (hl : last < n) : size n cur last < n := by
  rw [size_eq hc hl]
  split_ifs <;> omega

/-- The ring refuses a new element exactly when `n - 1` slots are in use. -/
lemma next_eq_cur_iff (hc : cur < n) (hl : last < n) :
    (last + 1) % n = cur ↔ size n cur last = n - 1 := by
  rw [size_eq hc hl, next_eq hl]
  split_ifs <;> omega

lemma size_push (hc : cur < n) (hl : last < n) (hroom : (last + 1) % n ≠ cur) :
    size n cur ((last + 1) % n) = size n cur last + 1 := by
  rw [size_eq hc (Nat.mod_lt _ (by omega)), size_eq hc hl]
  rw [next_eq hl] at hroom ⊢
  split_ifs at hroom ⊢ <;> omega

lemma size_pop (hc : cur < n) (hl : last < n) (hne : cur ≠ last) :
    size n cur last = size n ((cur + 1) % n) last + 1 := by
  rw [size_eq hc hl, size_eq (Nat.mod_lt _ (by omega)) hl, next_eq hc]
  split_ifs <;> omega

lemma size_eq_zero_iff (hc : cur < n) (hl : last < n) : size n cur last = 0 ↔ cur = last := by
  rw [size_eq hc hl]
  split_ifs <;> omega

/-- The slot after the stored elements is the one `last` points to. -/
lemma cur_add_size (hc : cur < n) (hl : last < n) : (cur + size n cur last) % n = last := by
  rw [size_eq hc hl]
  split_ifs with h
  · rw [show cur + (last - cur) = last by omega, Nat.mod_eq_of_lt hl]
  · rw [show cur + (last + n - cur) = last + n by omega, Nat.add_mod_right, Nat.mod_eq_of_lt hl]

lemma slot_ne_last (hc : cur < n) (hl : last < n) {i : ℕ} (hi : i < size n cur last) :
    (cur + i) % n ≠ last := by
  rw [size_eq hc hl] at hi
  by_cases hwrap : cur + i < n
  · rw [Nat.mod_eq_of_lt hwrap]
    split_ifs at hi <;> omega
  · have hi' : i < n := by split_ifs at hi <;> omega
    rw [Nat.mod_eq_sub_mod (by omega), Nat.mod_eq_of_lt (by omega)]
    split_ifs at hi <;> omega

/-- Writing the slot at `last` and advancing `last` appends. -/
lemma contents_push (slots : ℕ → β) (x : β) (hc : cur < n) (hl : last < n)
    (hroom : (last + 1) % n ≠ cur) :
    contents n (Function.update slots last x) cur ((last + 1) % n)
      = contents n slots cur last ++ [x] := by
  rw [contents]
  rw [size_push hc hl hroom, List.range_succ, List.map_append]
  congr 1
  · apply List.map_congr_left
    intro i hi
    exact Function.update_of_ne (slot_ne_last hc hl (List.mem_range.mp hi)) _ _
  · simp [cur_add_size hc hl]

/-- Reading the slot at `cur` and advancing `cur` takes the oldest element away. -/
lemma contents_pop (slots : ℕ → β) (hc : cur < n) (hl : last < n) (hne : cur ≠ last) :
    contents n slots cur last = slots cur :: contents n slots ((cur + 1) % n) last := by
  rw [contents]
  rw [size_pop hc hl hne, List.range_succ_eq_map, List.map_cons, List.map_map]
  congr 1
  · rw [Nat.add_zero, Nat.mod_eq_of_lt hc]
  · apply List.map_congr_left
    intro i _
    simp only [Function.comp_apply, Nat.mod_add_mod]
    congr 2
    omega

lemma contents_eq_nil_iff (slots : ℕ → β) (hc : cur < n) (hl : last < n) :
    contents n slots cur last = [] ↔ cur = last := by
  rw [← List.length_eq_zero_iff, length_contents, size_eq_zero_iff hc hl]

end Core.Ring
