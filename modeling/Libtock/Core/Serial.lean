import Mathlib.Data.List.Basic

/-!
# A queue in front of a device that serves one request at a time

The queue is a list whose first request is with the device; the others wait. The device may refuse
a request when it is offered: then the request is dropped and the next one is offered. A request
is offered when it meets an empty queue or when those before it have left, so requests are
offered in the order in which they came, each once.
-/

namespace Core.Serial

variable {α : Type*} (x : α) (accepts : ℕ → Bool) (l : List α)

/-- The queue after the request `x` has come; `accepted` is the answer if it is offered. -/
def put (accepted : Bool) : List α → List α
  | [] => if accepted then [x] else []
  | y :: l => y :: (l ++ [x])

/-- The requests offered when `x` comes. -/
def putOffered : List α → List α
  | [] => [x]
  | _ :: _ => []

/-- What is left of the waiting requests once one has been accepted or all have been refused; the
device answers the `k`-th offer with `accepts k`. -/
def served (accepts : ℕ → Bool) : List α → List α
  | [] => []
  | x :: l => if accepts 0 then x :: l else served (fun k => accepts (k + 1)) l

/-- The requests that are refused and dropped in between. -/
def refused (accepts : ℕ → Bool) : List α → List α
  | [] => []
  | x :: l => if accepts 0 then [] else x :: refused (fun k => accepts (k + 1)) l

/-- The requests that are offered: the refused ones, and the accepted one. -/
def offered : List α := refused accepts l ++ (served accepts l).head?.toList

lemma put_eq_append {accepted : Bool} (h : l ≠ [] ∨ accepted = true) :
    put x accepted l = l ++ [x] := by
  cases l with
  | nil =>
    rcases h with hl | rfl
    · exact absurd rfl hl
    · rfl
  | cons y l => rfl

lemma putOffered_append_tail (accepted : Bool) :
    putOffered x l ++ (put x accepted l).tail = l.tail ++ [x] := by
  cases l with
  | nil => cases accepted <;> rfl
  | cons y l => rfl

lemma refused_append_served : refused accepts l ++ served accepts l = l := by
  induction l generalizing accepts with
  | nil => rfl
  | cons x l ih =>
    unfold refused served
    split_ifs
    · rfl
    · rw [List.cons_append, ih]

lemma mem_of_mem_served {x : α} (h : x ∈ served accepts l) : x ∈ l :=
  refused_append_served accepts l ▸ List.mem_append_right _ h

lemma offered_append_tail : offered accepts l ++ (served accepts l).tail = l := by
  have h := refused_append_served accepts l
  cases hs : served accepts l with
  | nil => simpa [offered, hs] using h
  | cons y l' => simpa [offered, hs] using h

lemma mem_of_mem_offered {x : α} (h : x ∈ offered accepts l) : x ∈ l :=
  offered_append_tail accepts l ▸ List.mem_append_left _ h

end Core.Serial
