import Mathlib.Data.List.Basic
import Mathlib.Data.List.Nodup
import Mathlib.Logic.Function.Basic

/-!
# Linked lists in a heap

`IsChain next s l`: following `next` from the pointer `s` visits exactly the nodes of `l`, in this
order, and then meets the null pointer. `IsBackChain prev p l`: the `prev` fields of the nodes of
`l` point to their predecessors, and the one of the first node is `p`. Both only look at the nodes
of `l`, so an update elsewhere keeps them (`congr`), and both are stable under the pointer surgery
of inserting and removing one node.
-/

namespace Core

variable {P : Type*}

def IsChain (next : P → Option P) : Option P → List P → Prop
  | s, [] => s = none
  | s, x :: l => s = some x ∧ IsChain next (next x) l

instance [DecidableEq P] (next : P → Option P) (s : Option P) (l : List P) :
    Decidable (IsChain next s l) := by
  induction l generalizing s with
  | nil => exact inferInstanceAs (Decidable (s = none))
  | cons x l ih => exact @instDecidableAnd _ _ _ (ih (next x))

def IsBackChain (prev : P → Option P) : Option P → List P → Prop
  | _, [] => True
  | p, x :: l => prev x = p ∧ IsBackChain prev (some x) l

/-- The last node of `l`, or `p` when `l` is empty. -/
def lastOr (p : Option P) : List P → Option P
  | [] => p
  | x :: l => lastOr (some x) l

variable {next next' prev prev' : P → Option P} {s p : Option P} {l l₁ l₂ : List P} {n x : P}

@[simp] lemma isChain_nil : IsChain next s [] ↔ s = none := Iff.rfl

@[simp] lemma isChain_cons : IsChain next s (x :: l) ↔ s = some x ∧ IsChain next (next x) l :=
  Iff.rfl

@[simp] lemma lastOr_nil : lastOr p ([] : List P) = p := rfl

@[simp] lemma lastOr_cons : lastOr p (x :: l) = lastOr (some x) l := rfl

@[simp] lemma lastOr_append_singleton (p : Option P) (l : List P) (x : P) :
    lastOr p (l ++ [x]) = some x := by
  induction l generalizing p with
  | nil => rfl
  | cons y l ih => exact ih (some y)

lemma lastOr_eq_some_mem (h : lastOr p l = some x) : p = some x ∨ x ∈ l := by
  induction l generalizing p with
  | nil => exact Or.inl h
  | cons y l ih =>
    rcases ih h with hy | hx
    · exact Or.inr (by simp [Option.some.inj hy])
    · exact Or.inr (List.mem_cons_of_mem _ hx)

lemma lastOr_none_eq_getLast? (l : List P) : lastOr none l = l.getLast? := by
  cases l with
  | nil => rfl
  | cons x l =>
    rw [lastOr_cons]
    induction l generalizing x with
    | nil => rfl
    | cons y l ih => rw [lastOr_cons, List.getLast?_cons_cons, ih]

lemma lastOr_none_eq_none_iff : lastOr none l = none ↔ l = [] := by
  cases l with
  | nil => simp
  | cons y l =>
    simp only [lastOr_cons, reduceCtorEq, iff_false]
    induction l generalizing y with
    | nil => simp
    | cons z l ih => exact ih z

/-! ### Reading a chain -/

lemma IsChain.head_eq (h : IsChain next s l) : s = l.head? := by
  cases l with
  | nil => simpa using h
  | cons x l => simpa using h.1

/-- The chain from a pointer is determined by the heap. -/
lemma IsChain.unique (h₁ : IsChain next s l₁) (h₂ : IsChain next s l₂) : l₁ = l₂ := by
  induction l₁ generalizing s l₂ with
  | nil =>
    obtain rfl : s = none := h₁
    cases l₂ with
    | nil => rfl
    | cons y l₂ => exact absurd h₂.1 (by simp)
  | cons x l₁ ih =>
    cases l₂ with
    | nil => exact absurd (h₁.1.symm.trans h₂) (by simp)
    | cons y l₂ =>
      obtain rfl : x = y := Option.some.inj (h₁.1.symm.trans h₂.1)
      rw [ih h₁.2 h₂.2]

lemma IsChain.drop_left (h : IsChain next s (l₁ ++ l₂)) : ∃ s', IsChain next s' l₂ := by
  induction l₁ generalizing s with
  | nil => exact ⟨s, h⟩
  | cons x l₁ ih => exact ih h.2

/-- In a chain the field of a node is the node that follows it. -/
lemma IsChain.next_eq (h : IsChain next s (l₁ ++ n :: l₂)) : next n = l₂.head? := by
  induction l₁ generalizing s with
  | nil => exact h.2.head_eq
  | cons x l₁ ih => exact ih h.2

/-- A finite chain visits no node twice. -/
lemma IsChain.nodup (h : IsChain next s l) : l.Nodup := by
  induction l generalizing s with
  | nil => exact List.nodup_nil
  | cons x l ih =>
    refine List.nodup_cons.mpr ⟨?_, ih h.2⟩
    intro hx
    -- a second visit to `x` would make the rest of the list its own proper suffix
    obtain ⟨a, b, rfl⟩ := List.append_of_mem hx
    have hnext : next x = b.head? := h.2.next_eq
    obtain ⟨s', hb⟩ : ∃ s', IsChain next s' (x :: b) := h.2.drop_left
    have := congrArg List.length (h.2.unique hb.2)
    simp at this
    omega

lemma IsBackChain.prev_eq (h : IsBackChain prev p (l₁ ++ n :: l₂)) : prev n = lastOr p l₁ := by
  induction l₁ generalizing p with
  | nil => exact h.1
  | cons x l₁ ih => exact ih h.2

/-- Every node of a chain is followed by a node of the chain or by nothing. -/
lemma IsChain.next_mem (h : IsChain next s l) (hx : x ∈ l) {y : P} (hy : next x = some y) :
    y ∈ l := by
  obtain ⟨a, b, rfl⟩ := List.append_of_mem hx
  rw [h.next_eq] at hy
  exact List.mem_append_right _ (List.mem_cons_of_mem _ (List.mem_of_mem_head? hy))

/-! ### Changing a chain -/

lemma IsChain.congr (h : IsChain next s l) (heq : ∀ x ∈ l, next' x = next x) :
    IsChain next' s l := by
  induction l generalizing s with
  | nil => exact h
  | cons x l ih =>
    refine ⟨h.1, ?_⟩
    rw [heq x List.mem_cons_self]
    exact ih h.2 fun y hy => heq y (List.mem_cons_of_mem _ hy)

lemma IsBackChain.congr (h : IsBackChain prev p l) (heq : ∀ x ∈ l, prev' x = prev x) :
    IsBackChain prev' p l := by
  induction l generalizing p with
  | nil => trivial
  | cons x l ih =>
    exact ⟨(heq x List.mem_cons_self).trans h.1,
      ih h.2 fun y hy => heq y (List.mem_cons_of_mem _ hy)⟩

/-- Replacing what follows `l₁`: the last node of `l₁` (or the start pointer) now leads to `l₂'`. -/
lemma IsChain.splice {l₂' : List P} (h : IsChain next s (l₁ ++ l₂)) (hnd : (l₁ ++ l₂).Nodup)
    (heq : ∀ x ∈ l₁, lastOr none l₁ ≠ some x → next' x = next x)
    (hlast : ∀ x, lastOr none l₁ = some x → next' x = l₂'.head?)
    (htail : IsChain next' l₂'.head? l₂') :
    IsChain next' (if l₁ = [] then l₂'.head? else s) (l₁ ++ l₂') := by
  induction l₁ generalizing s with
  | nil => simpa using htail
  | cons x l₁ ih =>
    have hnd' := (List.nodup_cons.mp hnd).2
    have hx : x ∉ l₁ := fun hx => (List.nodup_cons.mp hnd).1 (List.mem_append_left _ hx)
    refine ⟨by simpa using h.1, ?_⟩
    cases l₁ with
    | nil =>
      rw [hlast x (by simp)]
      simpa using htail
    | cons y l₁ =>
      have hlx : lastOr none (x :: y :: l₁) ≠ some x := by
        intro hl
        rcases lastOr_eq_some_mem (p := some y) (l := l₁) hl with hy | hy
        · exact hx (by simp [Option.some.inj hy])
        · exact hx (List.mem_cons_of_mem _ hy)
      rw [heq x List.mem_cons_self hlx]
      have := ih h.2 hnd' (fun z hz hne => heq z (List.mem_cons_of_mem _ hz) hne) hlast
      simpa using this

/-- Replacing what follows `l₁`, seen from the other direction. -/
lemma IsBackChain.splice {l₂' : List P} (h : IsBackChain prev p (l₁ ++ l₂))
    (heq : ∀ x ∈ l₁, prev' x = prev x) (htail : IsBackChain prev' (lastOr p l₁) l₂') :
    IsBackChain prev' p (l₁ ++ l₂') := by
  induction l₁ generalizing p with
  | nil => exact htail
  | cons x l₁ ih =>
    exact ⟨(heq x List.mem_cons_self).trans h.1,
      ih h.2 (fun y hy => heq y (List.mem_cons_of_mem _ hy)) htail⟩

lemma IsBackChain.drop_left (h : IsBackChain prev p (l₁ ++ l₂)) :
    IsBackChain prev (lastOr p l₁) l₂ := by
  induction l₁ generalizing p with
  | nil => exact h
  | cons x l₁ ih => exact ih h.2

/-! ### Inserting and removing a node

`l₁` are the nodes before the place, `l₂` the nodes after it. Only the node itself, the last of
`l₁` and the first of `l₂` change. -/

section Surgery

variable [DecidableEq P]

lemma IsChain.insert (h : IsChain next s (l₁ ++ l₂)) (hn : n ∉ l₁ ++ l₂) (hnext : ∀ q,
    next' q = if q = n then l₂.head? else if lastOr none l₁ = some q then some n else next q) :
    IsChain next' (if l₁ = [] then some n else s) (l₁ ++ n :: l₂) := by
  have hnd := h.nodup
  obtain ⟨s₂, h₂⟩ := h.drop_left
  have hlast : ∀ q ∈ l₂, lastOr none l₁ ≠ some q := by
    intro q hq hl
    rcases lastOr_eq_some_mem hl with hc | hmem
    · cases hc
    · exact List.disjoint_of_nodup_append hnd hmem hq
  refine IsChain.splice h hnd ?_ ?_ (isChain_cons.mpr ⟨rfl, ?_⟩)
  · intro x hx hlx
    have hxn : x ≠ n := fun hxn => hn (hxn ▸ List.mem_append_left _ hx)
    rw [hnext, if_neg hxn, if_neg hlx]
  · intro x hlx
    have hxn : x ≠ n := by
      rintro rfl
      rcases lastOr_eq_some_mem hlx with hc | hmem
      · cases hc
      · exact hn (List.mem_append_left _ hmem)
    rw [hnext, if_neg hxn, if_pos hlx, List.head?_cons]
  · rw [hnext, if_pos rfl, ← h₂.head_eq]
    apply h₂.congr
    intro x hx
    have hxn : x ≠ n := fun hxn => hn (hxn ▸ List.mem_append_right _ hx)
    rw [hnext, if_neg hxn, if_neg (hlast x hx)]

lemma IsBackChain.insert (h : IsBackChain prev none (l₁ ++ l₂)) (hnd : (l₁ ++ l₂).Nodup)
    (hn : n ∉ l₁ ++ l₂) (hprev : ∀ q, prev' q = if q = n then lastOr none l₁ else
      if l₂.head? = some q then some n else prev q) :
    IsBackChain prev' none (l₁ ++ n :: l₂) := by
  have hother : ∀ x ∈ l₁ ++ l₂, l₂.head? ≠ some x → prev' x = prev x := by
    intro x hx hh
    have hxn : x ≠ n := fun hxn => hn (hxn ▸ hx)
    rw [hprev, if_neg hxn, if_neg hh]
  refine h.splice ?_ ⟨by rw [hprev, if_pos rfl], ?_⟩
  · intro x hx
    apply hother x (List.mem_append_left _ hx)
    intro hh
    exact List.disjoint_of_nodup_append hnd hx (List.mem_of_mem_head? hh)
  · have h₂ := h.drop_left
    cases l₂ with
    | nil => trivial
    | cons y l₂ =>
      have hyn : y ≠ n := fun hyn => hn (hyn ▸ by simp)
      refine ⟨by rw [hprev, if_neg hyn, if_pos List.head?_cons], h₂.2.congr fun x hx => ?_⟩
      apply hother x (by simp [hx])
      intro hh
      rw [List.head?_cons, Option.some.injEq] at hh
      have := (List.nodup_append.mp hnd).2.1
      exact (List.nodup_cons.mp this).1 (hh ▸ hx)

lemma IsChain.remove (h : IsChain next s (l₁ ++ n :: l₂)) (hnext : ∀ q ≠ n,
    next' q = if lastOr none l₁ = some q then l₂.head? else next q) :
    IsChain next' (if l₁ = [] then l₂.head? else s) (l₁ ++ l₂) := by
  have hnd := h.nodup
  obtain ⟨hnd₁, hnd₂, hdisj⟩ := List.nodup_append.mp hnd
  have hn₂ : n ∉ l₂ := (List.nodup_cons.mp hnd₂).1
  obtain ⟨s₂, h₂⟩ := h.drop_left
  have hn₁ : ∀ x ∈ l₁, x ≠ n := fun x hx => hdisj x hx n List.mem_cons_self
  apply IsChain.splice h hnd
  · intro x hx hlx
    rw [hnext x (hn₁ x hx), if_neg hlx]
  · intro x hlx
    rcases lastOr_eq_some_mem hlx with hc | hmem
    · cases hc
    · rw [hnext x (hn₁ x hmem), if_pos hlx]
  · rw [← h₂.2.head_eq]
    apply h₂.2.congr
    intro x hx
    have hlx : lastOr none l₁ ≠ some x := by
      intro hl
      rcases lastOr_eq_some_mem hl with hc | hmem
      · cases hc
      · exact hdisj x hmem x (List.mem_cons_of_mem _ hx) rfl
    rw [hnext x (fun hxn => hn₂ (hxn ▸ hx)), if_neg hlx]

lemma IsBackChain.remove (h : IsBackChain prev none (l₁ ++ n :: l₂)) (hnd : (l₁ ++ n :: l₂).Nodup)
    (hprev : ∀ q ≠ n, prev' q = if l₂.head? = some q then lastOr none l₁ else prev q) :
    IsBackChain prev' none (l₁ ++ l₂) := by
  obtain ⟨_, hnd₂, hdisj⟩ := List.nodup_append.mp hnd
  have hn₂ : n ∉ l₂ := (List.nodup_cons.mp hnd₂).1
  apply h.splice
  · intro x hx
    have hhead : l₂.head? ≠ some x := fun hh =>
      hdisj x hx x (List.mem_cons_of_mem _ (List.mem_of_mem_head? hh)) rfl
    rw [hprev x (hdisj x hx n List.mem_cons_self), if_neg hhead]
  · have h₂ := h.drop_left.2
    cases l₂ with
    | nil => trivial
    | cons y l₂ =>
      refine ⟨by rw [hprev y (by grind), if_pos List.head?_cons], h₂.2.congr fun x hx => ?_⟩
      have hhead : (y :: l₂).head? ≠ some x := by
        rw [List.head?_cons, Ne, Option.some.injEq]
        rintro rfl
        exact (List.nodup_cons.mp (List.nodup_cons.mp hnd₂).2).1 hx
      rw [hprev x (fun hxn => hn₂ (hxn ▸ List.mem_cons_of_mem _ hx)), if_neg hhead]

end Surgery

end Core
