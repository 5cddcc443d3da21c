import Libtock.Core.Chain
import Libtock.Alarm.Schedule

/-!
# The pointer code and the list it represents

`State.IsList s l`: the alarms linked from `root` are those of `l`, in this order, with both links
as they should be. The list functions of `alarm_timer.c` act on `l` as the operations of a
`Schedule` do, and touch nothing but the links of the alarms involved.
-/

namespace Alarm

open Core Tock

namespace State

def next (s : State) (p : Ptr) : Option Ptr := (s.alarms p).next

def prev (s : State) (p : Ptr) : Option Ptr := (s.alarms p).prev

def data (s : State) (p : Ptr) : AlarmData := (s.alarms p).toAlarmData

structure IsList (s : State) (l : List Ptr) : Prop where
  chain : IsChain s.next s.root l
  back : IsBackChain s.prev none l

lemma IsList.nodup {s : State} {l : List Ptr} (h : s.IsList l) : l.Nodup := h.chain.nodup

lemma IsList.root_eq {s : State} {l : List Ptr} (h : s.IsList l) : s.root = l.head? :=
  h.chain.head_eq

section Fields

variable (s : State) (p q : Ptr) (v : Option Ptr)

@[simp] lemma next_setRoot : (s.setRoot v).next q = s.next q := rfl

@[simp] lemma prev_setRoot : (s.setRoot v).prev q = s.prev q := rfl

@[simp] lemma root_setRoot : (s.setRoot v).root = v := rfl

@[simp] lemma next_setNext : (s.setNext p v).next q = if q = p then v else s.next q := by
  unfold next setNext
  by_cases h : q = p
  · subst h; simp
  · simp [h]

@[simp] lemma prev_setNext : (s.setNext p v).prev q = s.prev q := by
  unfold prev setNext
  by_cases h : q = p
  · subst h; simp
  · simp [h]

@[simp] lemma data_setNext : (s.setNext p v).data q = s.data q := by
  unfold data setNext
  by_cases h : q = p
  · subst h; simp
  · simp [h]

@[simp] lemma root_setNext : (s.setNext p v).root = s.root := rfl

@[simp] lemma next_setPrev : (s.setPrev p v).next q = s.next q := by
  unfold next setPrev
  by_cases h : q = p
  · subst h; simp
  · simp [h]

@[simp] lemma prev_setPrev : (s.setPrev p v).prev q = if q = p then v else s.prev q := by
  unfold prev setPrev
  by_cases h : q = p
  · subst h; simp
  · simp [h]

@[simp] lemma data_setPrev : (s.setPrev p v).data q = s.data q := by
  unfold data setPrev
  by_cases h : q = p
  · subst h; simp
  · simp [h]

@[simp] lemma root_setPrev : (s.setPrev p v).root = s.root := rfl

@[simp] lemma next_setNextOf (p : Option Ptr) :
    (s.setNextOf p v).next q = if p = some q then v else s.next q := by
  cases p with
  | none => simp [setNextOf]
  | some p => simp [setNextOf, eq_comm]

@[simp] lemma prev_setNextOf (p : Option Ptr) : (s.setNextOf p v).prev q = s.prev q := by
  cases p <;> simp [setNextOf]

@[simp] lemma root_setNextOf (p : Option Ptr) : (s.setNextOf p v).root = s.root := by
  cases p <;> rfl

@[simp] lemma next_setPrevOf (p : Option Ptr) : (s.setPrevOf p v).next q = s.next q := by
  cases p <;> simp [setPrevOf]

@[simp] lemma prev_setPrevOf (p : Option Ptr) :
    (s.setPrevOf p v).prev q = if p = some q then v else s.prev q := by
  cases p with
  | none => simp [setPrevOf]
  | some p => simp [setPrevOf, eq_comm]

@[simp] lemma root_setPrevOf (p : Option Ptr) : (s.setPrevOf p v).root = s.root := by
  cases p <;> rfl

end Fields

/-- The memory with other links. -/
def withLinks (root : Option Ptr) (next prev : Ptr → Option Ptr) (s : State) : State :=
  { s with root, alarms := fun p => ⟨s.data p, next p, prev p⟩ }

/-- `s'` is `s` with other links on the alarms of `L` and another `root`. -/
def Relinked (L : List Ptr) (s s' : State) : Prop :=
  s' = s.withLinks s'.root s'.next s'.prev ∧ ∀ p ∉ L, s'.next p = s.next p ∧ s'.prev p = s.prev p

variable {L : List Ptr} {s s' s'' : State}

lemma Relinked.data_eq (h : Relinked L s s') (p : Ptr) : s'.data p = s.data p := by
  rw [h.1]
  rfl

lemma Relinked.trans (h : Relinked L s s') (h' : Relinked L s' s'') : Relinked L s s'' := by
  constructor
  · rw [h'.1, h.1]
    rfl
  · intro p hp
    obtain ⟨hn, hp'⟩ := h.2 p hp
    obtain ⟨hn', hp''⟩ := h'.2 p hp
    exact ⟨hn'.trans hn, hp''.trans hp'⟩

lemma Relinked.refl (L : List Ptr) (s : State) : Relinked L s s := ⟨rfl, fun _ _ => ⟨rfl, rfl⟩⟩

lemma eq_withLinks (hd : ∀ p, s'.data p = s.data p)
    (hs : s' = { s with root := s'.root, alarms := s'.alarms }) :
    s' = s.withLinks s'.root s'.next s'.prev := by
  have halarms : (fun p => ⟨s.data p, s'.next p, s'.prev p⟩) = s'.alarms := by
    funext p
    rw [← hd p]
    rfl
  rw [withLinks]
  rw [halarms]
  exact hs

lemma relinked_setNext {p : Ptr} (hp : p ∈ L) (v : Option Ptr) : Relinked L s (s.setNext p v) :=
  ⟨eq_withLinks (fun q => data_setNext s p q v) rfl,
    fun q hq => ⟨by rw [next_setNext, if_neg (ne_of_mem_of_not_mem hp hq).symm], by simp⟩⟩

lemma relinked_setPrev {p : Ptr} (hp : p ∈ L) (v : Option Ptr) : Relinked L s (s.setPrev p v) :=
  ⟨eq_withLinks (fun q => data_setPrev s p q v) rfl,
    fun q hq => ⟨by simp, by rw [prev_setPrev, if_neg (ne_of_mem_of_not_mem hp hq).symm]⟩⟩

lemma relinked_setNextOf {p : Option Ptr} (hp : ∀ q, p = some q → q ∈ L) (v : Option Ptr) :
    Relinked L s (s.setNextOf p v) := by
  cases p with
  | none => exact .refl L s
  | some p => exact relinked_setNext (hp p rfl) v

lemma relinked_setPrevOf {p : Option Ptr} (hp : ∀ q, p = some q → q ∈ L) (v : Option Ptr) :
    Relinked L s (s.setPrevOf p v) := by
  cases p with
  | none => exact .refl L s
  | some p => exact relinked_setPrev (hp p rfl) v

lemma relinked_setRoot (r : Option Ptr) : Relinked L s (s.setRoot r) :=
  ⟨rfl, fun _ _ => ⟨rfl, rfl⟩⟩

end State

open State

/-! ### `root_insert` -/

/-- The cursor of `root_insert` once its `prev` is `p`. -/
def Slot.after : Option Ptr → Slot
  | none => .root
  | some p => .nextOf p

variable {s : State} {l l₁ l₂ : List Ptr} {n alarm : Ptr}

lemma Slot.load_after (h : IsChain s.next s.root (l₁ ++ l₂)) :
    (Slot.after (lastOr none l₁)).load s = l₂.head? := by
  rcases List.eq_nil_or_concat l₁ with rfl | ⟨a, x, rfl⟩
  · exact h.head_eq
  · rw [List.concat_eq_append] at h ⊢
    rw [lastOr_append_singleton]
    have h' : IsChain s.next s.root (a ++ x :: l₂) := by simpa using h
    exact h'.next_eq

@[simp] lemma Slot.root_store (p v : Option Ptr) (s : State) :
    ((Slot.after p).store v s).root = if p = none then v else s.root := by
  cases p <;> rfl

@[simp] lemma Slot.next_store (p v : Option Ptr) (s : State) (q : Ptr) :
    ((Slot.after p).store v s).next q = if p = some q then v else s.next q := by
  cases p with
  | none => rfl
  | some p => simp [Slot.after, Slot.store, eq_comm]

@[simp] lemma Slot.prev_store (p v : Option Ptr) (s : State) (q : Ptr) :
    ((Slot.after p).store v s).prev q = s.prev q := by
  cases p with
  | none => rfl
  | some p => simp [Slot.after, Slot.store]

lemma Slot.relinked_store {L : List Ptr} (hL : ∀ x ∈ l₁, x ∈ L) (v : Option Ptr) :
    Relinked L s ((Slot.after (lastOr none l₁)).store v s) := by
  cases hlast : lastOr none l₁ with
  | none => exact relinked_setRoot v
  | some p =>
    rcases lastOr_eq_some_mem hlast with hc | hp
    · cases hc
    · exact relinked_setNext (hL p hp) v

/-- Linking `n` in between `l₁` and `l₂`. -/
lemma State.IsList.insert {s' : State} (h : s.IsList (l₁ ++ l₂)) (hn : n ∉ l₁ ++ l₂)
    (hroot : s'.root = if l₁ = [] then some n else s.root)
    (hnext : ∀ q, s'.next q = if q = n then l₂.head? else
      if lastOr none l₁ = some q then some n else s.next q)
    (hprev : ∀ q, s'.prev q = if q = n then lastOr none l₁ else
      if l₂.head? = some q then some n else s.prev q) :
    s'.IsList (l₁ ++ n :: l₂) :=
  ⟨hroot ▸ h.chain.insert hn hnext, h.back.insert h.nodup hn hprev⟩

lemma insertAlarm_cons (data : Ptr → AlarmData) (n x : Ptr) (l : List Ptr) :
    insertAlarm data n (x :: l)
      = if insertsBefore (data n) (data x) then n :: x :: l else x :: insertAlarm data n l := by
  simp [insertAlarm, List.orderedInsert_cons]

@[simp] lemma length_insertAlarm (data : Ptr → AlarmData) (n : Ptr) (l : List Ptr) :
    (insertAlarm data n l).length = l.length + 1 := List.orderedInsert_length _ _ _

@[simp] lemma mem_insertAlarm {data : Ptr → AlarmData} {n x : Ptr} {l : List Ptr} :
    x ∈ insertAlarm data n l ↔ x = n ∨ x ∈ l := by
  simp [insertAlarm]

/-- The loop of `root_insert` when it has passed the alarms of `l₁`. -/
lemma rootInsertLoop_spec {fuel : ℕ} (h : s.IsList (l₁ ++ l₂)) (hn : n ∉ l₁ ++ l₂)
    (hne : l₁ ++ l₂ ≠ []) (hfuel : l₂.length < fuel) :
    ∃ s', rootInsertLoop n fuel (.after (lastOr none l₁)) (lastOr none l₁) s = .ok s' ∧
      s'.IsList (l₁ ++ insertAlarm s.data n l₂) ∧ Relinked (n :: (l₁ ++ l₂)) s s' := by
  induction l₂ generalizing l₁ fuel with
  | nil =>
    obtain ⟨fuel, rfl⟩ := Nat.exists_eq_add_one_of_ne_zero (Nat.ne_zero_of_lt hfuel)
    obtain ⟨a, p, rfl⟩ : ∃ a p, l₁ = a ++ [p] := by
      rcases List.eq_nil_or_concat l₁ with rfl | ⟨a, p, rfl⟩
      · exact absurd rfl hne
      · exact ⟨a, p, List.concat_eq_append⟩
    have hload := Slot.load_after h.chain
    simp only [lastOr_append_singleton, List.head?_nil] at hload
    refine ⟨((s.setNext p (some n)).setPrev n (some p)).setNext n none,
      by simp only [rootInsertLoop, lastOr_append_singleton, hload], ?_, ?_⟩
    · refine h.insert hn (by simp) (?_) (?_)
      · intro q
        simp [eq_comm (a := p)]
      · intro q
        simp
    · exact ((relinked_setNext (by simp) _).trans (relinked_setPrev (by simp) _)).trans
        (relinked_setNext (by simp) _)
  | cons x l₂ ih =>
    obtain ⟨fuel, rfl⟩ := Nat.exists_eq_add_one_of_ne_zero (Nat.ne_zero_of_lt hfuel)
    have hload := Slot.load_after h.chain
    rw [List.head?_cons] at hload
    have hdata : ∀ p, (s.alarms p).toAlarmData = s.data p := fun _ => rfl
    simp only [rootInsertLoop, hload, insertAlarm_cons, hdata]
    by_cases hbefore : insertsBefore (s.data n) (s.data x)
    · -- the new alarm goes here
      simp only [hbefore, if_true]
      have hxn : x ≠ n := fun hxn => hn (by simp [hxn])
      refine ⟨_, rfl, h.insert hn ?_ (?_) (?_), ?_⟩
      · simp [lastOr_none_eq_none_iff]
      · intro q
        simp
      · intro q
        by_cases hqx : q = x
        · simp [hqx, hxn]
        · simp [hqx, Ne.symm hqx]
      · exact (((Slot.relinked_store (by simp +contextual) _).trans
          (relinked_setNext (by simp) _)).trans (relinked_setPrev (by simp) _)).trans
          (relinked_setPrev (by simp) _)
    · simp only [hbefore]
      have h' : s.IsList ((l₁ ++ [x]) ++ l₂) := by simpa using h
      obtain ⟨s', hrun, hlist, hrel⟩ :=
        ih h' (by simpa using hn) (by simp) (Nat.lt_of_succ_lt_succ hfuel)
      rw [lastOr_append_singleton] at hrun
      exact ⟨s', by simpa [Slot.after] using hrun, by simpa using hlist, by simpa using hrel⟩

/-- `root_insert` on the list `l`, to which the alarm does not belong. -/
lemma rootInsert_spec {fuel : ℕ} (h : s.IsList l) (hn : n ∉ l) (hfuel : l.length < fuel) :
    ∃ s', rootInsert fuel n s = .ok s' ∧ s'.IsList (insertAlarm s.data n l) ∧
      Relinked (n :: l) s s' := by
  rw [rootInsert]
  cases l with
  | nil =>
    have hroot : s.root = none := h.root_eq
    rw [if_pos hroot]
    refine ⟨_, rfl, ⟨⟨rfl, ?_⟩, ⟨?_, trivial⟩⟩, ?_⟩
    · simp
    · simp
    · exact ((relinked_setRoot _).trans (relinked_setNext (by simp) _)).trans
        (relinked_setPrev (by simp) _)
  | cons x l =>
    rw [if_neg (by simp [h.root_eq])]
    have h' : s.IsList ([] ++ x :: l) := h
    exact rootInsertLoop_spec h' hn (by simp) hfuel

/-! ### `alarm_at` -/

lemma countLoop_spec {fuel : ℕ} {p : Option Ptr} (h : IsChain s.next p l)
    (hfuel : l.length < fuel) : countLoop fuel p s = .ok l.length := by
  induction l generalizing fuel p with
  | nil =>
    obtain ⟨fuel, rfl⟩ := Nat.exists_eq_add_one_of_ne_zero (Nat.ne_zero_of_lt hfuel)
    obtain rfl : p = none := h
    rfl
  | cons x l ih =>
    obtain ⟨fuel, rfl⟩ := Nat.exists_eq_add_one_of_ne_zero (Nat.ne_zero_of_lt hfuel)
    obtain rfl : p = some x := h.1
    have := ih h.2 (Nat.lt_of_succ_lt_succ hfuel)
    simp only [State.next] at this
    simp [countLoop, this, Except.map]

/-- Where every node is followed by another one of the same set the walk does not end. -/
lemma countLoop_closed (S : List Ptr) (hS : ∀ x ∈ S, ∃ y ∈ S, s.next x = some y) (fuel : ℕ)
    {x : Ptr} (hx : x ∈ S) : countLoop fuel (some x) s = .error .outOfFuel := by
  induction fuel generalizing x with
  | zero => rfl
  | succ fuel ih =>
    obtain ⟨y, hy, hnext⟩ := hS x hx
    simp only [State.next] at hnext
    simp [countLoop, hnext, ih hy, Except.map]

/-- The memory in which `alarm_at` calls `root_insert`. -/
def State.setAlarm (alarm : Ptr) (d : AlarmData) (s : State) : State :=
  { s with
    alarms := Function.update s.alarms alarm ⟨d, none, none⟩
    initialised := Function.update s.initialised alarm true }

section SetAlarm

variable (alarm q : Ptr) (d : AlarmData) (s : State)

@[simp] lemma State.next_setAlarm :
    (s.setAlarm alarm d).next q = if q = alarm then none else s.next q := by
  by_cases h : q = alarm
  · subst h; simp [State.next, State.setAlarm]
  · simp [State.next, State.setAlarm, h]

@[simp] lemma State.prev_setAlarm :
    (s.setAlarm alarm d).prev q = if q = alarm then none else s.prev q := by
  by_cases h : q = alarm
  · subst h; simp [State.prev, State.setAlarm]
  · simp [State.prev, State.setAlarm, h]

lemma State.data_setAlarm : (s.setAlarm alarm d).data = Function.update s.data alarm d := by
  funext q
  by_cases h : q = alarm
  · subst h; simp [State.data, State.setAlarm]
  · simp [State.data, State.setAlarm, h]

end SetAlarm

lemma alarmAt_eq (fuel : ℕ) (reference dt : U32) (cb : Option Upcall) (ud alarm : Ptr)
    (s : State) :
    alarmAt fuel reference dt cb ud alarm s =
      rootInsert fuel alarm (s.setAlarm alarm ⟨reference, dt, cb, ud⟩) >>= fun s' =>
        countLoop fuel s'.root s' >>= fun _ =>
          if s'.root = some alarm then
            .ok (s'.alarmInternalSubscribe.alarmInternalSet (s'.data alarm).reference
              (s'.data alarm).dt)
          else
            .ok s' := rfl

/-- The memory after `alarm_at` has linked the alarm and walked the list. -/
lemma alarmAt_spec {fuel : ℕ} (h : s.IsList l) (hn : alarm ∉ l) (hfuel : l.length + 1 < fuel)
    (reference dt : U32) (cb : Option Upcall) (ud : Ptr) :
    let data := Function.update s.data alarm ⟨reference, dt, cb, ud⟩
    ∃ s', s'.IsList (insertAlarm data alarm l) ∧
      Relinked (alarm :: l) (s.setAlarm alarm ⟨reference, dt, cb, ud⟩) s' ∧
      alarmAt fuel reference dt cb ud alarm s =
        if (insertAlarm data alarm l).head? = some alarm then
          .ok (s'.alarmInternalSubscribe.alarmInternalSet reference dt)
        else
          .ok s' := by
  intro data
  have h₀ : (s.setAlarm alarm ⟨reference, dt, cb, ud⟩).IsList l := by
    refine ⟨h.chain.congr ?_, h.back.congr ?_⟩
    · intro x hx
      simp [ne_of_mem_of_not_mem hx hn]
    · intro x hx
      simp [ne_of_mem_of_not_mem hx hn]
  obtain ⟨s', hrun, hlist, hrel⟩ := rootInsert_spec h₀ hn (Nat.lt_of_succ_lt hfuel)
  rw [State.data_setAlarm] at hlist
  have hcount : countLoop fuel s'.root s' = .ok _ :=
    countLoop_spec hlist.chain (by simpa using hfuel)
  have hdata : s'.data alarm = ⟨reference, dt, cb, ud⟩ := by
    rw [hrel.data_eq, State.data_setAlarm, Function.update_self]
  refine ⟨s', hlist, hrel, ?_⟩
  rw [alarmAt_eq, hrun]
  simp only [bind, Except.bind, hcount, hdata]
  rw [hlist.root_eq]

/-- The new alarm goes before itself if the loop meets it in the list. -/
lemma insertsBefore_self (d : AlarmData) : insertsBefore d d = true := by
  simp [insertsBefore, withinRange]

/-- Inserting an alarm that the loop will meet as the last node makes the list cyclic. -/
lemma rootInsertLoop_self (fuel : ℕ) (h : IsChain s.next s.root (l₁ ++ (l₂ ++ [n]))) :
    rootInsertLoop n fuel (.after (lastOr none l₁)) (lastOr none l₁) s = .error .outOfFuel ∨
    ∃ s', rootInsertLoop n fuel (.after (lastOr none l₁)) (lastOr none l₁) s = .ok s' ∧
      (∃ x ∈ l₁ ++ (l₂ ++ [n]), s'.root = some x) ∧
      ∀ x ∈ l₁ ++ (l₂ ++ [n]), ∃ y ∈ l₁ ++ (l₂ ++ [n]), s'.next x = some y := by
  induction fuel generalizing l₁ l₂ with
  | zero => exact Or.inl rfl
  | succ fuel ih =>
    have hload := Slot.load_after h
    have hdata : ∀ p, (s.alarms p).toAlarmData = s.data p := fun _ => rfl
    -- `x` is the alarm at the cursor
    obtain ⟨x, r, hxr⟩ : ∃ x r, l₂ ++ [n] = x :: r := by cases l₂ <;> simp
    rw [hxr, List.head?_cons] at hload
    simp only [rootInsertLoop, hload, hdata]
    by_cases hbefore : insertsBefore (s.data n) (s.data x)
    · right
      simp only [hbefore, if_true]
      refine ⟨_, rfl, ?_, ?_⟩
      · simp only [root_setPrev, root_setNext, Slot.root_store]
        split_ifs with hnone
        · exact ⟨n, by simp, rfl⟩
        · have hroot := h.head_eq
          cases hl : l₁ ++ (l₂ ++ [n]) with
          | nil => simp at hl
          | cons y t => exact ⟨y, List.mem_cons_self, by rw [hroot, hl, List.head?_cons]⟩
      · intro q hq
        simp only [next_setPrev, next_setNext, Slot.next_store]
        split_ifs with hqn hlast
        · exact ⟨x, by rw [hxr]; simp, rfl⟩
        · exact ⟨n, by simp, rfl⟩
        · have hq' : q ∈ l₁ ++ l₂ := by
            simp only [List.mem_append, List.mem_singleton, hqn, or_false] at hq
            exact List.mem_append.mpr hq
          obtain ⟨a, b, hab⟩ := List.append_of_mem hq'
          have hnext : s.next q = (b ++ [n]).head? := by
            have h' : IsChain s.next s.root (a ++ q :: (b ++ [n])) := by
              rw [← List.append_assoc, hab] at h
              simpa using h
            exact h'.next_eq
          cases b with
          | nil => exact ⟨n, by simp, by simpa using hnext⟩
          | cons y b =>
            refine ⟨y, ?_, by simpa using hnext⟩
            have : y ∈ l₁ ++ l₂ := by rw [hab]; simp
            rw [← List.append_assoc]
            exact List.mem_append_left _ this
    · -- the cursor is not at `n` yet
      simp only [hbefore]
      cases l₂ with
      | nil =>
        obtain ⟨rfl, rfl⟩ : n = x ∧ r = [] := by simpa [eq_comm] using hxr
        exact absurd (insertsBefore_self _) hbefore
      | cons y l₂ =>
        obtain ⟨rfl, rfl⟩ : y = x ∧ l₂ ++ [n] = r := by simpa using hxr
        have h' : IsChain s.next s.root ((l₁ ++ [y]) ++ (l₂ ++ [n])) := by simpa using h
        have ih := ih h'
        rw [lastOr_append_singleton] at ih
        simpa [Slot.after] using ih

/-- `alarm_at` on an alarm that is linked never returns. -/
lemma alarmAt_linked (fuel : ℕ) (h : s.IsList l) (hn : alarm ∈ l) (reference dt : U32)
    (cb : Option Upcall) (ud : Ptr) :
    alarmAt fuel reference dt cb ud alarm s = .error .outOfFuel := by
  obtain ⟨l₁, l₂, rfl⟩ := List.append_of_mem hn
  set s₀ := s.setAlarm alarm ⟨reference, dt, cb, ud⟩ with hs₀
  have hdisj := (List.nodup_append.mp h.nodup).2.2
  -- the alarms after it are cut off, the ones before it still lead to it
  have hchain : IsChain s₀.next s₀.root (l₁ ++ [alarm]) := by
    have : IsChain s₀.next (if l₁ = [] then [alarm].head? else s.root) (l₁ ++ [alarm]) :=
      IsChain.splice h.chain h.nodup
      (fun x hx _ => by simp [hs₀, hdisj x hx alarm List.mem_cons_self])
      (fun x hx => ?_) ⟨rfl, by simp [hs₀]⟩
    · have hroot : (if l₁ = [] then [alarm].head? else s.root) = s₀.root := by
        split_ifs with hnil
        · subst hnil
          exact h.root_eq.symm
        · rfl
      rwa [hroot] at this
    · obtain ⟨a, rfl⟩ : ∃ a, l₁ = a ++ [x] := by
        rcases List.eq_nil_or_concat l₁ with rfl | ⟨a, y, rfl⟩
        · cases hx
        · rw [List.concat_eq_append, lastOr_append_singleton, Option.some.injEq] at hx
          exact ⟨a, by rw [List.concat_eq_append, hx]⟩
      have hne := hdisj x (by simp) alarm List.mem_cons_self
      rw [State.next_setAlarm, if_neg hne]
      have h' : IsChain s.next s.root (a ++ x :: (alarm :: l₂)) := by simpa using h.chain
      exact h'.next_eq
  have hroot : s₀.root ≠ none := by
    rw [hchain.head_eq]
    cases l₁ <;> simp
  rw [alarmAt_eq, rootInsert, if_neg hroot]
  have hchain' : IsChain s₀.next s₀.root ([] ++ (l₁ ++ [alarm])) := hchain
  rcases rootInsertLoop_self fuel hchain' with herr | ⟨s', hok, ⟨x, hx, hr⟩, hS⟩
  · simp only [lastOr_nil, Slot.after] at herr
    rw [herr]
    rfl
  · simp only [lastOr_nil, Slot.after] at hok
    rw [hok]
    simp only [bind, Except.bind, hr, countLoop_closed _ hS fuel hx]

/-! ### `root_pop` and `alarm_cancel` -/

lemma rootPop_spec (h : s.IsList (n :: l)) :
    (rootPop s).IsList l ∧ Relinked (n :: l) s (rootPop s) ∧
      (rootPop s).next n = none ∧ (rootPop s).prev n = none := by
  have hroot : s.root = some n := h.chain.1
  have hnext : (s.alarms n).next = l.head? := h.chain.2.head_eq
  have hprev : s.prev n = none := h.back.1
  have hn : n ∉ l := (List.nodup_cons.mp h.nodup).1
  have hhead : l.head? ≠ some n := fun hc => hn (List.mem_of_mem_head? hc)
  simp only [rootPop, hroot, hnext]
  refine ⟨⟨?_, ?_⟩, ?_, by simp, by simp [hhead, hprev]⟩
  · simp only [root_setNext, root_setPrevOf, root_setRoot]
    have h' : IsChain s.next s.root ([] ++ n :: l) := h.chain
    apply h'.remove
    intro q hq
    simp [hq]
  · have h' : IsBackChain s.prev none ([] ++ n :: l) := h.back
    apply h'.remove h.nodup
    intro q _
    simp
  · refine ((relinked_setRoot _).trans (relinked_setPrevOf (?_) _)).trans
      (relinked_setNext (by simp) _)
    intro q hq
    exact List.mem_cons_of_mem _ (List.mem_of_mem_head? hq)

/-- What the kernel is told when `r` follows a cancelled head. -/
def State.rearm (s : State) (r : Option Ptr) : Option (U32 × U32) :=
  (r.map fun r => ((s.data r).reference, (s.data r).dt)) <|> s.alarmSet

def State.withAlarmSet (v : Option (U32 × U32)) (s : State) : State := { s with alarmSet := v }

lemma State.Relinked.withAlarmSet {L : List Ptr} {s s' : State} (h : Relinked L s s')
    (v : Option (U32 × U32)) : Relinked L (s.withAlarmSet v) (s'.withAlarmSet v) := by
  refine ⟨?_, h.2⟩
  conv_lhs => rw [h.1]
  rfl

section WithAlarmSet

variable (v : Option (U32 × U32)) (s : State) (q : Ptr)

@[simp] lemma next_withAlarmSet : (s.withAlarmSet v).next q = s.next q := rfl

@[simp] lemma prev_withAlarmSet : (s.withAlarmSet v).prev q = s.prev q := rfl

@[simp] lemma root_withAlarmSet : (s.withAlarmSet v).root = s.root := rfl

end WithAlarmSet

lemma advanceRoot_eq (n : Ptr) (s : State) :
    advanceRoot n s =
      (s.setRoot (if s.root = some n then s.next n else s.root)).withAlarmSet
        (if s.root = some n then s.rearm (s.next n) else s.alarmSet) := by
  rw [advanceRoot]
  split_ifs
  · have hnext : (s.alarms n).next = s.next n := rfl
    simp only [root_setRoot, hnext]
    cases s.next n <;> rfl
  · rfl

lemma unlink_linked (h : s.IsList (l₁ ++ n :: l₂)) :
    (unlink n s).IsList (l₁ ++ l₂) ∧
      Relinked (l₁ ++ n :: l₂)
        (s.withAlarmSet (if s.root = some n then s.rearm l₂.head? else s.alarmSet)) (unlink n s) ∧
      (unlink n s).next n = none ∧ (unlink n s).prev n = none := by
  have hnext : s.next n = l₂.head? := h.chain.next_eq
  have hprev : s.prev n = lastOr none l₁ := h.back.prev_eq
  obtain ⟨_, hnd₂, hdisj⟩ := List.nodup_append.mp h.nodup
  have hlast : lastOr none l₁ ≠ some n := by
    intro hl
    rcases lastOr_eq_some_mem hl with hc | hmem
    · cases hc
    · exact hdisj n hmem n List.mem_cons_self rfl
  have hhead : l₂.head? ≠ some n := fun hc =>
    (List.nodup_cons.mp hnd₂).1 (List.mem_of_mem_head? hc)
  have hroot : s.root = some n ↔ l₁ = [] := by
    rw [h.root_eq]
    cases l₁ with
    | nil => simp
    | cons x l₁ => simpa using hdisj x (by simp) n List.mem_cons_self
  -- the two links around `n`, then `root`, then the links of `n`
  set s₁ := s.setNextOf (lastOr none l₁) l₂.head? with hs₁
  set s₂ := s₁.setPrevOf l₂.head? (lastOr none l₁) with hs₂
  have hunlink : unlink n s = ((advanceRoot n s₂).setPrev n none).setNext n none := by
    have hn₁ : s₁.next n = l₂.head? := by rw [hs₁, next_setNextOf, if_neg hlast, hnext]
    have hp₁ : s₁.prev n = lastOr none l₁ := by rw [hs₁, prev_setNextOf, hprev]
    simp only [State.next, State.prev] at hnext hprev hn₁ hp₁
    simp only [unlink, hnext, hprev, ← hs₁, hn₁, hp₁, ← hs₂]
  have hn₂ : s₂.next n = l₂.head? := by simp [hs₂, hs₁, hlast, hnext]
  have hr₂ : s₂.root = s.root := by simp [hs₂, hs₁]
  have hrel₂ : Relinked (l₁ ++ n :: l₂) s s₂ := by
    refine (relinked_setNextOf (?_) _).trans (relinked_setPrevOf (?_) _)
    · intro q hq
      rcases lastOr_eq_some_mem hq with hc | hmem
      · cases hc
      · exact List.mem_append_left _ hmem
    · intro q hq
      exact List.mem_append_right _ (List.mem_cons_of_mem _ (List.mem_of_mem_head? hq))
  have hv₂ : s₂.rearm l₂.head? = s.rearm l₂.head? ∧ s₂.alarmSet = s.alarmSet := by
    rw [hrel₂.1]
    exact ⟨rfl, rfl⟩
  rw [hunlink, advanceRoot_eq, hr₂, hn₂, hv₂.1, hv₂.2]
  refine ⟨⟨?_, ?_⟩, ?_, by simp, by simp⟩
  · have hr : (if s.root = some n then l₂.head? else s.root)
        = if l₁ = [] then l₂.head? else s.root := by simp only [hroot]
    simp only [root_setNext, root_setPrev, root_withAlarmSet, root_setRoot, hr]
    apply h.chain.remove
    intro q hq
    simp [hq, hs₂, hs₁]
  · apply h.back.remove h.nodup
    intro q hq
    simp [hq, hs₂, hs₁]
  · exact ((hrel₂.trans (relinked_setRoot _)).withAlarmSet _).trans
      ((relinked_setPrev (by simp) _).trans (relinked_setNext (by simp) _))

/-- Cancelling an alarm whose links are null and which is not linked changes nothing. -/
lemma unlink_not_linked (h : s.IsList l) (hn : n ∉ l) (hnext : s.next n = none)
    (hprev : s.prev n = none) : unlink n s = s := by
  have hroot : s.root ≠ some n := by
    rw [h.root_eq]
    exact fun hc => hn (List.mem_of_mem_head? hc)
  have hunlink : unlink n s = (s.setPrev n none).setNext n none := by
    simp only [State.next, State.prev] at hnext hprev
    simp only [unlink, hnext, hprev, setNextOf, setPrevOf, advanceRoot, if_neg hroot]
  have hrel : Relinked [n] s ((s.setPrev n none).setNext n none) :=
    (relinked_setPrev (by simp) _).trans (relinked_setNext (by simp) _)
  rw [hunlink, hrel.1]
  have hnext' : ((s.setPrev n none).setNext n none).next = s.next := by
    funext q
    simp only [next_setNext, next_setPrev]
    split_ifs with hq
    · rw [hq, hnext]
    · rfl
  have hprev' : ((s.setPrev n none).setNext n none).prev = s.prev := by
    funext q
    simp only [prev_setNext, prev_setPrev]
    split_ifs with hq
    · rw [hq, hprev]
    · rfl
  rw [hnext', hprev']
  rfl

end Alarm
