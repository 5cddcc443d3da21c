import Libtock.Alarm.Linked

/-!
# The alarm code refines the schedule

`Represents s a`: the memory `s` stores the schedule `a`. Every function of `alarm_timer.c`, run
on a memory that stores a schedule and given enough fuel, ends in a memory that stores what the
operation of the schedule gives, with the same result; where the operation has no result the
function does not return.
-/

namespace Alarm

open Core Tock State

structure Represents (s : State) (a : Schedule) : Prop where
  list : s.IsList a.linked
  data : s.data = a.data
  timers : s.timers = a.timers
  valid : s.queue.Valid
  waiting : s.queue.waiting = a.tasks
  frequency : s.frequency = a.frequency
  subscribed : s.subscribed = a.subscribed
  alarmSet : s.alarmSet = a.alarmSet
  flags : s.flags = a.flags
  initialised : s.initialised = a.initialised
  linked_initialised : ∀ p ∈ a.linked, a.initialised p = true
  links_null : ∀ p, a.initialised p = true → p ∉ a.linked → s.next p = none ∧ s.prev p = none

/-- Two results are the same fault, or values related by `R`. -/
def Agree {α β : Type*} (R : α → β → Prop) : Result α → Result β → Prop
  | .ok x, .ok y => R x y
  | .error e, .error e' => e = e'
  | _, _ => False

variable {s s' : State} {a : Schedule} {fuel : ℕ}

lemma Agree.exists_right {α β : Type*} {R : α → β → Prop} {x : Result α} {y : Result β} {v : α}
    (h : Agree R x y) (hx : x = .ok v) : ∃ w, y = .ok w ∧ R v w := by
  subst hx
  cases y with
  | error e => cases h
  | ok w => exact ⟨w, rfl, h⟩

lemma Agree.exists_left {α β : Type*} {R : α → β → Prop} {x : Result α} {y : Result β} {w : β}
    (h : Agree R x y) (hy : y = .ok w) : ∃ v, x = .ok v ∧ R v w := by
  subst hy
  cases x with
  | error e => cases h
  | ok v => exact ⟨v, rfl, h⟩

lemma Agree.map {α β γ δ : Type*} {R : α → β → Prop} {Q : γ → δ → Prop} {x : Result α}
    {y : Result β} (h : Agree R x y) {f : α → γ} {g : β → δ}
    (hfg : ∀ v w, R v w → Q (f v) (g w)) : Agree Q (x.map f) (y.map g) := by
  cases x <;> cases y
  · exact h
  · exact h.elim
  · exact h.elim
  · exact hfg _ _ h

/-! ### The list -/

/-- Other links, and other data of alarms that are not on the list, store another list. -/
lemma Represents.relinked {t : State} {L l : List Ptr} (h : Represents s a)
    (hrel : Relinked L t s')
    (ht : t = { s with
      alarms := t.alarms
      alarmSet := t.alarmSet
      initialised := t.initialised })
    (hfar : ∀ p ∉ L, p ∉ a.linked ∧ t.next p = s.next p ∧ t.prev p = s.prev p ∧
      t.initialised p = s.initialised p)
    (hlist : s'.IsList l) (hlinked : ∀ p ∈ l, t.initialised p = true)
    (hnear : ∀ p ∈ L, p ∉ l → s'.next p = none ∧ s'.prev p = none) :
    Represents s' { a with
      data := t.data
      linked := l
      alarmSet := t.alarmSet
      initialised := t.initialised } := by
  have hs' : s' = { s with
      root := s'.root
      alarms := s'.alarms
      alarmSet := t.alarmSet
      initialised := t.initialised } := by
    rw [hrel.1, ht]
    rfl
  constructor
  · exact hlist
  · exact funext hrel.data_eq
  · rw [hs']; exact h.timers
  · rw [hs']; exact h.valid
  · rw [hs']; exact h.waiting
  · rw [hs']; exact h.frequency
  · rw [hs']; exact h.subscribed
  · rw [hs']
  · rw [hs']; exact h.flags
  · rw [hs']
  · exact hlinked
  · intro p hi hp
    by_cases hpL : p ∈ L
    · exact hnear p hpL hp
    · obtain ⟨hpl, hnext, hprev, hinit⟩ := hfar p hpL
      obtain ⟨hnext', hprev'⟩ := hrel.2 p hpL
      have hip : a.initialised p = true := by rw [← h.initialised, ← hinit]; exact hi
      rw [hnext', hprev', hnext, hprev]
      exact h.links_null p hip hpl

lemma alarmAt_agree (h : Represents s a) (hfuel : a.linked.length + 1 < fuel)
    (reference dt : U32) (cb : Option Upcall) (ud alarm : Ptr) :
    Agree Represents (alarmAt fuel reference dt cb ud alarm s)
      (a.alarmAt reference dt cb ud alarm) := by
  rw [Schedule.alarmAt]
  by_cases hmem : alarm ∈ a.linked
  · rw [if_pos hmem, alarmAt_linked fuel h.list hmem]
    rfl
  · obtain ⟨s', hlist, hrel, hrun⟩ := alarmAt_spec h.list hmem hfuel reference dt cb ud
    have hdata := data_setAlarm alarm ⟨reference, dt, cb, ud⟩ s
    have hset : (s.setAlarm alarm ⟨reference, dt, cb, ud⟩).alarmSet = a.alarmSet := h.alarmSet
    have hinit : (s.setAlarm alarm ⟨reference, dt, cb, ud⟩).initialised =
        Function.update a.initialised alarm true := by
      rw [← h.initialised]
      rfl
    have hfar : ∀ p ∉ alarm :: a.linked, p ∉ a.linked ∧
        (s.setAlarm alarm ⟨reference, dt, cb, ud⟩).next p = s.next p ∧
        (s.setAlarm alarm ⟨reference, dt, cb, ud⟩).prev p = s.prev p ∧
        (s.setAlarm alarm ⟨reference, dt, cb, ud⟩).initialised p = s.initialised p := by
      intro p hp
      obtain ⟨hpa, hpl⟩ : p ≠ alarm ∧ p ∉ a.linked := by simpa using hp
      rw [next_setAlarm, prev_setAlarm, if_neg hpa, if_neg hpa]
      exact ⟨hpl, rfl, rfl, Function.update_of_ne hpa _ _⟩
    have hlinked : ∀ p ∈ insertAlarm (Function.update s.data alarm ⟨reference, dt, cb, ud⟩) alarm
        a.linked, (s.setAlarm alarm ⟨reference, dt, cb, ud⟩).initialised p = true := by
      intro p hp
      rw [hinit]
      rcases mem_insertAlarm.mp hp with rfl | hp
      · exact Function.update_self _ _ _
      · rw [Function.update_of_ne (ne_of_mem_of_not_mem hp hmem)]
        exact h.linked_initialised p hp
    -- the memory without the call of `alarm_internal_set`
    have hrep := h.relinked hrel rfl hfar hlist hlinked fun p hp hpl =>
      absurd (mem_insertAlarm.mpr (List.mem_cons.mp hp)) hpl
    rw [hdata, hset, hinit] at hrep
    rw [hrun, if_neg hmem, ← h.data]
    dsimp only
    split_ifs with hhead
    · exact { hrep with
        list := ⟨hrep.list.chain, hrep.list.back⟩
        subscribed := rfl
        alarmSet := rfl }
    · exact hrep

lemma alarmCancel_agree (h : Represents s a) (alarm : Ptr) :
    Agree Represents (alarmCancel alarm s) (a.alarmCancel alarm) := by
  unfold alarmCancel Schedule.alarmCancel
  rw [h.initialised]
  by_cases hi : a.initialised alarm = true
  · rw [if_pos hi, if_pos hi]
    by_cases hmem : alarm ∈ a.linked
    · obtain ⟨l₁, l₂, hl⟩ := List.append_of_mem hmem
      have hlist := h.list
      rw [hl] at hlist
      obtain ⟨hlist', hrel, hnext, hprev⟩ := unlink_linked hlist
      have hdisj := (List.nodup_append.mp hlist.nodup)
      have herase : a.linked.erase alarm = l₁ ++ l₂ := by
        have hn : alarm ∉ l₁ := fun hc => hdisj.2.2 alarm hc alarm (by simp) rfl
        rw [hl, List.erase_append_right _ hn, List.erase_cons_head]
      have hhead : a.linked.head? = some alarm ↔ l₁ = [] := by
        rw [hl]
        cases l₁ with
        | nil => simp
        | cons x l₁ => simpa using hdisj.2.2 x (by simp) alarm (by simp)
      have hlinked : ∀ p ∈ l₁ ++ l₂, s.initialised p = true := by
        intro p hp
        rw [h.initialised]
        apply h.linked_initialised p
        rw [hl]
        rcases List.mem_append.mp hp with hp | hp
        · exact List.mem_append_left _ hp
        · exact List.mem_append_right _ (List.mem_cons_of_mem _ hp)
      have hnear : ∀ p ∈ l₁ ++ alarm :: l₂, p ∉ l₁ ++ l₂ →
          (unlink alarm s).next p = none ∧ (unlink alarm s).prev p = none := by
        intro p hp hpl
        obtain rfl : p = alarm := by
          simp only [List.mem_append, List.mem_cons] at hp hpl
          tauto
        exact ⟨hnext, hprev⟩
      have hdata : ∀ v, (s.withAlarmSet v).data = a.data := fun _ => h.data
      have hinit : ∀ v, (s.withAlarmSet v).initialised = a.initialised := fun _ => h.initialised
      have hset : ∀ v, (s.withAlarmSet v).alarmSet = v := fun _ => rfl
      have hrep := h.relinked hrel rfl (fun p hp => ⟨by rwa [hl], rfl, rfl, rfl⟩) hlist' hlinked
        hnear
      rw [hdata, hinit, hset, h.list.root_eq] at hrep
      rw [herase]
      dsimp only
      split_ifs at hrep ⊢ with hc
      · have hl₁ := hhead.mp hc
        subst hl₁
        rw [State.rearm, h.data, h.alarmSet] at hrep
        exact hrep
      · rw [h.alarmSet] at hrep
        exact hrep
    · obtain ⟨hnext, hprev⟩ := h.links_null alarm hi hmem
      rw [unlink_not_linked h.list hmem hnext hprev, List.erase_of_not_mem hmem]
      dsimp only
      split_ifs with hc
      · exact absurd (List.mem_of_mem_head? hc) hmem
      · exact h
  · rw [if_neg hi, if_neg hi]
    rfl

lemma rootPop_represents {x : Ptr} {l : List Ptr} (h : Represents s a) (hl : a.linked = x :: l) :
    Represents (rootPop s) { a with linked := l } := by
  have hlist := h.list
  rw [hl] at hlist
  obtain ⟨hlist', hrel, hnext, hprev⟩ := rootPop_spec hlist
  have hlinked : ∀ p ∈ l, s.initialised p = true := by
    intro p hp
    rw [h.initialised]
    apply h.linked_initialised p
    rw [hl]
    exact List.mem_cons_of_mem x hp
  have hnear : ∀ p ∈ x :: l, p ∉ l → (rootPop s).next p = none ∧ (rootPop s).prev p = none := by
    intro p hp hpl
    obtain rfl : p = x := (List.mem_cons.mp hp).resolve_right hpl
    exact ⟨hnext, hprev⟩
  have hrep := h.relinked hrel rfl (fun p hp => ⟨by rwa [hl], rfl, rfl, rfl⟩) hlist' hlinked hnear
  rw [h.data, h.alarmSet, h.initialised] at hrep
  exact hrep

/-! ### The task queue -/

lemma enqueue_agree (h : Represents s a) (cb : Upcall) (arg0 arg1 arg2 : U32) (ud : Ptr) :
    (s.enqueue cb arg0 arg1 arg2 ud).1 = (a.enqueue cb arg0 arg1 arg2 ud).1 ∧
      Represents (s.enqueue cb arg0 arg1 arg2 ud).2 (a.enqueue cb arg0 arg1 arg2 ud).2 := by
  unfold State.enqueue Schedule.enqueue
  rw [← h.waiting]
  split_ifs with hfull
  · rw [tockEnqueue_full h.valid hfull]
    exact ⟨rfl, h⟩
  · obtain ⟨i, _, hret, hvalid, hwait⟩ := tockEnqueue_room h.valid hfull cb arg0 arg1 arg2 ud
    dsimp only
    refine ⟨?_, { h with list := ⟨h.list.chain, h.list.back⟩, valid := hvalid, waiting := hwait }⟩
    simp only [hret, decide_eq_true_eq]
    omega

lemma dequeue_agree (h : Represents s a) :
    match s.dequeue, a.dequeue with
    | some (t, s'), some (t', a') => t = t' ∧ Represents s' a'
    | none, none => True
    | _, _ => False := by
  unfold State.dequeue Schedule.dequeue
  rw [← h.waiting]
  cases hq : yieldCheckTasks s.queue with
  | none =>
    rw [(yieldCheckTasks_eq_none_iff h.valid).mp hq]
    trivial
  | some r =>
    obtain ⟨t, q⟩ := r
    obtain ⟨hvalid, hwait⟩ := yieldCheckTasks_some h.valid hq
    rw [hwait]
    exact ⟨rfl, { h with list := ⟨h.list.chain, h.list.back⟩, valid := hvalid, waiting := rfl }⟩

/-! ### `callback` -/

/-- The values of `callback`: a memory that stores the schedule, the same time and the same log. -/
def SameCallback (r : State × ℕ × List Popped) (r' : Schedule × ℕ × List Popped) : Prop :=
  Represents r.1 r'.1 ∧ r.2 = r'.2

lemma enqueue_linked (l : List Ptr) (cb : Upcall) (arg0 arg1 arg2 : U32) (ud : Ptr)
    (a : Schedule) : Schedule.enqueue cb arg0 arg1 arg2 ud { a with linked := l } =
      ((a.enqueue cb arg0 arg1 arg2 ud).1,
        { (a.enqueue cb arg0 arg1 arg2 ud).2 with linked := l }) := by
  unfold Schedule.enqueue
  split_ifs <;> rfl

lemma serve_linked (l l' : List Ptr) (t : ℕ) (adv : ℕ → ℕ) (a : Schedule) :
    Schedule.serve l t adv { a with linked := l' } = Schedule.serve l t adv a := by
  induction l generalizing t adv a with
  | nil => rfl
  | cons x l ih =>
    simp only [Schedule.serve]
    split_ifs
    · rfl
    · cases hcb : (a.data x).callback with
      | none => simp only [ih]
      | some cb =>
        simp only [enqueue_linked, ih]

lemma callback_agree (h : Represents s a) (hfuel : a.linked.length < fuel) (t : ℕ)
    (adv : ℕ → ℕ) : Agree SameCallback (callback fuel t adv s) (.ok (a.callback t adv)) := by
  rw [Schedule.callback]
  generalize hl : a.linked = l at hfuel
  induction l generalizing fuel t adv s a with
  | nil =>
    obtain ⟨fuel, rfl⟩ := Nat.exists_eq_add_one_of_ne_zero (Nat.ne_zero_of_lt hfuel)
    have hroot : s.root = none := by rw [h.list.root_eq, hl]; rfl
    simp only [callback, hroot, Schedule.serve]
    exact ⟨by rw [← hl]; exact h, rfl⟩
  | cons x l ih =>
    obtain ⟨fuel, rfl⟩ := Nat.exists_eq_add_one_of_ne_zero (Nat.ne_zero_of_lt hfuel)
    have hroot : s.root = some x := by rw [h.list.root_eq, hl]; rfl
    have hx : (s.alarms x).toAlarmData = a.data x := congrFun h.data x
    have hpop := rootPop_represents h hl
    have hx' : ((rootPop s).alarms x).toAlarmData = a.data x := congrFun hpop.data x
    simp only [callback, hroot, Schedule.serve, hx]
    split_ifs with hexp
    · have h' : Represents s { a with linked := x :: l } := by rw [← hl]; exact h
      exact ⟨{ h' with list := ⟨h'.list.chain, h'.list.back⟩, alarmSet := rfl }, rfl⟩
    · simp only [hx']
      cases hcb : (a.data x).callback with
      | none =>
        have := ih hpop (t + adv 0) (adv ∘ Nat.succ) rfl (Nat.lt_of_succ_lt_succ hfuel)
        rw [serve_linked] at this
        exact Agree.map this (g := fun r => (r.1, r.2.1, (⟨x, t + adv 0, none⟩ : Popped) :: r.2.2))
          fun r r' hr => ⟨hr.1, by simp [hr.2]⟩
      | some cb =>
        obtain ⟨hret, hrep⟩ := enqueue_agree hpop cb (alarmInternalRead (t + adv 0))
          ((a.data x).reference + (a.data x).dt) 0 (a.data x).ud
        rw [enqueue_linked] at hret hrep
        have := ih hrep (t + adv 0) (adv ∘ Nat.succ) rfl (Nat.lt_of_succ_lt_succ hfuel)
        rw [serve_linked] at this
        simp only [hret]
        exact Agree.map this (g := fun r => (r.1, r.2.1,
          (⟨x, t + adv 0, some (a.enqueue cb _ _ 0 _).1⟩ : Popped) :: r.2.2))
          fun r r' hr => ⟨hr.1, by simp [hr.2]⟩

/-! ### Timers -/

lemma timerIn_agree (h : Represents s a) (hfuel : a.linked.length + 1 < fuel) (t : ℕ) (ms : U32)
    (cb : Option Callback) (ud timer : Ptr) :
    Agree Represents (timerIn fuel t ms cb ud timer s) (a.timerIn t ms cb ud timer) := by
  unfold timerIn Schedule.timerIn
  rw [h.frequency]
  exact alarmAt_agree h hfuel _ _ _ _ _

lemma timerEvery_agree (h : Represents s a) (hfuel : a.linked.length + 1 < fuel) (t : ℕ) (ms : U32)
    (cb : Callback) (ud repeating : Ptr) :
    Agree Represents (timerEvery fuel t ms cb ud repeating s)
      (a.timerEvery t ms cb ud repeating) := by
  unfold timerEvery Schedule.timerEvery
  rw [h.frequency, h.timers]
  have h' : Represents
      { s with
        frequency := a.frequency
        timers := Function.update a.timers repeating ⟨ticks ms a.frequency, cb, ud⟩ }
      { a with timers := Function.update a.timers repeating ⟨ticks ms a.frequency, cb, ud⟩ } :=
    { h with list := ⟨h.list.chain, h.list.back⟩, timers := rfl, frequency := rfl }
  exact alarmAt_agree h' hfuel _ _ _ _ _

lemma repeatingUpcall_agree (h : Represents s a) (hfuel : a.linked.length + 1 < fuel) (now : U32)
    (ud : Ptr) :
    Agree (fun r r' => Represents r.1 r'.1 ∧ r.2 = r'.2) (repeatingUpcall fuel now ud s)
      (a.repeatingUpcall now ud) := by
  unfold repeatingUpcall Schedule.repeatingUpcall
  have hd : (s.alarms ud).toAlarmData = a.data ud := congrFun h.data ud
  have := alarmAt_agree h hfuel ((a.data ud).reference + (a.timers ud).interval)
    (a.timers ud).interval (some .repeatingUpcall) ud ud
  dsimp only
  rw [hd, h.timers]
  cases hc : alarmAt fuel ((a.data ud).reference + (a.timers ud).interval) (a.timers ud).interval
    (some .repeatingUpcall) ud ud s with
  | error e =>
    rw [hc] at this
    cases ha : a.alarmAt ((a.data ud).reference + (a.timers ud).interval) (a.timers ud).interval
      (some .repeatingUpcall) ud ud with
    | error e' => rw [ha] at this; exact this
    | ok a' => rw [ha] at this; exact this.elim
  | ok s' =>
    obtain ⟨a', ha, hrep⟩ := this.exists_right hc
    rw [ha]
    have ht : a'.timers = a.timers := by
      rw [Schedule.alarmAt] at ha
      split_ifs at ha
      dsimp only at ha
      split_ifs at ha <;> · cases ha; rfl
    refine ⟨hrep, ?_⟩
    simp only [hrep.timers, ht]

lemma invoke_represents (h : Represents s a) (cb : Callback) (ud : Ptr) :
    Represents (s.invoke cb ud) (a.invoke cb ud) := by
  cases cb with
  | app f => exact h
  | yieldForTimeoutUpcall =>
    refine { h with list := ⟨h.list.chain, h.list.back⟩, flags := ?_ }
    simp only [State.invoke, Schedule.invoke, h.flags]

end Alarm
