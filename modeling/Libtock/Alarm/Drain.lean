import Libtock.Alarm.Effect

/-!
# Draining the task queue

Yields start the waiting tasks one after the other. They get to the end of the queue exactly when
no timer would be armed twice: none of which `repeating_upcall` waits is linked, and of none it
waits more than once.
-/

namespace Alarm

open Core Tock Schedule

/-- The tasks started, each with the alarm it comes from, as a trace says. -/
def startedOf (tr : List Event) : List (TockTask Upcall × Option Ptr) :=
  tr.filterMap fun
    | .started task origin => some (task, origin)
    | _ => none

@[simp] lemma startedOf_append (tr es : List Event) :
    startedOf (tr ++ es) = startedOf tr ++ startedOf es := List.filterMap_append

@[simp] lemma startedOf_map (log : List Popped) : startedOf (log.map .popped) = [] := by
  induction log with
  | nil => rfl
  | cons p log ih => exact ih

namespace World

/-- The waiting tasks, each with the alarm it comes from. -/
def pending (w : World State) : List (TockTask Upcall × Option Ptr) :=
  w.st.queue.waiting.zip w.origin

/-- Yields start all tasks that wait, each once and in their order. Then nothing waits, and the
timers whose `repeating_upcall` waited are armed again. -/
def Drains (w : World State) : Prop :=
  ∃ tr w', Run (Guarded Step fun _ a => a = .yield) w tr w' ∧ startedOf tr = w.pending ∧
    w'.st.queue.waiting = [] ∧ ∀ x ∈ rearming w.st.queue.waiting, Linked w'.st x

variable {w : World State} {v v' : World Schedule} {a : Action} {tr es : List Event}

lemma Stores.pending_eq (hst : Stores w v) : w.pending = v.st.tasks.zip v.origin := by
  rw [pending, hst.st.waiting, hst.origin]

/-! ### Tasks start in their order -/

/-- A step starts the oldest task and queues new ones behind the others. -/
lemma Effect.pending_eq (hv : Sound v) (heff : Effect v a v' es) :
    ∃ new, v.st.tasks.zip v.origin ++ new = startedOf es ++ v'.st.tasks.zip v'.origin := by
  have hlen := hv.origin.length_eq
  cases heff with
  | @upcall _ _ _ _ queued hes hqueued ht hle hset =>
    refine ⟨(queued.map Prod.fst).zip (queued.map Prod.snd), ?_⟩
    rw [startedOf_map, List.nil_append, List.zip_append hlen]
  | @enqueue cb arg0 arg1 arg2 ud hroom =>
    refine ⟨[(⟨.user cb, arg0, arg1, arg2, ud⟩, none)], ?_⟩
    rw [List.zip_append hlen]
    rfl
  | user flags htasks horigin hcb => exact ⟨[], by simp [startedOf, htasks, horigin]⟩
  | repeating flags htasks horigin hcb hx hr hexp =>
    exact ⟨[], by simp [startedOf, htasks, horigin]⟩
  | _ => exact ⟨[], by simp [startedOf]⟩

/-- A yield starts the oldest task, if any waits, and leaves the others. -/
lemma Effect.of_yield (hv : Sound v) (heff : Effect v .yield v' es) :
    startedOf es = (v.st.tasks.zip v.origin).take 1 ∧ v'.st.tasks = v.st.tasks.tail ∧
      v'.origin = v.origin.tail := by
  cases heff with
  | quiet flags hact ht =>
    rcases hact with ⟨_, h⟩ | ⟨_, _, h⟩ | ⟨-, htasks⟩
    · cases h
    · cases h
    · have horigin := hv.origin
      rw [htasks] at horigin
      simp [startedOf, htasks, List.forall₂_nil_left_iff.mp horigin]
  | oneShot hact hx => rcases hact with h | ⟨⟨_, h, _⟩, _⟩ <;> cases h
  | cancel hact hi => cases hact
  | user flags htasks horigin hcb => simp [startedOf, htasks, horigin]
  | repeating flags htasks horigin hcb hx hr hexp => simp [startedOf, htasks, horigin]

/-- Along a run the tasks start in the order in which they were queued, and none gets lost. -/
lemma Sound.pending_of_run {Q : World Schedule → Action → Prop} (hv : Sound v)
    (hrun : Run (Guarded Plan Q) v tr v') :
    ∃ new, v.st.tasks.zip v.origin ++ new = startedOf tr ++ v'.st.tasks.zip v'.origin := by
  refine (hv.run (fun tr v' => ∃ new,
    v.st.tasks.zip v.origin ++ new = startedOf tr ++ v'.st.tasks.zip v'.origin) ?_
    ⟨[], by simp [startedOf]⟩ hrun).2
  rintro tr v₁ a v₂ es hv₁ ⟨new, hnew⟩ - heff
  obtain ⟨new', hnew'⟩ := heff.pending_eq hv₁
  refine ⟨new ++ new', ?_⟩
  rw [← List.append_assoc, hnew, List.append_assoc, hnew', startedOf_append, List.append_assoc]

/-! ### Where the timers are -/

/-- A yield at most moves a timer from the queue to the list. -/
lemma Effect.perm_of_yield (heff : Effect v .yield v' es) :
    (v'.st.linked ++ rearming v'.st.tasks).Perm (v.st.linked ++ rearming v.st.tasks) := by
  cases heff with
  | quiet flags hact ht => exact .refl _
  | oneShot hact hx => rcases hact with h | ⟨⟨_, h, _⟩, _⟩ <;> cases h
  | cancel hact hi => cases hact
  | user flags htasks horigin hcb => rw [htasks, rearming_cons_user hcb]
  | @repeating task tasks _ _ _ flags htasks horigin hcb hx hr hexp =>
    rw [htasks, rearming_cons_repeating hcb]
    exact ((perm_link _ _ _).append_right _).trans List.perm_middle.symm

lemma Sound.perm_of_yields (hv : Sound v)
    (hrun : Run (Guarded Plan fun _ a => a = .yield) v tr v') : Sound v' ∧
      (v'.st.linked ++ rearming v'.st.tasks).Perm (v.st.linked ++ rearming v.st.tasks) := by
  refine hv.run (fun _ v' =>
    (v'.st.linked ++ rearming v'.st.tasks).Perm (v.st.linked ++ rearming v.st.tasks)) ?_
    (.refl _) hrun
  rintro tr v₁ a v₂ es - hperm rfl heff
  exact heff.perm_of_yield.trans hperm

/-- If no timer is in two places, yields empty the queue: each finds the timer that it would arm
not linked. -/
lemma Sound.exists_drained {n : ℕ} (hv : Sound v) (hn : v.st.tasks.length = n)
    (hnodup : (v.st.linked ++ rearming v.st.tasks).Nodup) :
    ∃ tr v', Run (Guarded Plan fun _ a => a = .yield) v tr v' ∧
      startedOf tr = v.st.tasks.zip v.origin ∧ v'.st.tasks = [] := by
  induction n generalizing v with
  | zero =>
    have hempty := List.eq_nil_of_length_eq_zero hn
    exact ⟨[], v, .nil, by rw [hempty]; rfl, hempty⟩
  | succ n ih =>
    have harms : ∀ x, arms v.st.tasks .yield = some x → x ∉ v.st.linked := by
      intro x hx hl
      obtain ⟨k, hk, hkx⟩ := Option.bind_eq_some_iff.mp hx
      have hmem : x ∈ rearming v.st.tasks :=
        List.mem_filterMap.mpr ⟨k, List.mem_of_mem_head? hk, hkx⟩
      exact (List.nodup_append.mp hnodup).2.2 x hl x hmem rfl
    obtain ⟨v₁, es, hplan⟩ := exists_plan harms fun x hx => by cases hx
    have heff := hplan.effect hv
    obtain ⟨hstarted, htasks, horigin⟩ := heff.of_yield hv
    obtain ⟨tr, v', hrun, htr, hempty⟩ := ih (heff.sound hv) (by simp [htasks, hn])
      (heff.perm_of_yield.nodup_iff.mpr hnodup)
    refine ⟨es ++ tr, v', (Run.single ⟨rfl, hplan⟩).trans hrun, ?_, hempty⟩
    rw [startedOf_append, hstarted, htr, htasks, horigin]
    cases v.st.tasks with
    | nil => rfl
    | cons task tasks => cases v.origin <;> simp

/-- The queue can be drained exactly if no timer is in two places. -/
lemma Stores.drains_iff (hst : Stores w v) (hv : Sound v) :
    Drains w ↔ (v.st.linked ++ rearming v.st.tasks).Nodup := by
  constructor
  · rintro ⟨tr, w', hrun, -, hempty, -⟩
    obtain ⟨v', hst', hplan⟩ := World.Run.plan (Q := fun _ a => a = .yield)
      (fun _ _ _ _ h => h) hst hrun
    obtain ⟨hv', hperm⟩ := hv.perm_of_yields hplan
    rw [← hst'.st.waiting, hempty, rearming_nil, List.append_nil] at hperm
    exact hperm.nodup_iff.mp hv'.nodup
  · intro hnodup
    obtain ⟨tr, v', hplan, htr, hempty⟩ := hv.exists_drained rfl hnodup
    obtain ⟨w', hst', hrun⟩ := World.Run.step (P := fun _ a => a = .yield)
      (fun _ _ _ _ h => h) hst hplan
    refine ⟨tr, w', hrun, by rw [htr, hst.pending_eq], by rw [hst'.st.waiting, hempty], ?_⟩
    intro x hx
    rw [hst.st.waiting] at hx
    rw [linked_iff hst']
    have hperm := (hv.perm_of_yields hplan).2
    rw [hempty, rearming_nil, List.append_nil] at hperm
    exact hperm.mem_iff.mpr (List.mem_append_right _ hx)

end World

end Alarm
