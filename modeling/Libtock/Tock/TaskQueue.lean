import Mathlib.Data.BitVec
import Libtock.Core.Ring

/-!
# The deferred-task queue of `tock.c`

`task_queue` is a ring of `TASK_QUEUE_SIZE` slots. The type `F` stands for function pointers;
the `int` arguments of an upcall are kept as their 32-bit patterns.
-/

namespace Tock

/-- `uint32_t`, and the bit pattern of an `int`. -/
abbrev U32 := BitVec 32

/-- Addresses. A pointer that may be `NULL` is an `Option Ptr`. -/
abbrev Ptr := ℕ

/-- `tock_task_t` -/
structure TockTask (F : Type*) where
  cb : F
  arg0 : U32
  arg1 : U32
  arg2 : U32
  ud : Ptr
  deriving DecidableEq

def taskQueueSize : ℕ := 16

/-- The static variables `task_queue`, `task_cur` and `task_last`. -/
structure TaskQueue (F : Type*) where
  taskQueue : ℕ → TockTask F
  taskCur : ℕ
  taskLast : ℕ

variable {F : Type*}

/-- The queue at program start: both indices are zero, whatever the slots hold. -/
def TaskQueue.initial (slots : ℕ → TockTask F) : TaskQueue F := ⟨slots, 0, 0⟩

def tockEnqueue (cb : F) (arg0 arg1 arg2 : U32) (ud : Ptr) (q : TaskQueue F) :
    ℤ × TaskQueue F :=
  let nextTaskLast := (q.taskLast + 1) % taskQueueSize
  if nextTaskLast = q.taskCur then
    (-1, q)
  else
    (nextTaskLast,
      { q with
        taskQueue := Function.update q.taskQueue q.taskLast ⟨cb, arg0, arg1, arg2, ud⟩
        taskLast := nextTaskLast })

/-- The first half of `__yield_check_tasks`: the task it copies out of the ring before calling it,
and the ring after `task_cur` has advanced. `none` when the function returns 0. -/
def yieldCheckTasks (q : TaskQueue F) : Option (TockTask F × TaskQueue F) :=
  if q.taskCur ≠ q.taskLast then
    some (q.taskQueue q.taskCur, { q with taskCur := (q.taskCur + 1) % taskQueueSize })
  else
    none

/-! ### The queue the ring stores -/

/-- The tasks that wait in the ring, oldest first. -/
def TaskQueue.waiting (q : TaskQueue F) : List (TockTask F) :=
  Core.Ring.contents taskQueueSize q.taskQueue q.taskCur q.taskLast

/-- Both indices are valid indices of `task_queue`. -/
structure TaskQueue.Valid (q : TaskQueue F) : Prop where
  cur_lt : q.taskCur < taskQueueSize
  last_lt : q.taskLast < taskQueueSize

lemma TaskQueue.valid_initial (slots : ℕ → TockTask F) : (TaskQueue.initial slots).Valid :=
  ⟨by simp [TaskQueue.initial, taskQueueSize], by simp [TaskQueue.initial, taskQueueSize]⟩

@[simp] lemma TaskQueue.waiting_initial (slots : ℕ → TockTask F) :
    (TaskQueue.initial slots).waiting = [] := by
  simp [TaskQueue.waiting, TaskQueue.initial, Core.Ring.contents, Core.Ring.size]

variable {q : TaskQueue F}

/-- `tock_enqueue` refuses exactly when 15 tasks wait. -/
lemma TaskQueue.Valid.full_iff (h : q.Valid) :
    (q.taskLast + 1) % taskQueueSize = q.taskCur ↔ q.waiting.length = 15 := by
  rw [Core.Ring.next_eq_cur_iff h.cur_lt h.last_lt, TaskQueue.waiting, Core.Ring.length_contents]
  rfl

lemma tockEnqueue_full (h : q.Valid) (hfull : q.waiting.length = 15) (cb : F)
    (arg0 arg1 arg2 : U32) (ud : Ptr) : tockEnqueue cb arg0 arg1 arg2 ud q = (-1, q) := by
  rw [tockEnqueue]
  simp only [h.full_iff.mpr hfull, if_true]

/-- What an accepted `tock_enqueue` returns and stores. -/
lemma tockEnqueue_room (h : q.Valid) (hroom : q.waiting.length ≠ 15) (cb : F)
    (arg0 arg1 arg2 : U32) (ud : Ptr) :
    ∃ i : ℕ, i < taskQueueSize ∧ (tockEnqueue cb arg0 arg1 arg2 ud q).1 = i ∧
      (tockEnqueue cb arg0 arg1 arg2 ud q).2.Valid ∧
      (tockEnqueue cb arg0 arg1 arg2 ud q).2.waiting
        = q.waiting ++ [⟨cb, arg0, arg1, arg2, ud⟩] := by
  have hne : (q.taskLast + 1) % taskQueueSize ≠ q.taskCur := mt h.full_iff.mp hroom
  have hlt : (q.taskLast + 1) % taskQueueSize < taskQueueSize := Nat.mod_lt _ (by decide)
  refine ⟨_, hlt, ?_⟩
  simp only [tockEnqueue, hne, if_false]
  exact ⟨trivial, ⟨h.cur_lt, hlt⟩, Core.Ring.contents_push _ _ h.cur_lt h.last_lt hne⟩

lemma tockEnqueue_valid (h : q.Valid) (cb : F) (arg0 arg1 arg2 : U32) (ud : Ptr) :
    (tockEnqueue cb arg0 arg1 arg2 ud q).2.Valid := by
  by_cases hfull : q.waiting.length = 15
  · rw [tockEnqueue_full h hfull]
    exact h
  · obtain ⟨_, _, _, hv, _⟩ := tockEnqueue_room h hfull cb arg0 arg1 arg2 ud
    exact hv

lemma tockEnqueue_eq_neg_one_iff (h : q.Valid) (cb : F) (arg0 arg1 arg2 : U32) (ud : Ptr) :
    (tockEnqueue cb arg0 arg1 arg2 ud q).1 = -1 ↔ q.waiting.length = 15 := by
  by_cases hfull : q.waiting.length = 15
  · simp [tockEnqueue_full h hfull, hfull]
  · obtain ⟨i, _, hi, _⟩ := tockEnqueue_room h hfull cb arg0 arg1 arg2 ud
    simp only [hi, hfull, iff_false]
    omega

lemma yieldCheckTasks_eq_none_iff (h : q.Valid) :
    yieldCheckTasks q = none ↔ q.waiting = [] := by
  rw [TaskQueue.waiting, Core.Ring.contents_eq_nil_iff _ h.cur_lt h.last_lt]
  rw [yieldCheckTasks]
  split_ifs with hne
  · simpa using hne
  · simpa using hne

/-- `__yield_check_tasks` takes the oldest waiting task out of the ring. -/
lemma yieldCheckTasks_some {t : TockTask F} {q' : TaskQueue F} (h : q.Valid)
    (hq : yieldCheckTasks q = some (t, q')) : q'.Valid ∧ q.waiting = t :: q'.waiting := by
  rw [yieldCheckTasks] at hq
  split_ifs at hq with hne
  simp only [Option.some.injEq, Prod.mk.injEq] at hq
  obtain ⟨rfl, rfl⟩ := hq
  exact ⟨⟨Nat.mod_lt _ (by decide), h.last_lt⟩,
    Core.Ring.contents_pop _ h.cur_lt h.last_lt hne⟩

end Tock
