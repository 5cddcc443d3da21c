import Libtock.Core.Run
import Libtock.Tock.TaskQueue

/-!
# Yielding and re-entrancy

`yield` runs one waiting task or enters the kernel, and the code it runs may enqueue and yield
again. The process is modelled with its call stack: on top is the code that runs now, below it the
calls of `yield` and `yield_no_wait` it is nested in. An empty stack is the main program.

A task frame holds the task that `__yield_check_tasks` copied out of the ring, so what happens to
the slot afterwards does not concern the running task.
-/

namespace Tock

open Core

variable {F : Type*}

/-- A call that has not returned yet; `noWait` tells `yield_no_wait` from `yield`. -/
inductive Frame (F : Type*)
  /-- A task called by `__yield_check_tasks`. -/
  | task (t : TockTask F) (noWait : Bool)
  /-- The `svc` with which a yield enters the kernel. -/
  | svc (noWait : Bool)
  /-- An upcall the kernel runs on top of such an `svc`. -/
  | upcall

structure Process (F : Type*) where
  queue : TaskQueue F
  stack : List (Frame F)

inductive YieldAction (F : Type*)
  | enqueue (cb : F) (arg0 arg1 arg2 : U32) (ud : Ptr)
  /-- The running code calls `yield_no_wait` or `yield`. -/
  | yield (noWait : Bool)
  /-- The kernel runs an upcall for the `svc` on top of the stack. -/
  | upcall
  /-- The code or `svc` on top of the stack returns. -/
  | ret

inductive YieldEvent (F : Type*)
  | enqueued (t : TockTask F) (ret : ℤ)
  | started (t : TockTask F)
  | enteredKernel (noWait : Bool)
  /-- `yield_no_wait` returned. -/
  | noWaitReturned (result : ℕ)

/-- No user code runs while the process is inside an `svc`. -/
def Process.codeRuns (p : Process F) : Prop :=
  match p.stack with
  | .svc _ :: _ => False
  | _ => True

instance (p : Process F) : Decidable p.codeRuns := by
  rw [Process.codeRuns]
  split <;> infer_instance

/-- The events of a returning call: only `yield_no_wait` has a result. -/
def returned (noWait : Bool) (result : ℕ) : List (YieldEvent F) :=
  if noWait then [.noWaitReturned result] else []

def Process.step (p : Process F) : YieldAction F → Option (Process F × List (YieldEvent F))
  | .enqueue cb arg0 arg1 arg2 ud =>
    if p.codeRuns then
      let (ret, queue) := tockEnqueue cb arg0 arg1 arg2 ud p.queue
      some ({ p with queue }, [.enqueued ⟨cb, arg0, arg1, arg2, ud⟩ ret])
    else none
  | .yield noWait =>
    if p.codeRuns then
      match yieldCheckTasks p.queue with
      | some (task, queue) =>
        some ({ queue, stack := .task task noWait :: p.stack }, [.started task])
      | none => some ({ p with stack := .svc noWait :: p.stack }, [.enteredKernel noWait])
    else none
  | .upcall =>
    match p.stack with
    | .svc _ :: _ => some ({ p with stack := .upcall :: p.stack }, [])
    | _ => none
  | .ret =>
    match p.stack with
    -- `__yield_check_tasks` returns 1 once the task it called has returned
    | .task _ noWait :: stack => some ({ p with stack }, returned noWait 1)
    | .upcall :: .svc noWait :: stack => some ({ p with stack }, returned noWait 1)
    -- without an upcall only `yield_no_wait` comes back from the kernel
    | .svc true :: stack => some ({ p with stack }, returned true 0)
    | _ => none

def Process.Step (p : Process F) (a : YieldAction F) (p' : Process F)
    (es : List (YieldEvent F)) : Prop :=
  p.step a = some (p', es)

def Process.initial (slots : ℕ → TockTask F) : Process F := ⟨.initial slots, []⟩

/-! ### What a trace says about the queue -/

/-- The tasks accepted by `tock_enqueue`, in the order of the calls. -/
def accepted (tr : List (YieldEvent F)) : List (TockTask F) :=
  tr.filterMap fun
    | .enqueued t ret => if ret = -1 then none else some t
    | _ => none

/-- The tasks started by a yield, in the order of their start. -/
def started (tr : List (YieldEvent F)) : List (TockTask F) :=
  tr.filterMap fun
    | .started t => some t
    | _ => none

/-- The tasks accepted and not yet started when as many have started as the trace says. -/
def notStarted (tr : List (YieldEvent F)) : List (TockTask F) :=
  (accepted tr).drop (started tr).length

@[simp] lemma accepted_append (tr tr' : List (YieldEvent F)) :
    accepted (tr ++ tr') = accepted tr ++ accepted tr' := List.filterMap_append

@[simp] lemma started_append (tr tr' : List (YieldEvent F)) :
    started (tr ++ tr') = started tr ++ started tr' := List.filterMap_append

@[simp] lemma accepted_returned (b : Bool) (r : ℕ) :
    accepted (returned b r : List (YieldEvent F)) = [] := by
  cases b <;> rfl

@[simp] lemma started_returned (b : Bool) (r : ℕ) :
    started (returned b r : List (YieldEvent F)) = [] := by
  cases b <;> rfl

/-! ### One step -/

/-- A step touches the queue only by `tock_enqueue` and by taking out the task it starts. -/
lemma Process.Step.queue_eq {p p' : Process F} {a : YieldAction F} {es : List (YieldEvent F)}
    (h : p.Step a p' es) (hv : p.queue.Valid) :
    p'.queue.Valid ∧ p.queue.waiting ++ accepted es = started es ++ p'.queue.waiting := by
  rw [Process.Step] at h
  cases a with
  | enqueue cb arg0 arg1 arg2 ud =>
    simp only [Process.step] at h
    split_ifs at h
    simp only [Option.some.injEq, Prod.mk.injEq] at h
    obtain ⟨rfl, rfl⟩ := h
    refine ⟨tockEnqueue_valid hv _ _ _ _ _, ?_⟩
    by_cases hfull : p.queue.waiting.length = 15
    · simp [tockEnqueue_full hv hfull, accepted, started]
    · obtain ⟨i, _, hret, _, hwait⟩ := tockEnqueue_room hv hfull cb arg0 arg1 arg2 ud
      have hne : (tockEnqueue cb arg0 arg1 arg2 ud p.queue).1 ≠ -1 := by omega
      simp [accepted, started, hne, hwait]
  | yield noWait =>
    simp only [Process.step] at h
    split_ifs at h
    split at h
    · next task queue hq =>
      simp only [Option.some.injEq, Prod.mk.injEq] at h
      obtain ⟨rfl, rfl⟩ := h
      obtain ⟨hv', hwait⟩ := yieldCheckTasks_some hv hq
      exact ⟨hv', by simp [accepted, started, hwait]⟩
    · simp only [Option.some.injEq, Prod.mk.injEq] at h
      obtain ⟨rfl, rfl⟩ := h
      exact ⟨hv, by simp [accepted, started]⟩
  | upcall =>
    simp only [Process.step] at h
    split at h
    · simp only [Option.some.injEq, Prod.mk.injEq] at h
      obtain ⟨rfl, rfl⟩ := h
      exact ⟨hv, by simp [accepted, started]⟩
    · cases h
  | ret =>
    simp only [Process.step] at h
    split at h
    all_goals
      first
      | cases h
        done
      | simp only [Option.some.injEq, Prod.mk.injEq] at h
        obtain ⟨rfl, rfl⟩ := h
        exact ⟨hv, by simp⟩

/-- A yield made while no task waits enters the kernel; otherwise it starts the oldest one. -/
lemma Process.Step.yield_events {p p' : Process F} {noWait : Bool} {es : List (YieldEvent F)}
    (h : p.Step (.yield noWait) p' es) (hv : p.queue.Valid) :
    es = match p.queue.waiting with
      | [] => [.enteredKernel noWait]
      | t :: _ => [.started t] := by
  simp only [Process.Step, Process.step] at h
  split_ifs at h
  split at h
  · next task queue hq =>
    simp only [Option.some.injEq, Prod.mk.injEq] at h
    rw [(yieldCheckTasks_some hv hq).2]
    exact h.2.symm
  · next hq =>
    simp only [Option.some.injEq, Prod.mk.injEq] at h
    rw [(yieldCheckTasks_eq_none_iff hv).mp hq]
    exact h.2.symm

/-! ### All runs -/

lemma run_queue_eq {slots : ℕ → TockTask F} {p : Process F} {tr : List (YieldEvent F)}
    (h : Run Process.Step (Process.initial slots) tr p) :
    p.queue.Valid ∧ accepted tr = started tr ++ p.queue.waiting := by
  refine h.trace_invariant (fun tr p => p.queue.Valid ∧ accepted tr = started tr ++ p.queue.waiting)
    ?_ ⟨TaskQueue.valid_initial slots, by simp [Process.initial, accepted, started]⟩
  rintro tr p a p' es ⟨hv, heq⟩ hstep
  obtain ⟨hv', heq'⟩ := hstep.queue_eq hv
  refine ⟨hv', ?_⟩
  rw [accepted_append, started_append, heq, List.append_assoc, heq', List.append_assoc]

/-- In every run, to any depth of nesting, the ring is a FIFO queue of the tasks it accepted. -/
theorem task_queue_fifo (slots : ℕ → TockTask F) {p : Process F} {tr : List (YieldEvent F)}
    (h : Run Process.Step (Process.initial slots) tr p) :
    p.queue.taskCur < taskQueueSize ∧ p.queue.taskLast < taskQueueSize ∧
    started tr <+: accepted tr ∧
    (∀ cb arg0 arg1 arg2 ud,
      ((tockEnqueue cb arg0 arg1 arg2 ud p.queue).1 = -1 ↔ (notStarted tr).length = 15) ∧
      ((tockEnqueue cb arg0 arg1 arg2 ud p.queue).1 = -1 →
        (tockEnqueue cb arg0 arg1 arg2 ud p.queue).2 = p.queue)) ∧
    (∀ noWait p' es, p.Step (.yield noWait) p' es →
      es = match notStarted tr with
        | [] => [.enteredKernel noWait]
        | t :: _ => [.started t]) := by
  obtain ⟨hv, heq⟩ := run_queue_eq h
  have hwait : notStarted tr = p.queue.waiting := by
    rw [notStarted, heq, List.drop_left]
  refine ⟨hv.cur_lt, hv.last_lt, ⟨_, heq.symm⟩, ?_,
    ?_⟩
  · intro cb arg0 arg1 arg2 ud
    rw [hwait, tockEnqueue_eq_neg_one_iff hv]
    exact ⟨Iff.rfl, fun hfull => by rw [tockEnqueue_full hv hfull]⟩
  · intro noWait p' es hstep
    rw [hwait]
    exact hstep.yield_events hv

/-- A task that enqueues and yields while it runs, so that the second task starts inside the first
and the third, enqueued last, waits. -/
theorem task_queue_fifo_nested :
    ∃ p tr, Run Process.Step (Process.initial fun _ => ⟨0, 0, 0, 0, 0⟩) tr p ∧
      (started tr).map (·.cb) = [1, 2] ∧ (notStarted tr).map (·.cb) = [3] ∧
      p.queue.taskLast < taskQueueSize := by
  have hrun : Run Process.Step (Process.initial fun _ => ⟨0, 0, 0, 0, 0⟩) _ _ :=
    Run.of_play (f := Process.step) (fun _ _ _ _ h => h)
      [.enqueue 1 0 0 0 0, .enqueue 2 0 0 0 0, .yield false, .enqueue 3 7 8 9 4, .yield true,
        .ret, .ret] rfl
  exact ⟨_, _, hrun, by decide, by decide, (task_queue_fifo _ hrun).2.1⟩

end Tock
