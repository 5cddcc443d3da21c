import Libtock.Core.Run
import Libtock.Core.Clock
import Libtock.Alarm.Refinement

/-!
# Runs of an application that uses alarms

A `World` is a memory together with what no program can see: the unbounded tick count whose low
32 bits are the clock, the unbounded reference each alarm was armed with, which alarm each waiting
task comes from, and how each alarm has been used so far.

An application acts by calling the library and by yielding. A yield that finds a waiting task runs
it; what a callback of the application does then are the next actions of the run, also when it
yields again, since nothing is left to do for the library after it has called the callback. A
yield that finds no task waits in the kernel, which runs `callback` when the alarm is due.

The steps are given for any implementation of the library's functions, so that they can be taken
by the code on memory (`libtock`) and by the abstract model (`schedule`).
-/

namespace Alarm

open Core Tock

/-- How an alarm or timer has been used by its owner. -/
inductive Use
  | neverStarted
  /-- Started by `alarm_at` or `timer_in`; its callback has not run since. -/
  | oneShot
  /-- Started by `timer_every`. -/
  | periodic
  | cancelled
  /-- Linked again by a `repeating_upcall` that still waited when it was cancelled. -/
  | revived
  /-- A one-shot whose callback has run. -/
  | done
  deriving DecidableEq

/-- The functions of `alarm_timer.c` and `tock.c` on memories of type `σ`. -/
structure Api (σ : Type) where
  alarmAt : U32 → U32 → Option Upcall → Ptr → Ptr → σ → Result σ
  alarmCancel : Ptr → σ → Result σ
  timerIn : ℕ → U32 → Option Callback → Ptr → Ptr → σ → Result σ
  timerEvery : ℕ → U32 → Callback → Ptr → Ptr → σ → Result σ
  timerCancel : Ptr → σ → Result σ
  callback : ℕ → (ℕ → ℕ) → σ → Result (σ × ℕ × List Popped)
  repeatingUpcall : U32 → Ptr → σ → Result (σ × PeriodicCall)
  enqueue : Upcall → U32 → U32 → U32 → Ptr → σ → Bool × σ
  dequeue : σ → Option (TockTask Upcall × σ)
  invoke : Callback → Ptr → σ → σ
  setFlag : Ptr → Bool → σ → σ
  timers : σ → Ptr → TockTimer

/-- The code, whose loops may take `fuel` iterations. -/
def libtock (fuel : ℕ) : Api State where
  alarmAt := Alarm.alarmAt fuel
  alarmCancel := Alarm.alarmCancel
  timerIn := Alarm.timerIn fuel
  timerEvery := Alarm.timerEvery fuel
  timerCancel := Alarm.timerCancel
  callback := Alarm.callback fuel
  repeatingUpcall := Alarm.repeatingUpcall fuel
  enqueue := State.enqueue
  dequeue := State.dequeue
  invoke := State.invoke
  setFlag p b s := { s with flags := Function.update s.flags p b }
  timers := State.timers

/-- The abstract model. -/
def schedule : Api Schedule where
  alarmAt := Schedule.alarmAt
  alarmCancel := Schedule.alarmCancel
  timerIn := Schedule.timerIn
  timerEvery := Schedule.timerEvery
  timerCancel := Schedule.alarmCancel
  callback t adv a := .ok (a.callback t adv)
  repeatingUpcall := Schedule.repeatingUpcall
  enqueue := Schedule.enqueue
  dequeue := Schedule.dequeue
  invoke := Schedule.invoke
  setFlag p b a := { a with flags := Function.update a.flags p b }
  timers := Schedule.timers

structure World (σ : Type) where
  st : σ
  /-- The tick count; `alarm_internal_read` gives its low 32 bits. -/
  time : ℕ
  /-- The reference of each alarm as a tick count. -/
  ref : Ptr → ℕ
  /-- The alarm from which each waiting task comes, oldest first. -/
  origin : List (Option Ptr)
  use : Ptr → Use

inductive Action
  /-- The clock advances. -/
  | tick (d : ℕ)
  /-- `alarm_at` with the reference `ref`, given as a tick count. -/
  | alarmAt (ref : ℕ) (dt : U32) (cb : Option Callback) (ud alarm : Ptr)
  | alarmCancel (alarm : Ptr)
  | timerIn (ms : U32) (cb : Option Callback) (ud timer : Ptr)
  | timerEvery (ms : U32) (cb : Callback) (ud timer : Ptr)
  | timerCancel (timer : Ptr)
  /-- The kernel runs `callback`; the clock advances by `adv k` before its `k`-th reading. -/
  | upcall (adv : ℕ → ℕ)
  /-- The application enqueues a task of its own. -/
  | enqueue (cb : Callback) (arg0 arg1 arg2 : U32) (ud : Ptr)
  /-- The application writes a `bool`. -/
  | setFlag (p : Ptr) (b : Bool)
  | yield

inductive Event
  /-- `alarm_at`, `timer_in` or `timer_every` returned. -/
  | armed (alarm : Ptr)
  /-- `alarm_cancel` or `timer_cancel` returned. -/
  | cancelled (alarm : Ptr)
  | popped (p : Popped)
  | enqueued (task : TockTask Upcall) (accepted : Bool)
  /-- A yield started a task that comes from the alarm `origin`, if from any. -/
  | started (task : TockTask Upcall) (origin : Option Ptr)
  | periodic (call : PeriodicCall)
  deriving DecidableEq

/-- The origins of the tasks that `callback` enqueued. -/
def origins (log : List Popped) : List (Option Ptr) :=
  log.filterMap fun p => if p.accepted = some true then some (some p.alarm) else none

namespace World

variable {σ : Type}

/-- The effect on `use` of starting a task that comes from `origin`. -/
def useAfterStart (use : Ptr → Use) (cb : Upcall) (origin : Option Ptr) : Ptr → Use :=
  fun p =>
    if origin = some p then
      match cb, use p with
      | .user _, .oneShot => .done
      | .repeatingUpcall, .cancelled => .revived
      | _, u => u
    else use p

/-- A yield that starts `task`, which is no longer in the queue. -/
def start (api : Api σ) (task : TockTask Upcall) (w : World σ) : Result (World σ × List Event) :=
  let origin := w.origin.head?.join
  let w := { w with
    origin := w.origin.tail
    use := useAfterStart w.use task.cb origin }
  match task.cb with
  | .repeatingUpcall => do
    let interval := (api.timers w.st task.ud).interval
    let (st, call) ← api.repeatingUpcall task.arg0 task.ud w.st
    .ok ({ w with
      st := api.invoke call.cb call.ud st
      ref := Function.update w.ref task.ud (w.ref task.ud + interval.toNat) },
      [.started task origin, .periodic call])
  | .user cb => .ok ({ w with st := api.invoke cb task.ud w.st }, [.started task origin])

def step (api : Api σ) (w : World σ) : Action → Result (World σ × List Event)
  | .tick d => .ok ({ w with time := w.time + d }, [])
  | .alarmAt ref dt cb ud alarm =>
    (api.alarmAt (alarmInternalRead ref) dt (cb.map .user) ud alarm w.st).map fun st =>
      ({ w with
        st
        ref := Function.update w.ref alarm ref
        use := Function.update w.use alarm .oneShot }, [.armed alarm])
  | .alarmCancel alarm =>
    (api.alarmCancel alarm w.st).map fun st =>
      ({ w with st, use := Function.update w.use alarm .cancelled }, [.cancelled alarm])
  | .timerIn ms cb ud timer =>
    (api.timerIn w.time ms cb ud timer w.st).map fun st =>
      ({ w with
        st
        ref := Function.update w.ref timer w.time
        use := Function.update w.use timer .oneShot }, [.armed timer])
  | .timerEvery ms cb ud timer =>
    (api.timerEvery w.time ms cb ud timer w.st).map fun st =>
      ({ w with
        st
        ref := Function.update w.ref timer w.time
        use := Function.update w.use timer .periodic }, [.armed timer])
  | .timerCancel timer =>
    (api.timerCancel timer w.st).map fun st =>
      ({ w with st, use := Function.update w.use timer .cancelled }, [.cancelled timer])
  | .upcall adv =>
    (api.callback w.time adv w.st).map fun r =>
      ({ w with st := r.1, time := r.2.1, origin := w.origin ++ origins r.2.2 },
        r.2.2.map .popped)
  | .enqueue cb arg0 arg1 arg2 ud =>
    let r := api.enqueue (.user cb) arg0 arg1 arg2 ud w.st
    .ok ({ w with st := r.2, origin := w.origin ++ if r.1 then [none] else [] },
      [.enqueued ⟨.user cb, arg0, arg1, arg2, ud⟩ r.1])
  | .setFlag p b => .ok ({ w with st := api.setFlag p b w.st }, [])
  | .yield =>
    match api.dequeue w.st with
    | none => .ok (w, [])
    | some (task, st) => start api task { w with st }

/-- A step of the code: with enough fuel it returns, and this is what it gives. -/
def Step (w : World State) (a : Action) (w' : World State) (es : List Event) : Prop :=
  ∃ fuel, w.step (libtock fuel) a = .ok (w', es)

/-- A step of the abstract model. -/
def Plan (w : World Schedule) (a : Action) (w' : World Schedule) (es : List Event) : Prop :=
  w.step schedule a = .ok (w', es)

/-- The alarm is reached from `root` by following `next`. -/
inductive Linked (s : State) : Ptr → Prop
  | root {p : Ptr} : s.root = some p → Linked s p
  | next {p q : Ptr} : Linked s p → (s.alarms p).next = some q → Linked s q

/-- The world before the application starts: nothing is linked or waits, and the alarms that are
initialised have null links. -/
structure Initial (w : World State) : Prop where
  root : w.st.root = none
  queue : w.st.queue.taskCur = 0 ∧ w.st.queue.taskLast = 0
  links : ∀ p, w.st.initialised p = true →
    (w.st.alarms p).next = none ∧ (w.st.alarms p).prev = none
  /-- Also the reference of an alarm that was never armed has low bits. -/
  ref : ∀ p, (w.st.alarms p).reference = alarmInternalRead (w.ref p)
  origin : w.origin = []
  use : w.use = fun _ => .neverStarted

/-- A world in which nothing was ever armed, whose clock has `frequency` ticks a second. -/
def boot (frequency : U32) : World State where
  st :=
    { alarms := fun _ => ⟨⟨0, 0, none, 0⟩, none, none⟩
      timers := fun _ => ⟨0, .app 0, 0⟩
      root := none
      queue := .initial fun _ => ⟨.repeatingUpcall, 0, 0, 0, 0⟩
      frequency
      subscribed := false
      alarmSet := none
      flags := fun _ => false
      initialised := fun _ => false }
  time := 0
  ref := fun _ => 0
  origin := []
  use := fun _ => .neverStarted

lemma boot_initial (frequency : U32) : Initial (boot frequency) :=
  ⟨rfl, ⟨rfl, rfl⟩, fun _ h => (by cases h), fun _ => rfl, rfl, rfl⟩

/-- Performs the actions one after the other, as long as they meet `P`. -/
def exec (P : World State → Action → Prop) [∀ w a, Decidable (P w a)] (w : World State)
    (as : List Action) : Option (World State × List Event) :=
  play (fun w a => if P w a then (w.step (libtock 32) a).toOption else none) w as

lemma run_of_exec {P : World State → Action → Prop} [∀ w a, Decidable (P w a)]
    {w w' : World State} (as : List Action) {es : List Event} (h : exec P w as = some (w', es)) :
    Run (Guarded Step P) w es w' := by
  refine Run.of_play (?_) as h
  intro w a w' es hstep
  split_ifs at hstep with hP
  refine ⟨hP, 32, ?_⟩
  generalize w.step (libtock 32) a = r at hstep
  cases r with
  | error e => cases hstep
  | ok r => exact congrArg Except.ok (Option.some.inj hstep)

/-- The actions can be performed, and what they lead to passes the test. -/
def execAny (P : World State → Action → Prop) [∀ w a, Decidable (P w a)] (w : World State)
    (as : List Action) (test : World State → List Event → Bool) : Bool :=
  (exec P w as).any fun r => test r.1 r.2

lemma run_of_execAny {P : World State → Action → Prop} [∀ w a, Decidable (P w a)]
    {w : World State} {as : List Action} {test : World State → List Event → Bool}
    (h : execAny P w as test = true) :
    ∃ w' tr, Run (Guarded Step P) w tr w' ∧ test w' tr = true := by
  obtain ⟨⟨w', tr⟩, hexec, htest⟩ := (Option.any_eq_true _ _).mp h
  exact ⟨w', tr, run_of_exec as hexec, htest⟩

/-- The action can be performed, and what it leads to passes the test. -/
def stepAny (w : World State) (a : Action) (test : World State → List Event → Bool) : Bool :=
  match w.step (libtock 32) a with
  | .ok r => test r.1 r.2
  | .error _ => false

lemma step_of_stepAny {w : World State} {a : Action} {test : World State → List Event → Bool}
    (h : w.stepAny a test = true) : ∃ w' es, Step w a w' es ∧ test w' es = true := by
  rw [stepAny] at h
  split at h
  · next r hr => exact ⟨r.1, r.2, ⟨32, hr⟩, h⟩
  · cases h

end World

end Alarm
