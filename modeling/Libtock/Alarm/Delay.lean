import Libtock.Alarm.Effect
import Libtock.Core.History

/-!
# `delay_ms` and `yield_for_with_timeout`

A call of `delay_ms` has a `bool` and a timer on its stack; it starts the timer and yields until
the callback of the timer has set the `bool`. `yield_for_with_timeout` does the same, and cancels
the timer if a condition of its caller comes true first. What runs in between may call either of
them again. The two callbacks do the same and are one here.
-/

namespace Alarm

open Core Tock Schedule

/-- A call that waits: its argument `ms`, its local variables, and the tick and the interval it
started its timer with. -/
structure Delay where
  ms : U32
  /-- The condition of the caller, in `yield_for_with_timeout`. -/
  awaited : Option Ptr
  /-- `cond` of `delay_ms`, `timeout` of `yield_for_with_timeout`. -/
  cond : Ptr
  timer : Ptr
  start : ℕ
  interval : U32
  deriving DecidableEq

structure DelayWorld where
  world : World State
  /-- The calls that wait, innermost first. -/
  stack : List Delay

inductive DelayAction
  /-- A step of the rest of the application, or of one of the yields. -/
  | library (a : Action)
  /-- `delay_ms` up to its `yield_for`. -/
  | delayMs (ms : U32) (cond timer : Ptr)
  /-- `yield_for_with_timeout` up to its loop. -/
  | yieldForWithTimeout (cond : Ptr) (ms : U32) (timeout timer : Ptr)
  /-- The loop of the innermost call finds that it is over. -/
  | test

inductive DelayEvent
  | library (e : Event)
  /-- A call of `delay_ms` returns at this tick, or `yield_for_with_timeout` fails. -/
  | returned (d : Delay) (tick : ℕ)
  /-- A call of `yield_for_with_timeout` succeeds. -/
  | met (d : Delay)
  deriving DecidableEq

/-- The callback that an action passes on. -/
def Action.callback : Action → Option Callback
  | .alarmAt _ _ cb _ _ => cb
  | .timerIn _ cb _ _ => cb
  | .timerEvery _ cb _ _ => some cb
  | .enqueue cb _ _ _ _ => some cb
  | _ => none

/-- The `bool` that an action writes. -/
def Action.writes : Action → Option Ptr
  | .setFlag p _ => some p
  | _ => none

/-- Two calls whose local variables are different objects. -/
def Delay.Apart (d d' : Delay) : Prop := d.cond ≠ d'.cond ∧ d.timer ≠ d'.timer

instance : Std.Symm Delay.Apart := ⟨fun _ _ h => ⟨h.1.symm, h.2.symm⟩⟩

/-- What the waiting callbacks of delays will set. -/
def flagged (tasks : List (TockTask Upcall)) : List Ptr :=
  tasks.filterMap fun k => if k.cb = .user .yieldForTimeoutUpcall then some k.ud else none

namespace DelayWorld

/-- Both functions up to their loop. -/
def startTimer (fuel : ℕ) (s : DelayWorld) (ms : U32) (awaited : Option Ptr) (cond timer : Ptr) :
    Option (DelayWorld × List DelayEvent) := do
  let (w, es) ← (s.world.step (libtock fuel) (.setFlag cond false)).toOption
  let (world, es') ← (w.step (libtock fuel)
    (.timerIn ms (some .yieldForTimeoutUpcall) cond timer)).toOption
  let d := ⟨ms, awaited, cond, timer, s.world.time, ticks ms s.world.st.frequency⟩
  some (⟨world, d :: s.stack⟩, (es ++ es').map .library)

/-- The code, whose loops may take `fuel` iterations. -/
def exec (fuel : ℕ) (s : DelayWorld) : DelayAction → Option (DelayWorld × List DelayEvent)
  | .library a => do
    let (world, es) ← (s.world.step (libtock fuel) a).toOption
    some ({ s with world }, es.map .library)
  | .delayMs ms cond timer => s.startTimer fuel ms none cond timer
  | .yieldForWithTimeout cond ms timeout timer => s.startTimer fuel ms (some cond) timeout timer
  | .test =>
    match s.stack with
    | d :: stack =>
      if d.awaited.any s.world.st.flags then do
        let (world, es) ← (s.world.step (libtock fuel) (.timerCancel d.timer)).toOption
        some (⟨world, stack⟩, es.map .library ++ [.met d])
      else if s.world.st.flags d.cond then some ({ s with stack }, [.returned d s.world.time])
      else none
    | [] => none

def Step (s : DelayWorld) (a : DelayAction) (s' : DelayWorld) (es : List DelayEvent) : Prop :=
  ∃ fuel, s.exec fuel a = some (s', es)

/-- The memory of the local variables of a new call is its own: no other call has it, and nothing
in the queue will write to it, such as the callback of a call before that was cancelled late. -/
def Fresh (s : DelayWorld) (cond timer : Ptr) : Prop :=
  cond ∉ flagged s.world.st.queue.waiting ∧ timer ∉ World.rearming s.world.st.queue.waiting ∧
    ∀ d ∈ s.stack, cond ≠ d.cond ∧ timer ≠ d.timer

/-- The local variables of the calls are their own, and so is the callback that writes to them. -/
def Private (s : DelayWorld) : DelayAction → Prop
  | .library a => a.callback ≠ some .yieldForTimeoutUpcall ∧
      ∀ d ∈ s.stack, a.starts ≠ some d.timer ∧ a.cancels ≠ some d.timer ∧
        a.writes ≠ some d.cond
  | .delayMs _ cond timer => s.Fresh cond timer
  | .yieldForWithTimeout _ _ timeout timer => s.Fresh timeout timer
  | .test => True

instance (s : DelayWorld) (cond timer : Ptr) : Decidable (s.Fresh cond timer) :=
  inferInstanceAs (Decidable (_ ∧ _))

instance (s : DelayWorld) : ∀ a, Decidable (Private s a)
  | .library _ => inferInstanceAs (Decidable (_ ∧ _))
  | .delayMs _ _ _ => inferInstanceAs (Decidable (Fresh _ _ _))
  | .yieldForWithTimeout _ _ _ _ => inferInstanceAs (Decidable (Fresh _ _ _))
  | .test => inferInstanceAs (Decidable True)

end DelayWorld

/-! ### The tasks that set a `bool` -/

@[simp] lemma flagged_append (tasks tasks' : List (TockTask Upcall)) :
    flagged (tasks ++ tasks') = flagged tasks ++ flagged tasks' := List.filterMap_append

lemma flagged_cons_self {task : TockTask Upcall} (hcb : task.cb = .user .yieldForTimeoutUpcall)
    (tasks : List (TockTask Upcall)) : flagged (task :: tasks) = task.ud :: flagged tasks := by
  simp [flagged, hcb]

lemma flagged_cons_of_ne {task : TockTask Upcall} (hcb : task.cb ≠ .user .yieldForTimeoutUpcall)
    (tasks : List (TockTask Upcall)) : flagged (task :: tasks) = flagged tasks := by
  simp [flagged, hcb]

/-- The tasks that `callback` makes of the alarm `p`, if this is the only one to set `c`. -/
lemma count_flagged_queued {data : Ptr → AlarmData} {c p : Ptr}
    (l : List (TockTask Upcall × Option Ptr))
    (hl : ∀ q ∈ l, ∃ x t cb, (data x).callback = some cb ∧ q = (upcallTask (data x) t cb, some x) ∧
      ((data x).callback = some (.user .yieldForTimeoutUpcall) ∧ (data x).ud = c ↔ x = p)) :
    (flagged (l.map Prod.fst)).count c = (l.map Prod.snd).count (some p) := by
  induction l with
  | nil => rfl
  | cons q l ih =>
    have ih := ih fun q hq => hl q (List.mem_cons_of_mem _ hq)
    obtain ⟨x, t, cb, hcb, rfl, hp⟩ := hl q List.mem_cons_self
    rw [List.map_cons, List.map_cons, List.count_cons, ← ih]
    by_cases hflag : cb = .user .yieldForTimeoutUpcall
    · subst hflag
      have hud : (data x).ud = c ↔ x = p := by simpa [hcb] using hp
      rw [flagged_cons_self (by rfl), List.count_cons]
      simp [upcallTask, hud]
    · have hne : x ≠ p := fun hx => hflag (by simpa [hcb] using (hp.mpr hx).1)
      rw [flagged_cons_of_ne (by simpa [upcallTask] using hflag)]
      simp [hne]

lemma mem_of_mem_queued {data : Ptr → AlarmData} {es : List (Ptr × ℕ)} {x : Ptr} {room : ℕ}
    (hx : some x ∈ ((es.filterMap (taskOf data)).take room).map Prod.snd) :
    x ∈ es.map Prod.fst := by
  obtain ⟨q, hq, hqx⟩ := List.mem_map.mp hx
  obtain ⟨y, t, cb, hy, -, rfl⟩ := World.taskOf_spec (List.mem_of_mem_take hq)
  obtain rfl : y = x := Option.some.inj hqx
  exact List.mem_map_of_mem (f := Prod.fst) hy

/-- An expired alarm with a callback has its task queued, unless the queue was full. -/
lemma count_queued {data : Ptr → AlarmData} {es : List (Ptr × ℕ)} {x : Ptr} {t : ℕ}
    (hnodup : (es.map Prod.fst).Nodup) (hx : (x, t) ∈ es) (hcb : (data x).callback ≠ none)
    (room : ℕ) :
    (((es.filterMap (taskOf data)).take room).map Prod.snd).count (some x) = 1 ∨
      (((es.filterMap (taskOf data)).take room).map Prod.snd).count (some x) = 0 ∧
        ⟨x, t, some false⟩ ∈ logOf data es room := by
  induction es generalizing room with
  | nil => cases hx
  | cons e es ih =>
    rw [List.map_cons, List.nodup_cons] at hnodup
    rcases List.mem_cons.mp hx with rfl | hx
    · obtain ⟨cb, hcb'⟩ := Option.ne_none_iff_exists'.mp hcb
      cases room with
      | zero => simp [logOf, hcb]
      | succ room =>
        have hzero : (((es.filterMap (taskOf data)).take room).map Prod.snd).count (some x) = 0 :=
          List.count_eq_zero.mpr fun hmem => hnodup.1 (mem_of_mem_queued hmem)
        left
        simpa [taskOf, hcb', List.map_take] using hzero
    · have hne : e.1 ≠ x := fun he => hnodup.1 (he ▸ List.mem_map_of_mem (f := Prod.fst) hx)
      cases hce : (data e.1).callback with
      | none =>
        have ih := ih hnodup.2 hx room
        simpa [taskOf, hce, logOf] using ih
      | some cb =>
        cases room with
        | zero =>
          have ih : ⟨x, t, some false⟩ ∈ logOf data es 0 := by simpa using ih hnodup.2 hx 0
          simp [logOf, hce, ih]
        | succ room =>
          have ih := ih hnodup.2 hx room
          simpa [taskOf, hce, logOf, hne] using ih

namespace World

variable {v v' : World Schedule} {a : Action} {es : List Event}

/-- The `bool` objects after a step. -/
def flagsAfter (v : World Schedule) : Action → Ptr → Bool
  | .setFlag p b => Function.update v.st.flags p b
  | .yield =>
    match v.st.tasks with
    | [] => v.st.flags
    | task :: _ =>
      match task.cb with
      | .user cb => (v.st.invoke cb task.ud).flags
      | .repeatingUpcall => (v.st.invoke (v.st.timers task.ud).cb (v.st.timers task.ud).ud).flags
  | _ => v.st.flags

lemma Plan.flags (hv : Sound v) (hplan : Plan v a v' es) : v'.st.flags = flagsAfter v a := by
  have hinvoke : ∀ (cb : Callback) (ud : Ptr) (b : Schedule), b.flags = v.st.flags →
      (b.invoke cb ud).flags = (v.st.invoke cb ud).flags := by
    intro cb ud b hb
    cases cb <;> simp [Schedule.invoke, hb]
  cases a with
  | setFlag p b =>
    cases hplan
    rfl
  | yield =>
    rw [Plan] at hplan
    simp only [World.step, schedule, Schedule.dequeue] at hplan
    cases htasks : v.st.tasks with
    | nil =>
      simp only [htasks] at hplan
      cases hplan
      simp [flagsAfter, htasks]
    | cons task tasks =>
      obtain ⟨c, arg0, arg1, arg2, ud⟩ := task
      simp only [htasks] at hplan
      cases c with
      | user cb =>
        cases hplan
        simp only [flagsAfter, htasks]
        exact hinvoke _ _ _ rfl
      | repeatingUpcall =>
        obtain ⟨⟨st, call⟩, hcall, heq⟩ := bind_eq_ok.mp hplan
        obtain ⟨st', hst, heq'⟩ := map_eq_ok.mp hcall
        cases heq'
        obtain ⟨-, rfl⟩ := alarmAt_eq_ok.mp hst
        cases heq
        simp only [flagsAfter, htasks]
        exact hinvoke _ _ _ rfl
  | tick d =>
    cases hplan
    rfl
  | upcall adv =>
    obtain ⟨hst, -, -⟩ := serve_eq v.st.linked v.time adv v.st hv.room
    cases hplan
    simp only [flagsAfter, Schedule.callback, hst]
  | _ =>
    cases hplan.effect hv with
    | quiet flags hact ht => simp at hact
    | _ => rfl

end World

end Alarm
