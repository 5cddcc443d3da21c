import Mathlib.Data.List.ReduceOption
import Libtock.Alarm.Simulation

/-!
# What a step of the model can do

One lemma says everything a step can do (`Plan.effect`), one what `callback` does
(`serve_eq`). The invariants of the following modules are derived from them.
-/

namespace Alarm

open Core Tock

namespace Schedule

/-- The schedule after `alarm_at` on an alarm that is not linked. -/
def link (x : Ptr) (d : AlarmData) (a : Schedule) : Schedule :=
  let data := Function.update a.data x d
  let linked := insertAlarm data x a.linked
  let atHead := linked.head? = some x
  { a with
    data
    linked
    initialised := Function.update a.initialised x true
    subscribed := a.subscribed || atHead
    alarmSet := if atHead then some (d.reference, d.dt) else a.alarmSet }

/-- The schedule after `alarm_cancel`. -/
def unlink (x : Ptr) (a : Schedule) : Schedule :=
  let linked := a.linked.erase x
  { a with
    linked
    alarmSet :=
      if a.linked.head? = some x then
        (linked.head?.map fun r => ((a.data r).reference, (a.data r).dt)) <|> a.alarmSet
      else a.alarmSet }

section Fields

variable (x : Ptr) (d : AlarmData) (a : Schedule)

@[simp] lemma mem_link {p : Ptr} : p ∈ (a.link x d).linked ↔ p = x ∨ p ∈ a.linked := mem_insertAlarm

@[simp] lemma data_link : (a.link x d).data = Function.update a.data x d := rfl

@[simp] lemma timers_link : (a.link x d).timers = a.timers := rfl

@[simp] lemma tasks_link : (a.link x d).tasks = a.tasks := rfl

@[simp] lemma linked_unlink : (a.unlink x).linked = a.linked.erase x := rfl

@[simp] lemma tasks_unlink : (a.unlink x).tasks = a.tasks := rfl

@[simp] lemma initialised_unlink : (a.unlink x).initialised = a.initialised := rfl

lemma perm_link : (a.link x d).linked.Perm (x :: a.linked) := List.perm_orderedInsert _ _ _

end Fields

variable {a a' : Schedule}

lemma alarmAt_eq_ok {reference dt : U32} {cb : Option Upcall} {ud x : Ptr} :
    a.alarmAt reference dt cb ud x = .ok a' ↔
      x ∉ a.linked ∧ a' = a.link x ⟨reference, dt, cb, ud⟩ := by
  by_cases hmem : x ∈ a.linked
  · simp [alarmAt, hmem]
  · have hlink : a.alarmAt reference dt cb ud x = .ok (a.link x ⟨reference, dt, cb, ud⟩) := by
      simp only [alarmAt, if_neg hmem, link]
      split_ifs <;> simp_all
    rw [hlink, Except.ok.injEq]
    exact ⟨fun h => ⟨hmem, h.symm⟩, fun h => h.2.symm⟩

lemma alarmCancel_eq_ok {x : Ptr} :
    a.alarmCancel x = .ok a' ↔ a.initialised x = true ∧ a' = a.unlink x := by
  by_cases hi : a.initialised x = true
  · have hunlink : a.alarmCancel x = .ok (a.unlink x) := by
      simp only [alarmCancel, if_pos hi, unlink]
      split_ifs <;> rfl
    rw [hunlink, Except.ok.injEq]
    exact ⟨fun h => ⟨hi, h.symm⟩, fun h => h.2.symm⟩
  · simp [alarmCancel, hi]

/-! ### `callback` -/

/-- The alarms of `l` that `callback` finds expired, each with the tick of the reading. -/
def expired (data : Ptr → AlarmData) : List Ptr → ℕ → (ℕ → ℕ) → List (Ptr × ℕ)
  | [], _, _ => []
  | x :: l, t, adv =>
    let t := t + adv 0
    if alarmInternalRead t - (data x).reference < (data x).dt then []
    else (x, t) :: expired data l t (adv ∘ Nat.succ)

/-- The task that `callback` makes of an alarm it finds expired at tick `t`. -/
def upcallTask (d : AlarmData) (t : ℕ) (cb : Upcall) : TockTask Upcall :=
  ⟨cb, alarmInternalRead t, d.reference + d.dt, 0, d.ud⟩

/-- The task of an expired alarm, if it has a callback, and the alarm. -/
def taskOf (data : Ptr → AlarmData) (e : Ptr × ℕ) : Option (TockTask Upcall × Option Ptr) :=
  (data e.1).callback.map fun cb => (upcallTask (data e.1) e.2 cb, some e.1)

/-- The log of `callback` for the expired alarms `es` when `room` more tasks fit in the queue. -/
def logOf (data : Ptr → AlarmData) : List (Ptr × ℕ) → ℕ → List Popped
  | [], _ => []
  | e :: es, room =>
    if (data e.1).callback = none then ⟨e.1, e.2, none⟩ :: logOf data es room
    else ⟨e.1, e.2, some (room ≠ 0)⟩ :: logOf data es (room - 1)

/-- `callback` takes a beginning off the list. -/
lemma expired_append_drop (data : Ptr → AlarmData) (l : List Ptr) (t : ℕ) (adv : ℕ → ℕ) :
    (expired data l t adv).map Prod.fst ++ l.drop (expired data l t adv).length = l := by
  induction l generalizing t adv with
  | nil => rfl
  | cons x l ih =>
    simp only [expired]
    split_ifs
    · rfl
    · simp [ih]

lemma serve_time_le (l : List Ptr) (t : ℕ) (adv : ℕ → ℕ) (a : Schedule) :
    t ≤ (serve l t adv a).2.1 := by
  induction l generalizing t adv a with
  | nil => exact le_rfl
  | cons x l ih =>
    simp only [serve]
    split_ifs
    · exact Nat.le_add_right _ _
    · split
      all_goals exact (Nat.le_add_right _ _).trans (ih _ _ _)

/-- `callback` pops the expired alarms, queues as many of their tasks as fit, and tells the kernel
the first alarm it leaves. -/
lemma serve_eq (l : List Ptr) (t : ℕ) (adv : ℕ → ℕ) (a : Schedule) (hroom : a.tasks.length ≤ 15) :
    let es := expired a.data l t adv
    let rest := l.drop es.length
    let queued := (es.filterMap (taskOf a.data)).take (15 - a.tasks.length)
    (serve l t adv a).1 =
      { a with
        linked := rest
        tasks := a.tasks ++ queued.map Prod.fst
        alarmSet :=
          (rest.head?.map fun r => ((a.data r).reference, (a.data r).dt)) <|> a.alarmSet } ∧
      (serve l t adv a).2.2 = logOf a.data es (15 - a.tasks.length) ∧
      origins (serve l t adv a).2.2 = queued.map Prod.snd := by
  induction l generalizing t adv a with
  | nil => simp [serve, expired, logOf, origins]
  | cons x l ih =>
    simp only [serve, expired]
    split_ifs with hexp
    · simp [logOf, origins]
    · cases hcb : (a.data x).callback with
      | none =>
        obtain ⟨hst, hlog, horigin⟩ := ih (t + adv 0) (adv ∘ Nat.succ) a hroom
        refine ⟨?_, ?_, ?_⟩
        · simp only [hst]
          simp [taskOf, hcb]
        · simp [logOf, hcb, hlog]
        · simp only [origins, List.filterMap_cons] at horigin ⊢
          simp [taskOf, hcb, horigin]
      | some cb =>
        have henq : a.enqueue cb (alarmInternalRead (t + adv 0))
            ((a.data x).reference + (a.data x).dt) 0 (a.data x).ud
            = if a.tasks.length = 15 then (false, a)
              else (true, { a with tasks := a.tasks ++ [upcallTask (a.data x) (t + adv 0) cb] }) :=
          rfl
        have htask : taskOf a.data (x, t + adv 0)
            = some (upcallTask (a.data x) (t + adv 0) cb, some x) := by
          simp [taskOf, hcb]
        simp only [henq]
        generalize upcallTask (a.data x) (t + adv 0) cb = k at htask ⊢
        by_cases hfull : a.tasks.length = 15
        · obtain ⟨hst, hlog, horigin⟩ := ih (t + adv 0) (adv ∘ Nat.succ) a hroom
          have hzero : 15 - a.tasks.length = 0 := by omega
          simp only [hzero, List.take_zero, List.map_nil, List.append_nil] at hst hlog horigin ⊢
          simp only [hfull, if_true]
          refine ⟨?_, ?_, ?_⟩
          · simp only [hst]
            rfl
          · simp [logOf, hcb, hlog]
          · simpa [origins] using horigin
        · obtain ⟨room, hroom'⟩ : ∃ room, 15 - a.tasks.length = room + 1 :=
            ⟨14 - a.tasks.length, by omega⟩
          obtain ⟨hst, hlog, horigin⟩ := ih (t + adv 0) (adv ∘ Nat.succ)
            { a with tasks := a.tasks ++ [k] } (by simp; omega)
          have hlen : 15 - (a.tasks ++ [k]).length = room := by simp; omega
          simp only [hlen] at hst hlog horigin
          simp only [hfull, if_false, hroom']
          refine ⟨?_, ?_, ?_⟩
          · simp only [hst]
            simp [htask]
          · simp [logOf, hcb, hlog]
          · simp only [origins, List.filterMap_cons] at horigin ⊢
            simp [htask, horigin]

/-- An expired alarm is one of the list, and its distance from the reference was at least `dt`. -/
lemma expired_spec {data : Ptr → AlarmData} {l : List Ptr} {t : ℕ} {adv : ℕ → ℕ} {e : Ptr × ℕ}
    (he : e ∈ expired data l t adv) :
    t ≤ e.2 ∧ ¬ alarmInternalRead e.2 - (data e.1).reference < (data e.1).dt := by
  induction l generalizing t adv with
  | nil => cases he
  | cons x l ih =>
    simp only [expired] at he
    split_ifs at he with hexp
    · cases he
    · rcases List.mem_cons.mp he with rfl | he
      · exact ⟨Nat.le_add_right _ _, hexp⟩
      · exact ⟨(Nat.le_add_right _ _).trans (ih he).1, (ih he).2⟩

lemma data_enqueue (cb : Upcall) (arg0 arg1 arg2 : U32) (ud : Ptr) (a : Schedule) :
    (a.enqueue cb arg0 arg1 arg2 ud).2.data = a.data := by
  rw [enqueue]
  split_ifs <;> rfl

lemma expired_le_serve {l : List Ptr} {t : ℕ} {adv : ℕ → ℕ} {a : Schedule} {e : Ptr × ℕ}
    (he : e ∈ expired a.data l t adv) : e.2 ≤ (serve l t adv a).2.1 := by
  induction l generalizing t adv a with
  | nil => cases he
  | cons x l ih =>
    simp only [expired] at he
    simp only [serve]
    split_ifs at he ⊢ with hexp
    · cases he
    · have hle : ∀ a' : Schedule, a'.data = a.data →
          e.2 ≤ (serve l (t + adv 0) (adv ∘ Nat.succ) a').2.1 := by
        intro a' ha'
        rcases List.mem_cons.mp he with rfl | he
        · exact serve_time_le _ _ _ _
        · exact ih (by rwa [ha'])
      split
      · exact hle _ (data_enqueue _ _ _ _ _ _)
      · exact hle a rfl

lemma map_logOf (data : Ptr → AlarmData) (es : List (Ptr × ℕ)) (room : ℕ) :
    (logOf data es room).map (fun p => (p.alarm, p.tick)) = es := by
  induction es generalizing room with
  | nil => rfl
  | cons e es ih =>
    simp only [logOf]
    split_ifs <;> simp [ih]

lemma logOf_alarm (data : Ptr → AlarmData) (es : List (Ptr × ℕ)) (room : ℕ) :
    (logOf data es room).map Popped.alarm = es.map Prod.fst := by
  conv_rhs => rw [← map_logOf data es room, List.map_map]
  rfl

lemma length_logOf (data : Ptr → AlarmData) (es : List (Ptr × ℕ)) (room : ℕ) :
    (logOf data es room).length = es.length := by
  conv_rhs => rw [← map_logOf data es room, List.length_map]

lemma mem_logOf {data : Ptr → AlarmData} {es : List (Ptr × ℕ)} {room : ℕ} {p : Popped}
    (hp : p ∈ logOf data es room) : (p.alarm, p.tick) ∈ es := by
  rw [← map_logOf data es room]
  exact List.mem_map_of_mem (f := fun p => (p.alarm, p.tick)) hp

end Schedule

/-! ### The effect of a step -/

namespace Action

/-- The alarm that its owner arms by this action. -/
def starts : Action → Option Ptr
  | .alarmAt _ _ _ _ x => some x
  | .timerIn _ _ _ x => some x
  | .timerEvery _ _ _ x => some x
  | _ => none

/-- The reference with which it does, when the tick count is `time`. -/
def reference (time : ℕ) : Action → ℕ
  | .alarmAt ref _ _ _ _ => ref
  | _ => time

/-- The alarm that this action cancels. -/
def cancels : Action → Option Ptr
  | .alarmCancel x => some x
  | .timerCancel x => some x
  | _ => none

end Action

namespace World

open Schedule

/-- What every reachable world of the model satisfies. -/
structure Sound (v : World Schedule) : Prop where
  nodup : v.st.linked.Nodup
  room : v.st.tasks.length ≤ 15
  /-- A `repeating_upcall` comes from the alarm of the timer it is about. -/
  origin : List.Forall₂ (fun k o => k.cb = .repeatingUpcall → o = some k.ud) v.st.tasks v.origin
  self : ∀ p ∈ v.st.linked, (v.st.data p).callback = some .repeatingUpcall → (v.st.data p).ud = p
  ref : ∀ p, (v.st.data p).reference = alarmInternalRead (v.ref p)
  initialised : ∀ p ∈ v.st.linked, v.st.initialised p = true

/-- Everything a step of the model can do. -/
inductive Effect (v : World Schedule) : Action → World Schedule → List Event → Prop
  /-- The clock advances, a `bool` is written, or a yield finds no task. -/
  | quiet {act : Action} {time : ℕ} (flags : Ptr → Bool)
      (hact : (∃ d, act = .tick d) ∨ (∃ p b, act = .setFlag p b) ∨ act = .yield ∧ v.st.tasks = [])
      (ht : v.time ≤ time) :
      Effect v act { v with st := { v.st with flags }, time } []
  /-- `alarm_at` and `timer_in`. -/
  | oneShot {act : Action} {ref : ℕ} {dt : U32} {cb : Option Callback} {ud x : Ptr}
      (hact : act = .alarmAt ref dt cb ud x ∨
        (∃ ms, act = .timerIn ms cb ud x ∧ dt = ticks ms v.st.frequency) ∧ ref = v.time)
      (hx : x ∉ v.st.linked) :
      Effect v act
        { v with
          st := v.st.link x ⟨alarmInternalRead ref, dt, cb.map .user, ud⟩
          ref := Function.update v.ref x ref
          use := Function.update v.use x .oneShot } [.armed x]
  | periodic {ms : U32} {cb : Callback} {ud x : Ptr} (hx : x ∉ v.st.linked) :
      Effect v (.timerEvery ms cb ud x)
        { v with
          st := { v.st with
            timers := Function.update v.st.timers x ⟨ticks ms v.st.frequency, cb, ud⟩ }.link x
              ⟨alarmInternalRead v.time, ticks ms v.st.frequency, some .repeatingUpcall, x⟩
          ref := Function.update v.ref x v.time
          use := Function.update v.use x .periodic } [.armed x]
  | cancel {act : Action} {x : Ptr} (hact : act.cancels = some x)
      (hi : v.st.initialised x = true) :
      Effect v act
        { v with st := v.st.unlink x, use := Function.update v.use x .cancelled } [.cancelled x]
  | upcall {adv : ℕ → ℕ} {time : ℕ} {alarmSet : Option (U32 × U32)} {es : List (Ptr × ℕ)}
      {queued : List (TockTask Upcall × Option Ptr)}
      (hes : es = expired v.st.data v.st.linked v.time adv)
      (hqueued : queued = (es.filterMap (taskOf v.st.data)).take (15 - v.st.tasks.length))
      (ht : v.time ≤ time) (hes_le : ∀ e ∈ es, e.2 ≤ time)
      (hset : alarmSet = (((v.st.linked.drop es.length).head?.map fun r =>
        ((v.st.data r).reference, (v.st.data r).dt)) <|> v.st.alarmSet)) :
      Effect v (.upcall adv)
        { v with
          st := { v.st with
            linked := v.st.linked.drop es.length
            tasks := v.st.tasks ++ queued.map Prod.fst
            alarmSet }
          time
          origin := v.origin ++ queued.map Prod.snd }
        ((logOf v.st.data es (15 - v.st.tasks.length)).map .popped)
  | refused {cb : Callback} {arg0 arg1 arg2 : U32} {ud : Ptr} (hfull : v.st.tasks.length = 15) :
      Effect v (.enqueue cb arg0 arg1 arg2 ud) v [.enqueued ⟨.user cb, arg0, arg1, arg2, ud⟩ false]
  | enqueue {cb : Callback} {arg0 arg1 arg2 : U32} {ud : Ptr} (hroom : v.st.tasks.length ≠ 15) :
      Effect v (.enqueue cb arg0 arg1 arg2 ud)
        { v with
          st := { v.st with tasks := v.st.tasks ++ [⟨.user cb, arg0, arg1, arg2, ud⟩] }
          origin := v.origin ++ [none] } [.enqueued ⟨.user cb, arg0, arg1, arg2, ud⟩ true]
  /-- A yield that starts a callback of the application. -/
  | user {task : TockTask Upcall} {tasks : List (TockTask Upcall)} {o : Option Ptr}
      {origin : List (Option Ptr)} {cb : Callback} (flags : Ptr → Bool)
      (htasks : v.st.tasks = task :: tasks) (horigin : v.origin = o :: origin)
      (hcb : task.cb = .user cb) :
      Effect v .yield
        { v with
          st := { v.st with tasks, flags }
          origin
          use := useAfterStart v.use (.user cb) o } [.started task o]
  /-- A yield that starts `repeating_upcall`. -/
  | repeating {task : TockTask Upcall} {tasks : List (TockTask Upcall)}
      {origin : List (Option Ptr)} {r : TockTimer} {curExp : U32} (flags : Ptr → Bool)
      (htasks : v.st.tasks = task :: tasks) (horigin : v.origin = some task.ud :: origin)
      (hcb : task.cb = .repeatingUpcall) (hx : task.ud ∉ v.st.linked)
      (hr : r = v.st.timers task.ud)
      (hexp : curExp = (v.st.data task.ud).reference + r.interval) :
      Effect v .yield
        { v with
          st := { v.st with tasks, flags }.link task.ud
            ⟨curExp, r.interval, some .repeatingUpcall, task.ud⟩
          ref := Function.update v.ref task.ud (v.ref task.ud + r.interval.toNat)
          origin
          use := useAfterStart v.use .repeatingUpcall (some task.ud) }
        [.started task (some task.ud), .periodic ⟨task.ud, r.cb, task.arg0, curExp, r.ud⟩]

variable {v v' : World Schedule} {a : Action} {es : List Event}

lemma exists_invoke (cb : Callback) (ud : Ptr) (a : Schedule) :
    ∃ flags, a.invoke cb ud = { a with flags } := by
  cases cb with
  | yieldForTimeoutUpcall => exact ⟨_, rfl⟩
  | app f => exact ⟨a.flags, rfl⟩

lemma start_effect {task : TockTask Upcall} {tasks : List (TockTask Upcall)} (h : Sound v)
    (htasks : v.st.tasks = task :: tasks)
    (hstart : start schedule task { v with st := { v.st with tasks } } = .ok (v', es)) :
    Effect v .yield v' es := by
  have horigins := h.origin
  rw [htasks] at horigins
  cases ho : v.origin with
  | nil => rw [ho] at horigins; cases horigins
  | cons o origin =>
    rw [ho] at horigins
    have hself := (List.forall₂_cons.mp horigins).1
    obtain ⟨c, arg0, arg1, arg2, ud⟩ := task
    simp only [start, ho, List.head?_cons, Option.join_some, List.tail_cons] at hstart
    cases c with
    | user cb =>
      cases hstart
      obtain ⟨flags, hflags⟩ := exists_invoke cb ud { v.st with tasks }
      simp only [schedule, hflags]
      exact .user flags htasks ho rfl
    | repeatingUpcall =>
      obtain rfl : o = some ud := hself rfl
      obtain ⟨⟨st, call⟩, hcall, heq⟩ := bind_eq_ok.mp hstart
      obtain ⟨st', hst, heq'⟩ := map_eq_ok.mp hcall
      cases heq'
      obtain ⟨hx, rfl⟩ := alarmAt_eq_ok.mp hst
      cases heq
      obtain ⟨flags, hflags⟩ := exists_invoke (v.st.timers ud).cb (v.st.timers ud).ud
        ({ v.st with tasks }.link ud ⟨(v.st.data ud).reference + (v.st.timers ud).interval,
          (v.st.timers ud).interval, some .repeatingUpcall, ud⟩)
      simp only [schedule, hflags]
      have heff := Effect.repeating flags htasks ho rfl hx rfl rfl
      exact heff

lemma Plan.effect (h : Sound v) (hplan : Plan v a v' es) : Effect v a v' es := by
  rw [Plan] at hplan
  cases a with
  | tick d =>
    cases hplan
    exact .quiet v.st.flags (Or.inl ⟨d, rfl⟩) (Nat.le_add_right _ _)
  | setFlag p b =>
    cases hplan
    exact .quiet _ (Or.inr (Or.inl ⟨p, b, rfl⟩)) le_rfl
  | alarmAt ref dt cb ud x =>
    obtain ⟨st, hst, heq⟩ := map_eq_ok.mp hplan
    cases heq
    obtain ⟨hx, rfl⟩ := alarmAt_eq_ok.mp hst
    exact .oneShot (Or.inl rfl) hx
  | timerIn ms cb ud x =>
    obtain ⟨st, hst, heq⟩ := map_eq_ok.mp hplan
    cases heq
    obtain ⟨hx, rfl⟩ := alarmAt_eq_ok.mp hst
    exact .oneShot (Or.inr ⟨⟨ms, rfl, rfl⟩, rfl⟩) hx
  | timerEvery ms cb ud x =>
    obtain ⟨st, hst, heq⟩ := map_eq_ok.mp hplan
    cases heq
    obtain ⟨hx, rfl⟩ := alarmAt_eq_ok.mp hst
    exact .periodic hx
  | alarmCancel x =>
    obtain ⟨st, hst, heq⟩ := map_eq_ok.mp hplan
    cases heq
    obtain ⟨hi, rfl⟩ := alarmCancel_eq_ok.mp hst
    exact .cancel rfl hi
  | timerCancel x =>
    obtain ⟨st, hst, heq⟩ := map_eq_ok.mp hplan
    cases heq
    obtain ⟨hi, rfl⟩ := alarmCancel_eq_ok.mp hst
    exact .cancel rfl hi
  | upcall adv =>
    obtain ⟨hst, hlog, horigin⟩ := serve_eq v.st.linked v.time adv v.st h.room
    rw [hlog] at horigin
    simp only [World.step, schedule, Schedule.callback, Except.map, hlog, horigin, hst,
      Except.ok.injEq, Prod.mk.injEq] at hplan
    obtain ⟨rfl, rfl⟩ := hplan
    exact .upcall (v := v) rfl rfl (serve_time_le _ _ _ _)
      (fun e he => expired_le_serve he) rfl
  | enqueue cb arg0 arg1 arg2 ud =>
    simp only [World.step, schedule, Schedule.enqueue, Except.ok.injEq, Prod.mk.injEq] at hplan
    obtain ⟨rfl, rfl⟩ := hplan
    by_cases hfull : v.st.tasks.length = 15
    · simp only [hfull, if_true, Bool.false_eq_true, if_false, List.append_nil]
      exact .refused hfull
    · simp only [hfull, if_false, if_true]
      exact .enqueue hfull
  | yield =>
    simp only [World.step, schedule, Schedule.dequeue] at hplan
    cases htasks : v.st.tasks with
    | nil =>
      simp only [htasks] at hplan
      cases hplan
      exact .quiet v.st.flags (Or.inr (Or.inr ⟨rfl, htasks⟩)) le_rfl
    | cons task tasks =>
      simp only [htasks] at hplan
      exact start_effect h htasks hplan

/-- The frequency of the clock never changes. -/
lemma Effect.frequency (heff : Effect v a v' es) : v'.st.frequency = v.st.frequency := by
  cases heff <;> rfl

lemma Effect.of_cancels {x : Ptr} (heff : Effect v a v' es) (hc : a.cancels = some x) :
    v' = { v with st := v.st.unlink x, use := Function.update v.use x .cancelled } ∧
      es = [.cancelled x] := by
  cases heff with
  | cancel hact hi =>
    rw [hact] at hc
    cases hc
    exact ⟨rfl, rfl⟩
  | quiet flags hact ht => rcases hact with ⟨_, rfl⟩ | ⟨_, _, rfl⟩ | ⟨rfl, _⟩ <;> cases hc
  | oneShot hact hx => rcases hact with rfl | ⟨⟨_, rfl, rfl⟩, rfl⟩ <;> cases hc
  | _ => cases hc

/-- An upcall pops the expired alarms and queues as many of their tasks as fit. -/
lemma Effect.of_upcall {adv : ℕ → ℕ} (heff : Effect v (.upcall adv) v' es) :
    let expd := expired v.st.data v.st.linked v.time adv
    let queued := (expd.filterMap (taskOf v.st.data)).take (15 - v.st.tasks.length)
    es = (logOf v.st.data expd (15 - v.st.tasks.length)).map .popped ∧
      v'.st.linked = v.st.linked.drop expd.length ∧
      v'.st.tasks = v.st.tasks ++ queued.map Prod.fst ∧
      v'.origin = v.origin ++ queued.map Prod.snd ∧ ∀ e ∈ expd, e.2 ≤ v'.time := by
  cases heff with
  | upcall hes hqueued ht hle hset =>
    subst hes hqueued
    exact ⟨rfl, rfl, rfl, rfl, hle⟩
  | quiet flags hact ht => rcases hact with ⟨_, h⟩ | ⟨_, _, h⟩ | ⟨h, _⟩ <;> cases h
  | oneShot hact hx => rcases hact with h | ⟨⟨_, h, _⟩, _⟩ <;> cases h
  | cancel hact hi => cases hact

/-- A timer whose callback is called has just been armed again. -/
lemma Effect.of_periodic {call : PeriodicCall} (heff : Effect v a v' es)
    (hcall : .periodic call ∈ es) :
    a = .yield ∧ call.timer ∈ v'.st.linked ∧
      call.expiration = (v'.st.data call.timer).reference := by
  cases heff with
  | repeating flags htasks horigin hcb hx hr hexp =>
    obtain rfl : call = _ := by simpa using hcall
    simp
  | _ => simp at hcall

/-! ### The basic invariant -/

/-- Arming an alarm that is not linked. -/
lemma Sound.link (h : Sound v) {x : Ptr} {d : AlarmData} {n : ℕ} (hx : x ∉ v.st.linked)
    (hself : d.callback = some .repeatingUpcall → d.ud = x)
    (href : d.reference = alarmInternalRead n) (timers : Ptr → TockTimer) (flags : Ptr → Bool)
    (use : Ptr → Use) :
    Sound { v with
      st := { v.st with timers, flags }.link x d
      ref := Function.update v.ref x n
      use } := by
  refine ⟨?_, h.room, h.origin, ?_, ?_, ?_⟩
  · exact (perm_link _ _ _).nodup_iff.mpr (List.nodup_cons.mpr ⟨hx, h.nodup⟩)
  · intro p hp hcb
    by_cases hpx : p = x
    · subst hpx
      simp only [data_link, Function.update_self] at hcb ⊢
      exact hself hcb
    · simp only [data_link, Function.update_of_ne hpx] at hcb ⊢
      exact h.self p ((mem_link _ _ _).mp hp |>.resolve_left hpx) hcb
  · intro p
    by_cases hpx : p = x
    · subst hpx
      simp [href]
    · simp [Function.update_of_ne hpx, h.ref p]
  · intro p hp
    by_cases hpx : p = x
    · simp [Schedule.link, hpx]
    · simpa [Schedule.link, Function.update_of_ne hpx] using
        h.initialised p (((mem_link _ _ _).mp hp).resolve_left hpx)

/-- Taking the oldest task out of the queue. -/
lemma Sound.start (h : Sound v) {task : TockTask Upcall} {tasks : List (TockTask Upcall)}
    {o : Option Ptr} {origin : List (Option Ptr)} (htasks : v.st.tasks = task :: tasks)
    (horigin : v.origin = o :: origin) (flags : Ptr → Bool) (use : Ptr → Use) :
    Sound { v with st := { v.st with tasks, flags }, origin, use } := by
  have hroom := h.room
  have horigins := h.origin
  rw [htasks] at hroom horigins
  rw [horigin] at horigins
  exact ⟨h.nodup, by simp at hroom ⊢; omega, (List.forall₂_cons.mp horigins).2, h.self,
    h.ref, h.initialised⟩

/-- The tasks that `callback` makes, with the alarms they come from. -/
lemma taskOf_spec {data : Ptr → AlarmData} {l : List (Ptr × ℕ)} {q : TockTask Upcall × Option Ptr}
    (hq : q ∈ l.filterMap (taskOf data)) :
    ∃ x t cb, (x, t) ∈ l ∧ (data x).callback = some cb ∧
      q = (upcallTask (data x) t cb, some x) := by
  obtain ⟨⟨x, t⟩, hx, htask⟩ := List.mem_filterMap.mp hq
  obtain ⟨cb, hcb, rfl⟩ := Option.map_eq_some_iff.mp htask
  exact ⟨x, t, cb, hx, hcb, rfl⟩

lemma mem_linked_of_mem_expired {data : Ptr → AlarmData} {l : List Ptr} {t : ℕ} {adv : ℕ → ℕ}
    {e : Ptr × ℕ} (he : e ∈ expired data l t adv) : e.1 ∈ l := by
  rw [← expired_append_drop data l t adv]
  exact List.mem_append_left _ (List.mem_map_of_mem he)

lemma Sound.self_of_expired (h : Sound v) {adv : ℕ → ℕ} {expd : List (Ptr × ℕ)}
    (hes : expd = expired v.st.data v.st.linked v.time adv) :
    ∀ e ∈ expd, (v.st.data e.1).callback = some .repeatingUpcall → (v.st.data e.1).ud = e.1 := by
  intro e he
  rw [hes] at he
  exact h.self _ (mem_linked_of_mem_expired he)

lemma Effect.sound (h : Sound v) (heff : Effect v a v' es) : Sound v' := by
  cases heff with
  | quiet flags hact ht => exact ⟨h.nodup, h.room, h.origin, h.self, h.ref, h.initialised⟩
  | refused hfull => exact h
  | oneShot hact hx =>
    refine h.link hx (?_) rfl v.st.timers v.st.flags _
    intro hcb
    obtain ⟨_, _, hc⟩ := Option.map_eq_some_iff.mp hcb
    cases hc
  | periodic hx => exact h.link hx (fun _ => rfl) rfl _ v.st.flags _
  | cancel hact hi =>
    exact ⟨h.nodup.erase _, h.room, h.origin, fun p hp => h.self p (List.mem_of_mem_erase hp),
      h.ref, fun p hp => h.initialised p (List.mem_of_mem_erase hp)⟩
  | @upcall adv time alarmSet expd queued hes hqueued ht hle hset =>
    refine ⟨h.nodup.sublist (List.drop_sublist _ _), ?_, ?_,
      fun p hp => h.self p (List.mem_of_mem_drop hp), h.ref,
      fun p hp => h.initialised p (List.mem_of_mem_drop hp)⟩
    · have := h.room
      simp [hqueued]
      omega
    · apply List.rel_append h.origin
      rw [List.forall₂_map_left_iff, List.forall₂_map_right_iff, List.forall₂_same]
      intro q hq hcb
      rw [hqueued] at hq
      obtain ⟨x, t, cb, hx, hxcb, rfl⟩ := taskOf_spec (List.mem_of_mem_take hq)
      obtain rfl : cb = .repeatingUpcall := hcb
      rw [hes] at hx
      exact congrArg some (h.self x (mem_linked_of_mem_expired hx) hxcb).symm
  | enqueue hroom =>
    refine ⟨h.nodup, ?_, ?_, h.self, h.ref, h.initialised⟩
    · have := h.room
      simp
      omega
    · refine List.rel_append h.origin (List.Forall₂.cons (?_) .nil)
      intro hcb
      cases hcb
  | user flags htasks horigin hcb => exact h.start htasks horigin _ _
  | repeating flags htasks horigin hcb hx hr hexp =>
    refine (h.start htasks horigin flags v.use).link hx (fun _ => rfl) ?_ v.st.timers flags _
    rw [hexp, h.ref]
    exact (Clock.ofNat_add_toNat _ _).symm

lemma Initial.sound {w : World State} (h : Initial w) : Sound (Initial.plan w) :=
  ⟨List.nodup_nil, Nat.zero_le _, .nil, fun p hp => (by cases hp), h.ref,
    fun p hp => (by cases hp)⟩

/-- An invariant of the effects holds along every run of the model. -/
lemma Sound.run {Q : World Schedule → Action → Prop} (J : List Event → World Schedule → Prop)
    (hJ : ∀ tr v a v' es, Sound v → J tr v → Q v a → Effect v a v' es → J (tr ++ es) v')
    (hv : Sound v) (h0 : J [] v) (hrun : Run (Guarded Plan Q) v es v') : Sound v' ∧ J es v' := by
  refine hrun.trace_invariant (fun tr v => Sound v ∧ J tr v) ?_ ⟨hv, h0⟩
  rintro tr v a v' es ⟨hv, htr⟩ ⟨hQ, hplan⟩
  have heff := hplan.effect hv
  exact ⟨heff.sound hv, hJ tr v a v' es hv htr hQ heff⟩

/-- Every memory that a run of the code reaches stores a schedule that satisfies the invariant. -/
lemma Initial.run {P : World State → Action → Prop} {Q : World Schedule → Action → Prop}
    (J : List Event → World Schedule → Prop)
    (hJ : ∀ tr v a v' es, Sound v → J tr v → Q v a → Effect v a v' es → J (tr ++ es) v')
    (hPQ : ∀ w v a, Stores w v → P w a → Q v a) {w₀ w : World State} {tr : List Event}
    (h₀ : Initial w₀) (hJ₀ : J [] (Initial.plan w₀)) (hrun : Run (Guarded Step P) w₀ tr w) :
    ∃ v, Stores w v ∧ Sound v ∧ J tr v := by
  obtain ⟨v, hst, hplan⟩ := World.Run.plan hPQ h₀.stores hrun
  exact ⟨v, hst, h₀.sound.run J hJ hJ₀ hplan⟩

lemma Initial.reach {w₀ w : World State} {tr : List Event} (h₀ : Initial w₀)
    (hrun : Run Step w₀ tr w) : ∃ v, Stores w v ∧ Sound v := by
  obtain ⟨v, hst, hv, -⟩ := h₀.run (P := fun _ _ => True) (Q := fun _ _ => True) (fun _ _ => True)
    (fun _ _ _ _ _ _ _ _ _ => trivial) (fun _ _ _ _ h => h) trivial
    (hrun.mono fun _ _ _ _ h => ⟨trivial, h⟩)
  exact ⟨v, hst, hv⟩

/-! ### Timers that wait to be armed again -/

/-- The timers whose `repeating_upcall` is among the tasks. -/
def rearming (tasks : List (TockTask Upcall)) : List Ptr :=
  tasks.filterMap fun k => if k.cb = .repeatingUpcall then some k.ud else none

@[simp] lemma rearming_nil : rearming [] = [] := rfl

lemma rearming_cons_repeating {task : TockTask Upcall} (hcb : task.cb = .repeatingUpcall)
    (tasks : List (TockTask Upcall)) : rearming (task :: tasks) = task.ud :: rearming tasks := by
  simp [rearming, hcb]

lemma rearming_cons_user {task : TockTask Upcall} {cb : Callback} (hcb : task.cb = .user cb)
    (tasks : List (TockTask Upcall)) : rearming (task :: tasks) = rearming tasks := by
  simp [rearming, hcb]

@[simp] lemma rearming_append (tasks tasks' : List (TockTask Upcall)) :
    rearming (tasks ++ tasks') = rearming tasks ++ rearming tasks' := List.filterMap_append

@[simp] lemma rearming_user (cb : Callback) (arg0 arg1 arg2 : U32) (ud : Ptr) :
    rearming [⟨.user cb, arg0, arg1, arg2, ud⟩] = [] := rearming_cons_user rfl []

/-- Each of the timers that `callback` adds is an expired alarm with `repeating_upcall`. -/
lemma mem_rearming_queued {data : Ptr → AlarmData} {es : List (Ptr × ℕ)} {n : ℕ} {x : Ptr}
    (hself : ∀ e ∈ es, (data e.1).callback = some .repeatingUpcall → (data e.1).ud = e.1)
    (hx : x ∈ rearming (((es.filterMap (taskOf data)).take n).map Prod.fst)) :
    ∃ t, (x, t) ∈ es ∧ (data x).callback = some .repeatingUpcall := by
  obtain ⟨k, hk, hkx⟩ := List.mem_filterMap.mp hx
  obtain ⟨q, hq, rfl⟩ := List.mem_map.mp hk
  obtain ⟨y, t, cb, hy, hycb, rfl⟩ := taskOf_spec (List.mem_of_mem_take hq)
  split_ifs at hkx with hcb
  obtain rfl : cb = .repeatingUpcall := hcb
  cases hkx
  have hud : (upcallTask (data y) t .repeatingUpcall).ud = y := hself _ hy hycb
  rw [hud]
  exact ⟨t, hy, hycb⟩

/-- They are added in the order of the list, each once. -/
lemma rearming_queued_sublist {data : Ptr → AlarmData} {es : List (Ptr × ℕ)} {n : ℕ}
    (hself : ∀ e ∈ es, (data e.1).callback = some .repeatingUpcall → (data e.1).ud = e.1) :
    (rearming (((es.filterMap (taskOf data)).take n).map Prod.fst)).Sublist (es.map Prod.fst) := by
  apply (((List.take_sublist n _).map Prod.fst).filterMap _).trans
  induction es with
  | nil => exact List.Sublist.slnil
  | cons e es ih =>
    have ih := ih fun e' he' => hself e' (List.mem_cons_of_mem _ he')
    have hself := hself e List.mem_cons_self
    cases hcb : (data e.1).callback with
    | none => simpa [taskOf, hcb] using ih.cons e.1
    | some cb =>
      cases cb with
      | user cb => simpa [taskOf, hcb, upcallTask] using ih.cons e.1
      | repeatingUpcall => simpa [taskOf, hcb, upcallTask, hself hcb] using ih.cons_cons e.1

/-- The alarms whose tasks `callback` queued are in the order of the list, each once. -/
lemma origin_queued_sublist (data : Ptr → AlarmData) (es : List (Ptr × ℕ)) (n : ℕ) :
    (((es.filterMap (taskOf data)).take n).map Prod.snd).reduceOption.Sublist
      (es.map Prod.fst) := by
  apply (((List.take_sublist n _).map Prod.snd).filterMap _).trans
  induction es with
  | nil => exact List.Sublist.slnil
  | cons e es ih =>
    cases hcb : (data e.1).callback with
    | none => simpa [taskOf, hcb] using ih.cons e.1
    | some cb => simpa [taskOf, hcb] using ih.cons_cons e.1

/-! ### When a step exists -/

/-- The alarm that an action passes to `alarm_at`, also from `repeating_upcall`. -/
def arms (tasks : List (TockTask Upcall)) : Action → Option Ptr
  | .yield => tasks.head?.bind fun k => if k.cb = .repeatingUpcall then some k.ud else none
  | a => a.starts

/-- Only arming a linked alarm and cancelling one that is not initialised have no result. -/
lemma exists_plan (ha : ∀ x, arms v.st.tasks a = some x → x ∉ v.st.linked)
    (hc : ∀ x, a.cancels = some x → v.st.initialised x = true) : ∃ v' es, Plan v a v' es := by
  have halarm : ∀ (st : Schedule) x reference dt cb ud, st.linked = v.st.linked →
      arms v.st.tasks a = some x →
      st.alarmAt reference dt cb ud x = .ok (st.link x ⟨reference, dt, cb, ud⟩) :=
    fun st x _ _ _ _ hst hx => alarmAt_eq_ok.mpr ⟨by rw [hst]; exact ha x hx, rfl⟩
  have hcancel : ∀ x, a.cancels = some x → v.st.alarmCancel x = .ok (v.st.unlink x) :=
    fun x hx => alarmCancel_eq_ok.mpr ⟨hc x hx, rfl⟩
  cases a with
  | tick d => exact ⟨_, _, rfl⟩
  | setFlag p b => exact ⟨_, _, rfl⟩
  | enqueue cb arg0 arg1 arg2 ud => exact ⟨_, _, rfl⟩
  | upcall adv => exact ⟨_, _, rfl⟩
  | alarmAt ref dt cb ud x => exact ⟨_, _, map_eq_ok.mpr ⟨_, halarm _ x _ _ _ _ rfl rfl, rfl⟩⟩
  | timerIn ms cb ud x => exact ⟨_, _, map_eq_ok.mpr ⟨_, halarm _ x _ _ _ _ rfl rfl, rfl⟩⟩
  | timerEvery ms cb ud x => exact ⟨_, _, map_eq_ok.mpr ⟨_, halarm _ x _ _ _ _ rfl rfl, rfl⟩⟩
  | alarmCancel x => exact ⟨_, _, map_eq_ok.mpr ⟨_, hcancel x rfl, rfl⟩⟩
  | timerCancel x => exact ⟨_, _, map_eq_ok.mpr ⟨_, hcancel x rfl, rfl⟩⟩
  | yield =>
    simp only [Plan, World.step, schedule, Schedule.dequeue]
    cases htasks : v.st.tasks with
    | nil => exact ⟨_, _, rfl⟩
    | cons task tasks =>
      obtain ⟨c, arg0, arg1, arg2, ud⟩ := task
      cases c with
      | user cb => exact ⟨_, _, rfl⟩
      | repeatingUpcall =>
        exact ⟨_, _, bind_eq_ok.mpr ⟨_, map_eq_ok.mpr ⟨_, halarm { v.st with tasks } ud _ _ _ _ rfl
          (by simp [arms, htasks]), rfl⟩, rfl⟩⟩

/-- No step arms a linked alarm. -/
lemma Effect.not_mem_of_arms {x : Ptr} (heff : Effect v a v' es)
    (hx : arms v.st.tasks a = some x) : x ∉ v.st.linked := by
  cases heff with
  | quiet flags hact ht =>
    rcases hact with ⟨_, rfl⟩ | ⟨_, _, rfl⟩ | ⟨rfl, htasks⟩
    · cases hx
    · cases hx
    · simp [arms, htasks] at hx
  | oneShot hact hn =>
    rcases hact with rfl | ⟨⟨_, rfl, _⟩, _⟩ <;> · cases hx; exact hn
  | periodic hn => cases hx; exact hn
  | cancel hact hi => cases a <;> first | cases hact; done | cases hx
  | user flags htasks horigin hcb => simp [arms, htasks, hcb] at hx
  | repeating flags htasks horigin hcb hn hr hexp =>
    simp only [arms, htasks, List.head?_cons, Option.bind_some, hcb, if_true] at hx
    cases hx
    exact hn
  | _ => cases hx

end World

end Alarm
