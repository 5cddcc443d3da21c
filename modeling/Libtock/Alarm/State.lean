import Libtock.Tock.TaskQueue

/-!
# Alarms and timers: the code of `alarm_timer.c`

`State` holds the memory the file works on: the alarm and timer objects, its static variable
`root`, the task queue of `tock.c`, and what the kernel's alarm driver was last told. An alarm is
known by its address, a `tock_timer_t` by the address of its `alarm` member.

Every loop takes a bound on its number of iterations. A loop that does not end within it, a use of
a null pointer and a use of an alarm that was never initialised are faults.
-/

namespace Alarm

open Tock

/-- The functions a caller passes to `alarm_at`, `timer_in` and `timer_every`. -/
inductive Callback
  | yieldForTimeoutUpcall
  /-- A function of the application. -/
  | app (f : ℕ)
  deriving DecidableEq

/-- The functions an alarm or a task points to; `repeating_upcall` is private to the file. -/
inductive Upcall
  | repeatingUpcall
  | user (cb : Callback)
  deriving DecidableEq

/-- The fields of `alarm_t` that its owner sets. -/
structure AlarmData where
  reference : U32
  dt : U32
  callback : Option Upcall
  ud : Ptr
  deriving DecidableEq

/-- `alarm_t` -/
structure AlarmT extends AlarmData where
  next : Option Ptr
  prev : Option Ptr
  deriving DecidableEq

/-- The fields of `tock_timer_t` besides its `alarm`. -/
structure TockTimer where
  interval : U32
  cb : Callback
  ud : Ptr
  deriving DecidableEq

structure State where
  alarms : Ptr → AlarmT
  timers : Ptr → TockTimer
  root : Option Ptr
  queue : TaskQueue Upcall
  /-- The frequency `alarm_internal_frequency` answers. -/
  frequency : U32
  /-- Whether `callback` is subscribed. -/
  subscribed : Bool
  /-- The last `(reference, dt)` passed to `alarm_internal_set`. -/
  alarmSet : Option (U32 × U32)
  /-- The `bool` objects that waiting functions look at. -/
  flags : Ptr → Bool
  /-- The alarms whose fields have been written; the links of any other are indeterminate. -/
  initialised : Ptr → Bool

inductive Fault
  | outOfFuel
  | nullPointer
  | uninitialised
  deriving DecidableEq

abbrev Result := Except Fault

namespace State

def setRoot (v : Option Ptr) (s : State) : State := { s with root := v }

def setNext (p : Ptr) (v : Option Ptr) (s : State) : State :=
  { s with alarms := Function.update s.alarms p { s.alarms p with next := v } }

def setPrev (p : Ptr) (v : Option Ptr) (s : State) : State :=
  { s with alarms := Function.update s.alarms p { s.alarms p with prev := v } }

/-- `if (p != NULL) p->next = v` -/
def setNextOf (p v : Option Ptr) (s : State) : State :=
  match p with
  | some p => s.setNext p v
  | none => s

/-- `if (p != NULL) p->prev = v` -/
def setPrevOf (p v : Option Ptr) (s : State) : State :=
  match p with
  | some p => s.setPrev p v
  | none => s

def alarmInternalSubscribe (s : State) : State := { s with subscribed := true }

def alarmInternalSet (reference tics : U32) (s : State) : State :=
  { s with alarmSet := some (reference, tics) }

end State

/-- The value of `alarm_internal_read` at tick `t`. -/
def alarmInternalRead (t : ℕ) : U32 := BitVec.ofNat 32 t

/-! ### The list of alarms -/

/-- `within_range`; its result is used as a truth value. -/
def withinRange (a b c : U32) : Bool := b - a < b - c

/-- What `cur`, of type `alarm_t **`, points to in `root_insert`. -/
inductive Slot
  | root
  | nextOf (p : Ptr)

def Slot.load (s : State) : Slot → Option Ptr
  | .root => s.root
  | .nextOf p => (s.alarms p).next

def Slot.store (v : Option Ptr) (s : State) : Slot → State
  | .root => s.setRoot v
  | .nextOf p => s.setNext p v

/-- The test of `root_insert`: does the new alarm `a` go before the alarm `c`? -/
def insertsBefore (a c : AlarmData) : Bool :=
  let curExpiration := c.reference + c.dt
  let newExpiration := a.reference + a.dt
  !withinRange a.reference curExpiration newExpiration

/-- The `while` loop of `root_insert` and what follows it. -/
def rootInsertLoop (alarm : Ptr) : ℕ → Slot → Option Ptr → State → Result State
  | 0, _, _, _ => .error .outOfFuel
  | fuel + 1, cur, prev, s =>
    match cur.load s with
    | some tmp =>
      if insertsBefore (s.alarms alarm).toAlarmData (s.alarms tmp).toAlarmData then
        .ok ((((cur.store (some alarm) s).setNext alarm (some tmp)).setPrev alarm prev).setPrev tmp
          (some alarm))
      else
        rootInsertLoop alarm fuel (.nextOf tmp) (some tmp) s
    | none =>
      match prev with
      | some p => .ok (((s.setNext p (some alarm)).setPrev alarm (some p)).setNext alarm none)
      | none => .error .nullPointer

def rootInsert (fuel : ℕ) (alarm : Ptr) (s : State) : Result State :=
  if s.root = none then
    .ok (((s.setRoot (some alarm)).setNext alarm none).setPrev alarm none)
  else
    rootInsertLoop alarm fuel .root none s

def rootPop (s : State) : State :=
  match s.root with
  | none => s
  | some res =>
    let s := s.setRoot (s.alarms res).next
    let s := s.setPrevOf s.root none
    s.setNext res none

/-- The walk of `alarm_at` over the list, which counts its elements. -/
def countLoop : ℕ → Option Ptr → State → Result ℕ
  | 0, _, _ => .error .outOfFuel
  | _ + 1, none, _ => .ok 0
  | fuel + 1, some p, s => (countLoop fuel (s.alarms p).next s).map (· + 1)

def alarmAt (fuel : ℕ) (reference dt : U32) (cb : Option Upcall) (ud : Ptr) (alarm : Ptr)
    (s : State) : Result State := do
  let s := { s with
    alarms := Function.update s.alarms alarm ⟨⟨reference, dt, cb, ud⟩, none, none⟩
    initialised := Function.update s.initialised alarm true }
  let s ← rootInsert fuel alarm s
  let _ ← countLoop fuel s.root s
  if s.root = some alarm then
    .ok (s.alarmInternalSubscribe.alarmInternalSet (s.alarms alarm).reference (s.alarms alarm).dt)
  else
    .ok s

/-- The part of `alarm_cancel` that moves `root` past a cancelled head. -/
def advanceRoot (alarm : Ptr) (s : State) : State :=
  if s.root = some alarm then
    let s := s.setRoot (s.alarms alarm).next
    match s.root with
    | some r => s.alarmInternalSet (s.alarms r).reference (s.alarms r).dt
    | none => s
  else s

/-- The body of `alarm_cancel`, for an alarm whose links are not indeterminate. -/
def unlink (alarm : Ptr) (s : State) : State :=
  let s := s.setNextOf (s.alarms alarm).prev (s.alarms alarm).next
  let s := s.setPrevOf (s.alarms alarm).next (s.alarms alarm).prev
  let s := advanceRoot alarm s
  (s.setPrev alarm none).setNext alarm none

def alarmCancel (alarm : Ptr) (s : State) : Result State :=
  if s.initialised alarm then .ok (unlink alarm s) else .error .uninitialised

/-- `tock_enqueue` on the queue of the process, and whether it accepted the task. -/
def State.enqueue (cb : Upcall) (arg0 arg1 arg2 : U32) (ud : Ptr) (s : State) : Bool × State :=
  let (ret, queue) := tockEnqueue cb arg0 arg1 arg2 ud s.queue
  (ret ≠ -1, { s with queue })

/-- One alarm popped by `callback`: its address, the tick at which the clock was read, and whether
`tock_enqueue` accepted its task, if it was called. -/
structure Popped where
  alarm : Ptr
  tick : ℕ
  accepted : Option Bool
  deriving DecidableEq

/-- The kernel upcall `callback`, started at tick `t`. The clock advances by `adv k` ticks before
the `k`-th reading. Also yields the tick at its end and the alarms it popped. -/
def callback : ℕ → ℕ → (ℕ → ℕ) → State → Result (State × ℕ × List Popped)
  | 0, _, _, _ => .error .outOfFuel
  | fuel + 1, t, adv, s =>
    match s.root with
    | none => .ok (s, t, [])
    | some alarm =>
      let t := t + adv 0
      let now := alarmInternalRead t
      -- has the alarm not expired yet?
      if now - (s.alarms alarm).reference < (s.alarms alarm).dt then
        .ok (s.alarmInternalSet (s.alarms alarm).reference (s.alarms alarm).dt, t, [])
      else
        let s := rootPop s
        let a := s.alarms alarm
        match a.callback with
        | some cb =>
          let expiration := a.reference + a.dt
          let (accepted, s) := s.enqueue cb now expiration 0 a.ud
          (callback fuel t (adv ∘ Nat.succ) s).map fun r =>
            (r.1, r.2.1, ⟨alarm, t, some accepted⟩ :: r.2.2)
        | none =>
          (callback fuel t (adv ∘ Nat.succ) s).map fun r => (r.1, r.2.1, ⟨alarm, t, none⟩ :: r.2.2)

/-! ### Timers -/

/-- The interval in ticks that `timer_in` and `timer_every` compute. -/
def ticks (ms frequency : U32) : U32 :=
  (ms / 1000) * frequency + (ms % 1000) * (frequency / 1000)

def timerIn (fuel : ℕ) (t : ℕ) (ms : U32) (cb : Option Callback) (ud : Ptr) (timer : Ptr)
    (s : State) : Result State :=
  let interval := ticks ms s.frequency
  let now := alarmInternalRead t
  alarmAt fuel now interval (cb.map .user) ud timer s

def timerEvery (fuel : ℕ) (t : ℕ) (ms : U32) (cb : Callback) (ud : Ptr) (repeating : Ptr)
    (s : State) : Result State :=
  let interval := ticks ms s.frequency
  let s := { s with timers := Function.update s.timers repeating ⟨interval, cb, ud⟩ }
  let now := alarmInternalRead t
  alarmAt fuel now interval (some .repeatingUpcall) repeating repeating s

def timerCancel (timer : Ptr) (s : State) : Result State := alarmCancel timer s

/-- A call of an application callback from `repeating_upcall`. -/
structure PeriodicCall where
  timer : Ptr
  cb : Callback
  now : U32
  expiration : U32
  ud : Ptr
  deriving DecidableEq

/-- `repeating_upcall` up to its call of `repeating->cb`, and that call. -/
def repeatingUpcall (fuel : ℕ) (now : U32) (ud : Ptr) (s : State) :
    Result (State × PeriodicCall) := do
  let repeating := ud
  let interval := (s.timers repeating).interval
  let curExp := (s.alarms repeating).reference + interval
  let s ← alarmAt fuel curExp interval (some .repeatingUpcall) repeating repeating s
  let r := s.timers repeating
  .ok (s, ⟨repeating, r.cb, now, curExp, r.ud⟩)

/-- The body of a callback as far as it is part of the library: `yield_for_timeout_upcall` sets
the `bool` its `ud` points to. -/
def State.invoke (cb : Callback) (ud : Ptr) (s : State) : State :=
  match cb with
  | .yieldForTimeoutUpcall => { s with flags := Function.update s.flags ud true }
  | .app _ => s

/-- `__yield_check_tasks` on the queue of the process. -/
def State.dequeue (s : State) : Option (TockTask Upcall × State) :=
  (yieldCheckTasks s.queue).map fun r => (r.1, { s with queue := r.2 })

end Alarm
