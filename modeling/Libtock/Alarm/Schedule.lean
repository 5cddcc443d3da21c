import Libtock.Alarm.State
import Mathlib.Data.List.Sort

/-!
# What the alarm library is for: an abstract model

A `Schedule` is the library without pointers: the alarms that are armed, in the order in which
they will be served, and the tasks that wait, oldest first. Its operations do what those of
`State` are meant to do to the list and the queue they represent. Arming an alarm that is armed
already has no result; in the code the walk over the list then never ends.
-/

namespace Alarm

open Tock

structure Schedule where
  /-- The armed alarms in the order of the list. -/
  linked : List Ptr
  data : Ptr → AlarmData
  timers : Ptr → TockTimer
  /-- The waiting tasks, oldest first. -/
  tasks : List (TockTask Upcall)
  frequency : U32
  subscribed : Bool
  alarmSet : Option (U32 × U32)
  flags : Ptr → Bool
  initialised : Ptr → Bool

/-- The place of alarm `n` among the alarms `l`: before the first one that is not due earlier. -/
def insertAlarm (data : Ptr → AlarmData) (n : Ptr) (l : List Ptr) : List Ptr :=
  l.orderedInsert (fun a b => insertsBefore (data a) (data b) = true) n

namespace Schedule

def alarmAt (reference dt : U32) (cb : Option Upcall) (ud : Ptr) (alarm : Ptr) (a : Schedule) :
    Result Schedule :=
  if alarm ∈ a.linked then
    .error .outOfFuel
  else
    let data := Function.update a.data alarm ⟨reference, dt, cb, ud⟩
    let linked := insertAlarm data alarm a.linked
    let a := { a with data, linked, initialised := Function.update a.initialised alarm true }
    if linked.head? = some alarm then
      .ok { a with subscribed := true, alarmSet := some (reference, dt) }
    else
      .ok a

def alarmCancel (alarm : Ptr) (a : Schedule) : Result Schedule :=
  if a.initialised alarm then
    let linked := a.linked.erase alarm
    if a.linked.head? = some alarm then
      .ok { a with
        linked
        alarmSet :=
          (linked.head?.map fun r => ((a.data r).reference, (a.data r).dt)) <|> a.alarmSet }
    else
      .ok { a with linked }
  else
    .error .uninitialised

def enqueue (cb : Upcall) (arg0 arg1 arg2 : U32) (ud : Ptr) (a : Schedule) : Bool × Schedule :=
  if a.tasks.length = 15 then (false, a)
  else (true, { a with tasks := a.tasks ++ [⟨cb, arg0, arg1, arg2, ud⟩] })

def dequeue (a : Schedule) : Option (TockTask Upcall × Schedule) :=
  match a.tasks with
  | [] => none
  | task :: tasks => some (task, { a with tasks })

/-- `callback` on the alarms `l`: serves the expired ones until the first that has not expired. -/
def serve : List Ptr → ℕ → (ℕ → ℕ) → Schedule → Schedule × ℕ × List Popped
  | [], t, _, a => ({ a with linked := [] }, t, [])
  | x :: l, t, adv, a =>
    let t := t + adv 0
    let now := alarmInternalRead t
    if now - (a.data x).reference < (a.data x).dt then
      ({ a with linked := x :: l, alarmSet := some ((a.data x).reference, (a.data x).dt) }, t, [])
    else
      match (a.data x).callback with
      | some cb =>
        let (accepted, a) :=
          a.enqueue cb now ((a.data x).reference + (a.data x).dt) 0 (a.data x).ud
        let r := serve l t (adv ∘ Nat.succ) a
        (r.1, r.2.1, ⟨x, t, some accepted⟩ :: r.2.2)
      | none =>
        let r := serve l t (adv ∘ Nat.succ) a
        (r.1, r.2.1, ⟨x, t, none⟩ :: r.2.2)

def callback (t : ℕ) (adv : ℕ → ℕ) (a : Schedule) : Schedule × ℕ × List Popped :=
  serve a.linked t adv a

def timerIn (t : ℕ) (ms : U32) (cb : Option Callback) (ud timer : Ptr) (a : Schedule) :
    Result Schedule :=
  a.alarmAt (alarmInternalRead t) (ticks ms a.frequency) (cb.map .user) ud timer

def timerEvery (t : ℕ) (ms : U32) (cb : Callback) (ud repeating : Ptr) (a : Schedule) :
    Result Schedule :=
  let interval := ticks ms a.frequency
  { a with timers := Function.update a.timers repeating ⟨interval, cb, ud⟩ }.alarmAt
    (alarmInternalRead t) interval (some .repeatingUpcall) repeating repeating

def repeatingUpcall (now : U32) (repeating : Ptr) (a : Schedule) :
    Result (Schedule × PeriodicCall) :=
  let r := a.timers repeating
  let curExp := (a.data repeating).reference + r.interval
  (a.alarmAt curExp r.interval (some .repeatingUpcall) repeating repeating).map fun a =>
    (a, ⟨repeating, r.cb, now, curExp, r.ud⟩)

def invoke (cb : Callback) (ud : Ptr) (a : Schedule) : Schedule :=
  match cb with
  | .yieldForTimeoutUpcall => { a with flags := Function.update a.flags ud true }
  | .app _ => a

end Schedule

end Alarm
