import Libtock.Core.Run
import Libtock.UnitTest.Callbacks

/-!
# Runners and the supervisor

Any number of processes, each of which calls `unit_test_runner` once, and the process of the
supervisor. Messages, notifications, expired timers and the processes themselves take turns in any
order. A callback of the supervisor starts when nothing runs there, or while another one prints.
-/

namespace UnitTest

open Core Tock

/-- The processes, known by the address of their object. -/
structure Processes where
  pid : Ptr → ℤ
  pid_injective : Function.Injective pid
  arguments : Ptr → Arguments

structure World where
  supervisor : Supervisor
  pc : Ptr → Pc
  /-- `done` -/
  done : Ptr → Bool
  /-- Messages to the supervisor that are on their way. -/
  messages : Ptr → ℕ
  /-- Notifications that are on their way, for each process number. -/
  notifications : ℤ → ℕ
  /-- The timers that run. -/
  armed : Ptr → Bool
  /-- Timers that have expired, as tasks in the queue. -/
  expired : Ptr → ℕ
  /-- The callbacks of the supervisor that are not done, innermost first. -/
  stack : List Frame

inductive Note
  | asks (pid : ℤ) (y : Sync)
  | wakes (pid : ℤ) (y : Sync)
  /-- `unit_test_service_callback` starts, with this `test->cmd` and `test->current`. -/
  | handles (pid : ℤ) (cmd : UnitTestCmd) (current : U32)
  /-- `timeout_callback` starts, with this `test->current`. -/
  | expires (pid : ℤ) (current : U32)
  | does (e : Event)
  deriving DecidableEq

inductive Action
  /-- The process calls `unit_test_runner`. -/
  | call (p : Ptr)
  | access (p : Ptr)
  | notify (p : Ptr)
  | wake (p : Ptr)
  /-- The test function returns. -/
  | finish (p : Ptr) (passed : Bool) (failureReason : Fin 72 → U8)
  /-- `continue_callback` -/
  | continueCallback (p : Ptr)
  /-- The timer of the object expires. -/
  | expire (p : Ptr)
  /-- `unit_test_service_callback` for a message of the process. -/
  | service (p : Ptr)
  /-- `timeout_callback` -/
  | timeout (p : Ptr)
  /-- The innermost callback goes on. -/
  | resume

namespace World

/-- `unit_test_service` has run, and no process has called `unit_test_runner`. -/
def initial (s : Supervisor) : World where
  supervisor := s.unitTestService
  pc := fun _ => .notCalled
  done := fun _ => false
  messages := fun _ => 0
  notifications := fun _ => 0
  armed := fun _ => false
  expired := fun _ => 0
  stack := []

/-- What the kernel does for the supervisor. -/
def perform (w : World) : Event → World
  | .ipcNotifyClient pid =>
    { w with notifications := Function.update w.notifications pid (w.notifications pid + 1) }
  | .timerIn _ test => { w with armed := Function.update w.armed test true }
  | .timerCancel test => { w with armed := Function.update w.armed test false }
  | .printResult _ _ _ _ | .printSummary _ _ _ _ _ => w

/-- A part of a callback, the stack being what is below it. -/
def carryOut (w : World) (r : Part) (stack : List Frame) : World :=
  r.events.foldl perform { w with supervisor := r.supervisor, stack := r.frames ++ stack }

/-- Whether the supervisor can take an upcall or a task. -/
def supervisorYields (w : World) : Bool := w.stack.head?.all Frame.yields

def step (c : Processes) (find : Search) (w : World) : Action → Option (World × List Note)
  | .call p =>
    if w.pc p = .notCalled then
      some ({ w with
        supervisor := w.supervisor.update p fun _ => (c.arguments p).initialTest
        pc := Function.update w.pc p (.setsCmd .testInit) }, [])
    else none
  | .access p =>
    match (w.pc p).access (c.arguments p) (w.supervisor.tests p) with
    | some (pc, test) =>
      some ({ w with
        supervisor := w.supervisor.update p fun _ => test
        pc := Function.update w.pc p pc }, [])
    | none => none
  | .notify p =>
    match w.pc p with
    | .notifies y =>
      some ({ w with
        pc := Function.update w.pc p (.waits y)
        done := Function.update w.done p false
        messages := Function.update w.messages p (w.messages p + 1) }, [.asks (c.pid p) y])
    | _ => none
  | .wake p =>
    match w.pc p with
    | .waits y =>
      if w.done p then
        some ({ w with pc := Function.update w.pc p y.next }, [.wakes (c.pid p) y])
      else none
    | _ => none
  | .finish p passed reason =>
    match w.pc p with
    | .runsTest i =>
      some ({ w with pc := Function.update w.pc p (.readsResult i passed reason) }, [])
    | _ => none
  | .continueCallback p =>
    if 0 < w.notifications (c.pid p) ∧ (w.pc p).yields = true then
      some ({ w with
        notifications :=
          Function.update w.notifications (c.pid p) (w.notifications (c.pid p) - 1)
        done := Function.update w.done p true }, [])
    else none
  | .expire p =>
    if w.armed p then
      some ({ w with
        armed := Function.update w.armed p false
        expired := Function.update w.expired p (w.expired p + 1) }, [])
    else none
  | .service p =>
    if 0 < w.messages p ∧ w.supervisorYields = true then
      (w.supervisor.beginService find (c.pid p) p).map fun r =>
        (({ w with messages := Function.update w.messages p (w.messages p - 1) } : World).carryOut r
            w.stack,
          .handles (c.pid p) (w.supervisor.tests p).cmd (w.supervisor.tests p).current ::
            r.events.map .does)
    else none
  | .timeout p =>
    if 0 < w.expired p ∧ w.supervisorYields = true then
      some (({ w with expired := Function.update w.expired p (w.expired p - 1) } : World).carryOut
          (w.supervisor.beginTimeout p) w.stack,
        [.expires (c.pid p) (w.supervisor.tests p).current])
    else none
  | .resume =>
    match w.stack with
    | f :: stack =>
      (w.supervisor.resume f).map fun r => (w.carryOut r stack, r.events.map .does)
    | [] => none

def Step (c : Processes) (find : Search) (w : World) (a : Action) (w' : World) (es : List Note) :
    Prop :=
  w.step c find a = some (w', es)

end World

end UnitTest
