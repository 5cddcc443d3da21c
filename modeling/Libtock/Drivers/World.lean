import Libtock.Core.History
import Libtock.Core.Run
import Libtock.Drivers.Library

/-!
# Calls inside calls

While a function waits in `yield_for`, upcalls of the application run, and they may call functions
of other drivers, which wait in turn. A driver answers each command it accepted with one upcall,
and its commands in the order of their calls; the upcall goes to the record that is subscribed when
it comes.
-/

namespace Drivers

open Core Tock

structure World where
  slots : Slots Cell Region
  /-- For each driver, the calls whose command is not answered yet. -/
  due : U32 → List ℕ
  /-- The callbacks that have filled in a record since its flag was cleared. -/
  cells : Cell → List UpcallArgs
  /-- The calls that wait, innermost first. -/
  stack : List (ℕ × Call)
  /-- The number of calls so far. -/
  calls : ℕ

inductive Action
  | call (c : Call) (k : Kernel)
  /-- A driver answers a command. -/
  | upcall (driver : U32) (args : UpcallArgs)
  /-- The innermost `yield_for` tests its condition; if it holds, its function returns. -/
  | test

deriving instance DecidableEq for UpcallArgs

inductive Event
  | called (n : ℕ) (c : Call)
  | refused (n : ℕ) (ret : ℤ)
  /-- The command of a call is answered. -/
  | answered (n : ℕ) (args : UpcallArgs)
  /-- A callback has filled in a local variable of a call that has returned. -/
  | dangling (n : ℕ)
  /-- A call returns, and stores values through its pointers. -/
  | returned (n : ℕ) (result : ℤ × List U32)
  deriving DecidableEq

namespace World

/-- At program start. -/
def initial : World := ⟨Slots.empty, fun _ => [], fun _ => [], [], 0⟩

/-- The callback writes to a variable that is gone. -/
def dangling (w : World) : Cell → List Event
  | .static _ => []
  | .onStack n => if n ∈ w.stack.map Prod.fst then [] else [.dangling n]

def exec (w : World) : Action → Option (World × List Event)
  | .call c k =>
    let n := w.calls
    let s := c.sync
    let (outcome, issued) := (s.program n).run k
    let w' := { w with
      slots := issued.foldl Slots.issue w.slots
      due := if s.starts issued then Function.update w.due s.driver (w.due s.driver ++ [n])
        else w.due
      cells := if s.resets issued then Function.update w.cells (s.cell n) [] else w.cells
      calls := n + 1 }
    match outcome with
    | .waits _ => some ({ w' with stack := (n, c) :: w.stack }, [.called n c])
    | .returned ret => some (w', [.called n c, .refused n ret])
  | .upcall driver args =>
    match w.due driver with
    | n :: due =>
      let w' := { w with due := Function.update w.due driver due }
      match w.slots.subscription (driver, 0) with
      | some cell =>
        some ({ w' with cells := Function.update w.cells cell (w.cells cell ++ [args]) },
          .answered n args :: w.dangling cell)
      | none => some (w', [.answered n args])
    | [] => none
  | .test =>
    match w.stack with
    | (n, c) :: stack =>
      let args := w.cells (c.sync.cell n)
      if args.isEmpty then none
      else some ({ w with stack }, [.returned n (c.sync.finishes args)])
    | [] => none

def Step (w : World) (a : Action) (w' : World) (es : List Event) : Prop :=
  w.exec a = some (w', es)

/-- No call is made to a driver on which a call waits, and the command that answers a call does not
succeed with a value. -/
def Free (w : World) : Action → Prop
  | .call c k => c.sync.Plain k ∧ ∀ f ∈ w.stack, f.2.sync.driver ≠ c.sync.driver
  | _ => True

instance (w : World) (a : Action) : Decidable (Free w a) :=
  match a with
  | .call c k =>
    inferInstanceAs (Decidable (c.sync.Plain k ∧ ∀ f ∈ w.stack, f.2.sync.driver ≠ c.sync.driver))
  | .upcall _ _ | .test => inferInstanceAs (Decidable True)

/-- No call at all. -/
def Quiet (_ : World) : Action → Prop
  | .call _ _ => False
  | _ => True

end World

/-- The answers to the command of a call. -/
def answers (n : ℕ) (tr : List Event) : List UpcallArgs :=
  tr.filterMap fun
    | .answered m args => if m = n then some args else none
    | _ => none

/-- What an event owes to the trace before it: a call that returns has been made, has not returned
before, and has had one answer, which gives its result; no command is answered twice; nothing
dangles. -/
def Owes (tr : List Event) : Event → Prop
  | .called _ _ => True
  | .refused _ ret => ret < 0
  | .answered n _ => answers n tr = []
  | .dangling _ => False
  | .returned n result =>
    (∀ result', .returned n result' ∉ tr) ∧
      ∃ c args, .called n c ∈ tr ∧ answers n tr = [args] ∧ result = c.sync.finish args

end Drivers
