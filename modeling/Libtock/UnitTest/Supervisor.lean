import Libtock.Tock.TaskQueue

/-!
# The test supervisor: the code of `unit_test.c`

A test runner is known by the address of the `unit_test_t` that it shares with the supervisor. The
runners that wait form a linked list inside these objects.
-/

namespace UnitTest

open Tock

abbrev U8 := BitVec 8

inductive UnitTestCmd
  | testInit
  | testStart
  | testEnd
  | testCleanup
  /-- A value that is none of the constants. -/
  | other (v : U32)
  deriving DecidableEq

inductive UnitTestResult
  | passed
  | failed
  | timeout
  | other (v : U32)
  deriving DecidableEq

/-- `unit_test_t`; its timer is known by its own address. -/
structure UnitTestT where
  cmd : UnitTestCmd
  count : U32
  current : U32
  name : Fin 24 → U8
  timeoutMs : U32
  passCount : U32
  failCount : U32
  pid : ℤ
  result : UnitTestResult
  reason : Fin 72 → U8
  next : Option Ptr

/-- The shared objects, and the fields of `pending_pids`. -/
structure Supervisor where
  tests : Ptr → UnitTestT
  head : Option Ptr
  tail : Option Ptr

/-- What the supervisor does outside of its memory. -/
inductive Event
  | ipcNotifyClient (pid : ℤ)
  | timerIn (ms : U32) (test : Ptr)
  | timerCancel (test : Ptr)
  /-- The number of the runner, of its test, and two texts. -/
  | printResult (pid : ℤ) (current : U32) (name outcome : String)
  | printSummary (pid : ℤ) (pass fail incomplete total : U32)
  deriving DecidableEq

inductive Fault
  | outOfFuel
  | nullPointer
  deriving DecidableEq

abbrev Result := Except Fault

/-- What `%s` prints of a buffer. -/
def cString {n : ℕ} (buf : Fin n → U8) : String :=
  .ofList (((List.ofFn buf).takeWhile (· ≠ 0)).map fun b => Char.ofNat b.toNat)

def UnitTestT.outcome (t : UnitTestT) : String :=
  match t.result with
  | .passed => "[✓]\n"
  | .failed => "[FAILED] " ++ cString t.reason ++ "\n"
  | .timeout => "[ERROR: Timeout]\n"
  | .other _ => ""

def printTestResult (t : UnitTestT) : Event :=
  .printResult t.pid t.current (cString t.name) t.outcome

def printTestSummary (t : UnitTestT) : Event :=
  let done := t.passCount + t.failCount
  let total := if t.count > done then t.count else done
  .printSummary t.pid t.passCount t.failCount (total - done) total

namespace Supervisor

def update (test : Ptr) (f : UnitTestT → UnitTestT) (s : Supervisor) : Supervisor :=
  { s with tests := fun p => if p = test then f (s.tests p) else s.tests p }

/-- `test->next = v` -/
def setNext (test : Ptr) (v : Option Ptr) : Supervisor → Supervisor :=
  update test fun t => { t with next := v }

/-- `test->pid = pid` -/
def setPid (test : Ptr) (pid : ℤ) : Supervisor → Supervisor :=
  update test fun t => { t with pid := pid }

/-! ### The list of pending runners -/

def listAppend (test : Ptr) (s : Supervisor) : Supervisor :=
  let s := match s.tail with
    | some last => s.setNext last (some test)
    | none => { s with head := some test }
  { s.setNext test none with tail := some test }

def listPop (s : Supervisor) : Supervisor :=
  match s.head with
  | none => s
  | some first =>
    let s := { s with head := (s.tests first).next }
    if s.head = none then { s with tail := none } else s

/-- The loop of `list_contains`, which does not move `curr`. -/
def listContainsLoop (test : Ptr) (curr : Option Ptr) : ℕ → Result Bool
  | 0 => .error .outOfFuel
  | fuel + 1 =>
    match curr with
    | none => .ok false
    | some p => if p = test then .ok true else listContainsLoop test curr fuel

def listContains (test : Ptr) (fuel : ℕ) (s : Supervisor) : Result Bool :=
  listContainsLoop test s.head fuel

/-! ### The callbacks -/

def timeoutCallback (test : Ptr) (s : Supervisor) : Supervisor × List Event :=
  let s := s.update test fun t => { t with result := .timeout }
  (s, [printTestResult (s.tests test), printTestSummary (s.tests test)])

/-- The case of `TestInit`. -/
def serviceInit (fuel : ℕ) (pid : ℤ) (test : Ptr) (s : Supervisor) :
    Result (Supervisor × List Event) := do
  let s := s.setPid test pid
  let s := if ← s.listContains test fuel then s else s.listAppend test
  match s.head with
  | none => .error .nullPointer
  | some first => .ok (s, if (s.tests first).pid = pid then [.ipcNotifyClient pid] else [])

/-- The case of `TestStart`. -/
def serviceStart (test : Ptr) (s : Supervisor) : Supervisor × List Event :=
  (s, [.timerIn (s.tests test).timeoutMs test, .ipcNotifyClient (s.tests test).pid])

/-- The case of `TestEnd`. -/
def serviceEnd (test : Ptr) (s : Supervisor) : Supervisor × List Event :=
  if (s.tests test).result ≠ .timeout then
    let s := s.update test fun t =>
      if t.result = .passed then { t with passCount := t.passCount + 1 }
      else { t with failCount := t.failCount + 1 }
    (s, [.timerCancel test, printTestResult (s.tests test), .ipcNotifyClient (s.tests test).pid])
  else
    (s, [.timerCancel test])

/-- The case of `TestCleanup`. -/
def serviceCleanup (test : Ptr) (s : Supervisor) : Supervisor × List Event :=
  let summary := if (s.tests test).result ≠ .timeout then [printTestSummary (s.tests test)] else []
  let s := s.listPop
  let next := match s.head with
    | some first => [.ipcNotifyClient (s.tests first).pid]
    | none => []
  (s, summary ++ .ipcNotifyClient (s.tests test).pid :: next)

/-- `unit_test_service_callback` -/
def unitTestServiceCallback (fuel : ℕ) (pid : ℤ) (buf : Option Ptr) (s : Supervisor) :
    Result (Supervisor × List Event) :=
  match buf with
  | none => .ok (s, [])
  | some test =>
    match (s.tests test).cmd with
    | .testInit => s.serviceInit fuel pid test
    | .testStart => .ok (s.serviceStart test)
    | .testEnd => .ok (s.serviceEnd test)
    | .testCleanup => .ok (s.serviceCleanup test)
    | .other _ => .ok (s, [])

/-- `unit_test_service` -/
def unitTestService (s : Supervisor) : Supervisor := { s with head := none, tail := none }

end Supervisor

end UnitTest
