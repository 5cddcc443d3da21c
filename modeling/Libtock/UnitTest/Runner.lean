import Libtock.UnitTest.Supervisor

/-!
# The test runner: `unit_test_runner`

It shares its `unit_test_t` with the supervisor, so that each of its reads and writes there is a
step. In between it sends messages to the supervisor and waits for `continue_callback` to set
`done`.
-/

namespace UnitTest

open Tock

/-- The parameters of `unit_test_runner`. -/
structure Arguments where
  /-- `tests[i].name` -/
  testName : ℕ → Fin 24 → U8
  testCount : U32
  timeoutMs : U32

/-- The calls of `sync_with_supervisor`; in the loop with its variable `i`. -/
inductive Sync
  | testInit
  | testStart (i : ℕ)
  | testEnd (i : ℕ)
  | testCleanup
  deriving DecidableEq

def Sync.cmd : Sync → UnitTestCmd
  | testInit => .testInit
  | testStart _ => .testStart
  | testEnd _ => .testEnd
  | testCleanup => .testCleanup

/-- How far `unit_test_runner` is, with the values of its local variables and of
`failure_reason`. -/
inductive Pc
  | notCalled
  /-- Before `test->cmd = …`. -/
  | setsCmd (y : Sync)
  /-- Before `done = false` and `ipc_notify_service`. -/
  | notifies (y : Sync)
  /-- In `yield_for(&done)`. -/
  | waits (y : Sync)
  /-- Before `i < test_count` and the `memcpy` of the name. -/
  | loops (i : ℕ)
  /-- In `test_setup`, `tests[i].fun` and `test_teardown`. -/
  | runsTest (i : ℕ)
  /-- Before `test->result != Timeout`. -/
  | readsResult (i : ℕ) (passed : Bool) (failureReason : Fin 72 → U8)
  /-- Before `test->result = …`. -/
  | writesResult (i : ℕ) (passed : Bool) (failureReason : Fin 72 → U8)
  /-- Before the `strncpy` of the reason. -/
  | writesReason (i : ℕ) (failureReason : Fin 72 → U8)
  /-- Before `test->current++`. -/
  | increments (i : ℕ)
  | returned
  deriving DecidableEq

/-- `strncpy` between buffers of the same size. -/
def strncpy {n : ℕ} (src : Fin n → U8) : Fin n → U8 :=
  fun j => if ∃ k < j, src k = 0 then 0 else src j

/-- The object after `memset` and the two assignments behind it. -/
def Arguments.initialTest (a : Arguments) : UnitTestT where
  cmd := .testInit
  count := a.testCount
  current := 0
  name := fun _ => 0
  timeoutMs := a.timeoutMs
  passCount := 0
  failCount := 0
  pid := 0
  result := .passed
  reason := fun _ => 0
  next := none

/-- Where the runner goes on when `sync_with_supervisor` returns. -/
def Sync.next : Sync → Pc
  | testInit => .loops 0
  | testStart i => .runsTest i
  | testEnd i => .increments i
  | testCleanup => .returned

/-- The next read or write of the shared object, with what is up to the next one. -/
def Pc.access (a : Arguments) (test : UnitTestT) : Pc → Option (Pc × UnitTestT)
  | setsCmd y => some (.notifies y, { test with cmd := y.cmd })
  | loops i =>
    if i < a.testCount.toNat then
      some (.setsCmd (.testStart i), { test with name := a.testName i })
    else some (.setsCmd .testCleanup, test)
  | readsResult i passed reason =>
    some (if test.result ≠ .timeout then .writesResult i passed reason
      else .writesReason i reason, test)
  | writesResult i passed reason =>
    some (.writesReason i reason, { test with result := if passed then .passed else .failed })
  | writesReason i reason =>
    some (.setsCmd (.testEnd i), { test with reason := strncpy reason })
  | increments i => some (.loops (i + 1), { test with current := test.current + 1 })
  | notCalled | notifies _ | waits _ | runsTest _ | returned => none

/-- Whether the process can take an upcall: it waits, or runs a test that may wait. -/
def Pc.yields : Pc → Bool
  | waits _ | runsTest _ => true
  | _ => false

/-! ### The object without its link -/

/-- The link belongs to the supervisor. -/
def UnitTestT.unlinked (test : UnitTestT) : UnitTestT := { test with next := none }

variable {a : Arguments} {test test' : UnitTestT} {pc pc' : Pc}

lemma Pc.access_next (h : pc.access a test = some (pc', test')) : test'.next = test.next := by
  cases pc with
  | loops i =>
    simp only [access] at h
    split at h <;>
      · cases h
        rfl
  | setsCmd y | readsResult i passed reason | writesResult i passed reason | writesReason i reason
  | increments i =>
    cases h
    rfl
  | _ => cases h

lemma Pc.access_unlinked (h : pc.access a test = some (pc', test')) :
    pc.access a test.unlinked = some (pc', test'.unlinked) := by
  cases pc with
  | loops i =>
    simp only [access] at h ⊢
    split at h <;>
      · next hi =>
        cases h
        simp only [hi, if_true, if_false, UnitTestT.unlinked]
  | readsResult i passed reason =>
    cases h
    rfl
  | setsCmd y | writesResult i passed reason | writesReason i reason | increments i =>
    simp only [access, Option.some.injEq, Prod.mk.injEq] at h
    obtain ⟨rfl, rfl⟩ := h
    simp only [access, UnitTestT.unlinked]
  | _ => cases h

end UnitTest
