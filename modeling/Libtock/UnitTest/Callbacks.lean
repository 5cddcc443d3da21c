import Libtock.UnitTest.Pending
import Libtock.UnitTest.Runner

/-!
# The callbacks of the supervisor, part by part

A callback that prints yields there, and others run in between. It is done in parts: the first one
leaves frames, which stand for the rest. Without others in between the parts are the whole callback.
-/

namespace UnitTest

open Tock

variable {s : Supervisor} {l : List Ptr} {p : Ptr} {pid : ℤ} {b : Bool}

/-! ### Looking for a runner -/

/-- What `list_contains` answers, or that it does not return. An answer is right. -/
structure Search where
  run : Supervisor → Ptr → Option Bool
  sound : ∀ {s l p b}, s.Pending l → run s p = some b → b = decide (p ∈ l)

namespace Search

/-- The loop as it is written. -/
def asWritten : Search where
  run s p := s.head.elim (some false) fun first => if first = p then some true else none
  sound := by
    intro s l p b h hrun
    cases l with
    | nil =>
      have hhead : s.head = none := h.1
      simp only [hhead, Option.elim_none, Option.some.injEq] at hrun
      simp [← hrun]
    | cons first l =>
      have hhead : s.head = some first := h.1.1
      simp only [hhead, Option.elim_some] at hrun
      split at hrun
      · next hfirst =>
        cases hrun
        simp [hfirst]
      · cases hrun

lemma asWritten_eq_some : asWritten.run s p = some b ↔ ∃ fuel, s.listContains p fuel = .ok b := by
  constructor
  · intro h
    refine ⟨1, ?_⟩
    cases hhead : s.head with
    | none =>
      simp only [asWritten, hhead, Option.elim_none, Option.some.injEq] at h
      rw [Supervisor.listContains_nil hhead le_rfl, h]
    | some first =>
      simp only [asWritten, hhead, Option.elim_some] at h
      split at h
      · next hfirst =>
        cases h
        exact Supervisor.listContains_first (hfirst ▸ hhead) le_rfl
      · cases h
  · rintro ⟨fuel, h⟩
    have hhead := Supervisor.listContains_ok h
    cases b <;> simp_all [asWritten]

lemma asWritten_eq_none :
    asWritten.run s p = none ↔ ∀ fuel, s.listContains p fuel = .error .outOfFuel := by
  cases hhead : s.head with
  | none =>
    have hempty := Supervisor.listContains_nil (p := p) hhead (le_refl 1)
    refine iff_of_false (by simp [asWritten, hhead]) fun h => ?_
    cases hempty.symm.trans (h 1)
  | some first =>
    by_cases hfirst : first = p
    · have hfound := Supervisor.listContains_first (hfirst ▸ hhead) (le_refl 1)
      refine iff_of_false (by simp [asWritten, hhead, hfirst]) fun h => ?_
      cases hfound.symm.trans (h 1)
    · exact iff_of_true (by simp [asWritten, hhead, hfirst])
        (Supervisor.listContains_stuck hhead hfirst)

/-- The loop with the step to the next runner, for at most `n` runners. -/
def walkLoop (next : Ptr → Option Ptr) (test : Ptr) : ℕ → Option Ptr → Option Bool
  | _, none => some false
  | 0, some _ => none
  | n + 1, some curr => if curr = test then some true else walkLoop next test n (next curr)

lemma walkLoop_sound {next : Ptr → Option Ptr} {n : ℕ} {curr : Option Ptr}
    (h : Core.IsChain next curr l) (hrun : walkLoop next p n curr = some b) :
    b = decide (p ∈ l) := by
  induction l generalizing n curr with
  | nil =>
    obtain rfl : curr = none := h
    simp only [walkLoop, Option.some.injEq] at hrun
    simp [← hrun]
  | cons first l ih =>
    obtain ⟨rfl, hchain⟩ := h
    cases n with
    | zero => cases hrun
    | succ n =>
      simp only [walkLoop] at hrun
      split at hrun
      · next hfirst =>
        cases hrun
        simp [hfirst]
      · next hfirst =>
        rw [ih hchain hrun]
        simp [Ne.symm hfirst]

/-- The membership test that can be run. -/
def walk (n : ℕ) : Search where
  run s p := walkLoop (fun q => (s.tests q).next) p n s.head
  sound h hrun := walkLoop_sound h.1 hrun

end Search

/-! ### Parts of a callback -/

inductive Caller
  /-- `unit_test_service_callback` -/
  | service
  /-- `timeout_callback` -/
  | timeout
  deriving DecidableEq

/-- What is left of a callback. -/
inductive Frame
  /-- A search that does not end. -/
  | searches (test : Ptr)
  /-- From the start of `print_test_result`. -/
  | result (caller : Caller) (test : Ptr)
  /-- Behind the first `printf` there, `printed` being the object at that time. -/
  | outcome (caller : Caller) (test : Ptr) (printed : UnitTestT)
  /-- Behind `print_test_result`. -/
  | reported (caller : Caller) (test : Ptr)
  /-- Behind `print_test_summary`. -/
  | summarized (caller : Caller) (test : Ptr)

namespace Frame

def test : Frame → Ptr
  | searches test | result _ test | outcome _ test _ | reported _ test | summarized _ test => test

/-- Whether the callback has printed something, and may still be in the `yield_for` of that. -/
def yields : Frame → Bool
  | searches _ | result _ _ => false
  | outcome _ _ _ | reported _ _ | summarized _ _ => true

end Frame

/-- `pass_count++` or `fail_count++` -/
def UnitTestT.counted (t : UnitTestT) : UnitTestT :=
  if t.result = .passed then { t with passCount := t.passCount + 1 }
  else { t with failCount := t.failCount + 1 }

structure Part where
  supervisor : Supervisor
  events : List Event
  frames : List Frame

namespace Supervisor

/-- The case of `TestInit`; `none` stands for an access through a null pointer. -/
def beginInit (find : Search) (pid : ℤ) (test : Ptr) (s : Supervisor) : Option Part :=
  let s := s.setPid test pid
  match find.run s test with
  | none => some ⟨s, [], [.searches test]⟩
  | some found =>
    let s := if found then s else s.listAppend test
    match s.head with
    | none => none
    | some first =>
      some ⟨s, if (s.tests first).pid = pid then [.ipcNotifyClient pid] else [], []⟩

/-- The case of `TestStart`. -/
def beginStart (test : Ptr) (s : Supervisor) : Part :=
  ⟨s, [.timerIn (s.tests test).timeoutMs test, .ipcNotifyClient (s.tests test).pid], []⟩

/-- The case of `TestEnd`. -/
def beginEnd (test : Ptr) (s : Supervisor) : Part :=
  if (s.tests test).result ≠ .timeout then
    ⟨s.update test UnitTestT.counted, [.timerCancel test], [.result .service test]⟩
  else ⟨s, [.timerCancel test], []⟩

/-- The end of the case of `TestCleanup`. -/
def endCleanup (test : Ptr) (s : Supervisor) : Part :=
  let s := s.listPop
  let next := match s.head with
    | some first => [.ipcNotifyClient (s.tests first).pid]
    | none => []
  ⟨s, .ipcNotifyClient (s.tests test).pid :: next, []⟩

/-- The case of `TestCleanup`. -/
def beginCleanup (test : Ptr) (s : Supervisor) : Part :=
  if (s.tests test).result ≠ .timeout then
    ⟨s, [printTestSummary (s.tests test)], [.summarized .service test]⟩
  else s.endCleanup test

/-- The first part of `unit_test_service_callback`, with a buffer. -/
def beginService (find : Search) (pid : ℤ) (test : Ptr) (s : Supervisor) : Option Part :=
  match (s.tests test).cmd with
  | .testInit => s.beginInit find pid test
  | .testStart => some (s.beginStart test)
  | .testEnd => some (s.beginEnd test)
  | .testCleanup => some (s.beginCleanup test)
  | .other _ => some ⟨s, [], []⟩

/-- The first part of `timeout_callback`. -/
def beginTimeout (test : Ptr) (s : Supervisor) : Part :=
  ⟨s.update test fun t => { t with result := .timeout }, [], [.result .timeout test]⟩

/-- The next part of a callback. -/
def resume : Frame → Supervisor → Option Part
  | .searches _, _ => none
  | .result caller test, s => some ⟨s, [], [.outcome caller test (s.tests test)]⟩
  | .outcome caller test printed, s =>
    some ⟨s, [printTestResult { printed with result := (s.tests test).result }],
      [.reported caller test]⟩
  | .reported .service test, s => some ⟨s, [.ipcNotifyClient (s.tests test).pid], []⟩
  | .reported .timeout test, s =>
    some ⟨s, [printTestSummary (s.tests test)], [.summarized .timeout test]⟩
  | .summarized .service test, s => some (s.endCleanup test)
  | .summarized .timeout _, s => some ⟨s, [], []⟩

/-! ### Without others in between -/

/-- At most `n` parts more. -/
def uninterrupted : ℕ → Part → Part
  | 0, r => r
  | n + 1, r =>
    match r.frames with
    | [] => r
    | f :: frames =>
      match resume f r.supervisor with
      | none => r
      | some r' =>
        uninterrupted n ⟨r'.supervisor, r.events ++ r'.events, r'.frames ++ frames⟩

lemma uninterrupted_nil (n : ℕ) (s : Supervisor) (es : List Event) :
    uninterrupted n ⟨s, es, []⟩ = ⟨s, es, []⟩ := by
  cases n <;> rfl

lemma beginEnd_uninterrupted (test : Ptr) (s : Supervisor) :
    uninterrupted 3 (s.beginEnd test) = ⟨(s.serviceEnd test).1, (s.serviceEnd test).2, []⟩ := by
  by_cases h : (s.tests test).result = .timeout
  · simp only [beginEnd, serviceEnd, h, ne_eq, not_true_eq_false, if_false]
    rfl
  · simp only [beginEnd, serviceEnd, h, ne_eq, not_false_eq_true, if_true]
    rfl

lemma beginCleanup_uninterrupted (test : Ptr) (s : Supervisor) :
    uninterrupted 3 (s.beginCleanup test) =
      ⟨(s.serviceCleanup test).1, (s.serviceCleanup test).2, []⟩ := by
  by_cases h : (s.tests test).result = .timeout
  · simp only [beginCleanup, serviceCleanup, h, ne_eq, not_true_eq_false, if_false]
    rfl
  · simp only [beginCleanup, serviceCleanup, h, ne_eq, not_false_eq_true, if_true]
    rfl

theorem beginTimeout_uninterrupted (test : Ptr) (s : Supervisor) :
    uninterrupted 4 (s.beginTimeout test) =
      ⟨(timeoutCallback test s).1, (timeoutCallback test s).2, []⟩ := rfl

lemma beginInit_uninterrupted {r : Part} (h : s.beginInit .asWritten pid p = some r)
    (hr : r.frames = []) : ∃ fuel, s.serviceInit fuel pid p = .ok (r.supervisor, r.events) := by
  cases hrun : Search.asWritten.run (s.setPid p pid) p with
  | none =>
    simp only [beginInit, hrun, Option.some.injEq] at h
    subst h
    cases hr
  | some found =>
    obtain ⟨fuel, hcontains⟩ := Search.asWritten_eq_some.mp hrun
    refine ⟨fuel, ?_⟩
    simp only [beginInit, hrun] at h
    simp only [serviceInit, hcontains, bind, Except.bind]
    cases hhead : (if found then s.setPid p pid else (s.setPid p pid).listAppend p).head with
    | none =>
      simp only [hhead] at h
      cases h
    | some first =>
      simp only [hhead] at h ⊢
      cases h
      rfl

/-- The parts, one after the other, are the callback. -/
theorem beginService_uninterrupted {r : Part} (h : s.beginService .asWritten pid p = some r)
    (hr : (uninterrupted 3 r).frames = []) :
    ∃ fuel, unitTestServiceCallback fuel pid (some p) s =
      .ok ((uninterrupted 3 r).supervisor, (uninterrupted 3 r).events) := by
  cases hcmd : (s.tests p).cmd with
  | testInit =>
    simp only [beginService, hcmd] at h
    have hframes : r.frames = [] := by
      simp only [beginInit] at h
      split at h
      · cases h
        cases hr
      · split at h
        · cases h
        · cases h
          rfl
    obtain ⟨s', es, frames⟩ := r
    subst hframes
    simpa only [unitTestServiceCallback, hcmd, uninterrupted_nil]
      using beginInit_uninterrupted h rfl
  | testStart =>
    simp only [beginService, hcmd, Option.some.injEq] at h
    subst h
    exact ⟨0, by simp only [unitTestServiceCallback, hcmd]; rfl⟩
  | testEnd =>
    simp only [beginService, hcmd, Option.some.injEq] at h
    subst h
    exact ⟨0, by simp only [unitTestServiceCallback, hcmd, beginEnd_uninterrupted]⟩
  | testCleanup =>
    simp only [beginService, hcmd, Option.some.injEq] at h
    subst h
    exact ⟨0, by simp only [unitTestServiceCallback, hcmd, beginCleanup_uninterrupted]⟩
  | other v =>
    simp only [beginService, hcmd, Option.some.injEq] at h
    subst h
    exact ⟨0, by simp only [unitTestServiceCallback, hcmd, uninterrupted_nil]⟩

end Supervisor

end UnitTest
