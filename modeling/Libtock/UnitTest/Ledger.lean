import Libtock.UnitTest.Report

/-!
# The tests of a runner and their lines

The lines printed for a runner, with the one that a callback is about to print, are the results of
the tests that are over, in order; the counters count them. One step of the runner or of a callback
adds a test, prints its line, or prints the summary, which is the last of the three.
-/

namespace UnitTest

open Core Tock

namespace Frame

/-- The line is still to be printed. -/
def unprinted : Frame → Bool
  | result _ _ | outcome _ _ _ => true
  | _ => false

def isSummarized : Frame → Bool
  | summarized _ _ => true
  | _ => false

end Frame

namespace Session

variable {c : Processes} {p : Ptr} {x x' : Session} {label : Label} {tr es : List Note} {f : Frame}
  {vs : List UnitTestResult} {n : ℕ}

/-- The line that a callback is about to print. -/
def due (x : Session) : List (U32 × UnitTestResult) :=
  (x.frames.filter Frame.unprinted).map fun _ => (x.test.current, x.test.result)

/-- The number of tests that have ended or timed out. -/
def finished (n : ℕ) (x : Session) : ℕ :=
  x.pc.index n + if x.phase = .ended ∨ x.test.result = .timeout then 1 else 0

/-- The summary has been printed. -/
def Closed (x : Session) : Prop :=
  (x.Left ∨ x.test.result = .timeout) ∧ ∀ f ∈ x.frames, f.isSummarized = true

structure Ledger (c : Processes) (p : Ptr) (vs : List UnitTestResult) (tr : List Note)
    (x : Session) : Prop where
  lines : lines (c.pid p) tr ++ x.due = numbered vs
  length : vs.length = x.finished (c.arguments p).testCount.toNat
  passed : x.test.passCount.toNat = vs.count .passed
  failed : x.test.failCount.toNat = vs.count .failed
  marked : .timeout ∈ vs → x.test.result = .timeout
  ended : ∀ e ∈ tr, ∀ i, e.Ends (c.pid p) i → i.toNat < vs.length
  once : (summaries (c.pid p) tr).length ≤ 1
  closed : ∀ s ∈ summaries (c.pid p) tr, s = x.test.summary ∧ x.Closed
  last : tr.Pairwise fun e e' => e.TimesOut (c.pid p) → ¬ e'.Starts (c.pid p)

lemma inBody_of_phase (h : x.phase ≠ .idle) : x.pc.inBody = true := by
  rw [phase] at h
  split at h <;> simp_all [Pc.inBody, Sync.inBody]

lemma Regular.finished_le (h : x.Regular c p) :
    x.finished (c.arguments p).testCount.toNat ≤ (c.arguments p).testCount.toNat := by
  rw [finished]
  split_ifs with hfinished
  · refine h.body (inBody_of_phase ?_)
    rcases hfinished with hended | hresult
    · simp [hended]
    · exact fun hidle => h.not_marked hidle hresult
  · exact h.bound

/-- A line of the trace is one of the results. -/
lemma Ledger.mem_of_timesOut (h : x.Ledger c p vs tr) {e : Note} (he : e ∈ tr)
    (htimeout : e.TimesOut (c.pid p)) : .timeout ∈ vs := by
  obtain ⟨i, hi⟩ := htimeout
  have hline : (i, .timeout) ∈ UnitTest.lines (c.pid p) tr := List.mem_filterMap.mpr ⟨e, he, hi⟩
  refine mem_of_mem_numbered (i := i) ?_
  rw [← h.lines]
  exact List.mem_append_left _ hline

/-- The notes of a step, unless they are lines, start a test only if none has timed out. -/
lemma Ledger.last_append (h : x.Ledger c p vs tr)
    (hes : es.Pairwise fun e e' => e.TimesOut (c.pid p) → ¬ e'.Starts (c.pid p))
    (hstart : ∀ e ∈ es, e.Starts (c.pid p) → x.test.result ≠ .timeout) :
    (tr ++ es).Pairwise fun e e' => e.TimesOut (c.pid p) → ¬ e'.Starts (c.pid p) := by
  rw [List.pairwise_append]
  refine ⟨h.last, hes, fun e he e' he' htimeout hstarts => ?_⟩
  exact hstart e' he' hstarts (h.marked (h.mem_of_timesOut he htimeout))

/-- Nothing that the ledger is about. -/
structure Untold (c : Processes) (p : Ptr) (vs : List UnitTestResult) (x : Session)
    (es : List Note) : Prop where
  lines : UnitTest.lines (c.pid p) es = []
  summaries : UnitTest.summaries (c.pid p) es = []
  ended : ∀ e ∈ es, ∀ i, e.Ends (c.pid p) i → i.toNat < vs.length
  starts : ∀ e ∈ es, e.Starts (c.pid p) → x.test.result ≠ .timeout

lemma not_timesOut_of_lines {pid : ℤ} (h : UnitTest.lines pid es = []) {e : Note} (he : e ∈ es) :
    ¬ e.TimesOut pid := by
  rintro ⟨i, hi⟩
  have hnone := List.filterMap_eq_nil_iff.mp h e he
  cases hnone.symm.trans hi

lemma untold_of_quiet (h : Quiet (c.pid p) es) : x.Untold c p vs es where
  lines := h.lines
  summaries := h.summaries
  ended _ he _ hi := absurd hi (h.not_ends he)
  starts _ he hs := absurd hs (h.not_starts he)

/-- `unit_test_service_callback` starts. -/
lemma untold_of_handles {cmd : UnitTestCmd} {i : U32}
    (hend : cmd = .testEnd → i.toNat < vs.length)
    (hstart : cmd = .testStart → x.test.result ≠ .timeout) (hes : Quiet (c.pid p) es) :
    x.Untold c p vs (.handles (c.pid p) cmd i :: es) where
  lines := hes.lines
  summaries := hes.summaries
  ended e he j hj := by
    rcases List.mem_cons.mp he with rfl | he
    · rcases hj with hj | hj
      · cases hj
        exact hend rfl
      · cases hj
    · exact absurd hj (hes.not_ends he)
  starts e he hs := by
    rcases List.mem_cons.mp he with rfl | he
    · obtain ⟨j, hj⟩ := hs
      cases hj
      exact hstart rfl
    · exact absurd hs (hes.not_starts he)

/-- A step that neither ends a test nor prints. -/
lemma Ledger.congr (h : x.Ledger c p vs tr) (hes : x.Untold c p vs es) (hdue : x'.due = x.due)
    (hfinished : x'.finished (c.arguments p).testCount.toNat =
      x.finished (c.arguments p).testCount.toNat)
    (hpass : x'.test.passCount = x.test.passCount) (hfail : x'.test.failCount = x.test.failCount)
    (hcount : x'.test.count = x.test.count)
    (hresult : x.test.result = .timeout → x'.test.result = .timeout)
    (hclosed : x.Closed → x'.Closed) : x'.Ledger c p vs (tr ++ es) where
  lines := by rw [lines_append, hes.lines, List.append_nil, hdue, h.lines]
  length := h.length.trans hfinished.symm
  passed := by rw [hpass, h.passed]
  failed := by rw [hfail, h.failed]
  marked hmem := hresult (h.marked hmem)
  ended e he := by
    rcases List.mem_append.mp he with he | he
    · exact h.ended e he
    · exact hes.ended e he
  once := by
    rw [summaries_append, hes.summaries, List.append_nil]
    exact h.once
  closed s hs := by
    rw [summaries_append, hes.summaries, List.append_nil] at hs
    obtain ⟨heq, hx⟩ := h.closed s hs
    refine ⟨heq.trans ?_, hclosed hx⟩
    rw [UnitTestT.summary, UnitTestT.summary, hpass, hfail, hcount]
  last := h.last_append (List.pairwise_of_forall_mem_list fun _ he _ _ htimeout =>
    absurd htimeout (not_timesOut_of_lines hes.lines he)) hes.starts

lemma Ledger.summaries_nil (h : x.Ledger c p vs tr) (hx : ¬ x.Closed) :
    summaries (c.pid p) tr = [] := by
  rw [List.eq_nil_iff_forall_not_mem]
  exact fun s hs => hx (h.closed s hs).2

/-! ### A test is over -/

lemma Regular.current_toNat (h : x.Regular c p) :
    x.test.current.toNat = x.pc.index (c.arguments p).testCount.toNat := by
  have hbound := h.bound
  have hlt := (c.arguments p).testCount.isLt
  rw [h.current, BitVec.toNat_ofNat, Nat.mod_eq_of_lt (by omega)]

lemma finished_of_running (hphase : x.phase = .running) (hne : x.test.result ≠ .timeout) :
    x.finished n = x.pc.index n := by
  simp [finished, hphase, hne]

lemma not_closed (hphase : x.phase = .running) (hne : x.test.result ≠ .timeout) : ¬ x.Closed := by
  rintro ⟨(hpc | ⟨hpc, -⟩) | hresult, -⟩
  · simp [phase, hpc] at hphase
  · simp [phase, hpc] at hphase
  · exact hne hresult

lemma Ledger.counts_lt (h : x.Ledger c p vs tr) (hr : x.Regular c p) (hphase : x.phase = .running)
    (hne : x.test.result ≠ .timeout) :
    x.test.passCount.toNat + 1 < 2 ^ 32 ∧ x.test.failCount.toNat + 1 < 2 ^ 32 := by
  have hlen := h.length.trans (finished_of_running hphase hne)
  have hindex := hr.body (inBody_of_phase (by simp [hphase]))
  have hlt := (c.arguments p).testCount.isLt
  have hpassed : vs.count .passed ≤ vs.length := List.count_le_length
  have hfailed : vs.count .failed ≤ vs.length := List.count_le_length
  rw [h.passed, h.failed]
  omega

lemma Ledger.current_lt (h : x.Ledger c p vs tr) (hr : x.Regular c p) (hphase : x.phase = .running)
    (hne : x.test.result ≠ .timeout) {v : UnitTestResult} :
    x.test.current.toNat < (vs ++ [v]).length := by
  rw [hr.current_toNat, List.length_append, h.length, finished_of_running hphase hne]
  exact Nat.lt_succ_self _

/-- The callback that is about to print its line has just started. -/
lemma Ledger.add (h : x.Ledger c p vs tr) (hr : x.Regular c p) (hframes : x.frames = [])
    (hphase : x.phase = .running) (hne : x.test.result ≠ .timeout) {v : UnitTestResult}
    (hes : x.Untold c p (vs ++ [v]) es) (hdue : x'.due = [(x.test.current, v)])
    (hfinished : x'.finished (c.arguments p).testCount.toNat =
      x.pc.index (c.arguments p).testCount.toNat + 1)
    (hpass : x'.test.passCount.toNat = x.test.passCount.toNat + if v = .passed then 1 else 0)
    (hfail : x'.test.failCount.toNat = x.test.failCount.toNat + if v = .failed then 1 else 0)
    (hmarked : v = .timeout → x'.test.result = .timeout) :
    x'.Ledger c p (vs ++ [v]) (tr ++ es) := by
  have hlen : vs.length = x.pc.index (c.arguments p).testCount.toNat :=
    h.length.trans (finished_of_running hphase hne)
  have hnone := h.summaries_nil (not_closed hphase hne)
  have hdue₀ : x.due = [] := by simp [due, hframes]
  have hlines := h.lines
  rw [hdue₀, List.append_nil] at hlines
  constructor
  · rw [lines_append, hes.lines, List.append_nil, hlines, hdue, numbered_snoc, hlen, hr.current]
  · rw [List.length_append, List.length_singleton, hlen, hfinished]
  · rw [hpass, h.passed, List.count_append, List.count_singleton]
    simp only [beq_iff_eq]
  · rw [hfail, h.failed, List.count_append, List.count_singleton]
    simp only [beq_iff_eq]
  · intro hmem
    rcases List.mem_append.mp hmem with hmem | hmem
    · exact absurd (h.marked hmem) hne
    · exact hmarked (List.mem_singleton.mp hmem).symm
  · intro e he i hi
    rcases List.mem_append.mp he with he | he
    · rw [List.length_append]
      exact Nat.lt_add_right _ (h.ended e he i hi)
    · exact hes.ended e he i hi
  · rw [summaries_append, hes.summaries, hnone]
    exact Nat.zero_le _
  · intro s hs
    rw [summaries_append, hes.summaries, hnone] at hs
    cases hs
  · exact h.last_append (List.pairwise_of_forall_mem_list fun _ he _ _ htimeout =>
      absurd htimeout (not_timesOut_of_lines hes.lines he)) hes.starts

lemma counted_passCount {t : UnitTestT} (h : t.passCount.toNat + 1 < 2 ^ 32) :
    t.counted.passCount.toNat = t.passCount.toNat + if t.result = .passed then 1 else 0 := by
  rw [UnitTestT.counted]
  split_ifs
  · rw [BitVec.toNat_add]
    exact Nat.mod_eq_of_lt h
  · rfl

lemma counted_failCount {t : UnitTestT} (h : t.failCount.toNat + 1 < 2 ^ 32)
    (hresult : t.result = .passed ∨ t.result = .failed) :
    t.counted.failCount.toNat = t.failCount.toNat + if t.result = .failed then 1 else 0 := by
  rw [UnitTestT.counted]
  rcases hresult with hresult | hresult
  · simp [hresult]
  · simp only [hresult, reduceCtorEq, if_false, if_true, BitVec.toNat_add]
    exact Nat.mod_eq_of_lt h

/-! ### A line, a summary -/

lemma Ledger.print (h : x.Ledger c p vs tr) (hr : x.Regular c p) {caller : Caller}
    {printed : UnitTestT} (hframes : x.frames = [.outcome caller p printed]) :
    ({ x with frames := [.reported caller p] } : Session).Ledger c p vs
      (tr ++ [.does (printTestResult { printed with result := x.test.result })]) := by
  obtain ⟨hpid, hcurrent⟩ := hr.printed caller printed (by simp [hframes])
  have hverdict : verdict ({ printed with result := x.test.result } : UnitTestT).outcome =
      x.test.result := verdict_outcome (t := { printed with result := x.test.result }) hr.result
  have hdue : x.due = [(x.test.current, x.test.result)] := by rw [due, hframes]; rfl
  have hline : UnitTest.lines (c.pid p)
      [.does (printTestResult { printed with result := x.test.result })] =
      [(x.test.current, x.test.result)] := by
    refine (lines_printTestResult (t := { printed with result := x.test.result }) hpid).trans ?_
    rw [hverdict]
    exact congrArg (fun current => [(current, x.test.result)]) hcurrent
  have hsummary : UnitTest.summaries (c.pid p)
      [.does (printTestResult { printed with result := x.test.result })] = [] := rfl
  have hnot : ¬ x.Closed := by
    rintro ⟨-, hall⟩
    simp [hframes, Frame.isSummarized] at hall
  have hnone := h.summaries_nil hnot
  constructor
  · have hlines := h.lines
    rw [hdue] at hlines
    rw [lines_append, hline, hlines]
    exact List.append_nil _
  · exact h.length
  · exact h.passed
  · exact h.failed
  · exact h.marked
  · intro e he i hi
    rcases List.mem_append.mp he with he | he
    · exact h.ended e he i hi
    · rw [List.mem_singleton.mp he] at hi
      rcases hi with hi | hi <;> cases hi
  · rw [summaries_append, hsummary, hnone]
    exact Nat.zero_le _
  · intro s hs
    rw [summaries_append, hsummary, hnone] at hs
    cases hs
  · refine h.last_append (List.pairwise_singleton _ _) fun e he hs => ?_
    obtain ⟨i, rfl⟩ := hs
    cases List.mem_singleton.mp he

lemma Ledger.summarize (h : x.Ledger c p vs tr) (hnot : ¬ x.Closed)
    (hlines : UnitTest.lines (c.pid p) es = [])
    (hsummary : UnitTest.summaries (c.pid p) es = [x.test.summary])
    (hends : ∀ e ∈ es, ∀ i, ¬ e.Ends (c.pid p) i) (hstarts : ∀ e ∈ es, ¬ e.Starts (c.pid p))
    (hdue : x'.due = x.due)
    (hfinished : x'.finished (c.arguments p).testCount.toNat =
      x.finished (c.arguments p).testCount.toNat)
    (htest : x'.test = x.test) (hclosed : x'.Closed) : x'.Ledger c p vs (tr ++ es) where
  lines := by rw [lines_append, hlines, List.append_nil, hdue, h.lines]
  length := h.length.trans hfinished.symm
  passed := by rw [htest, h.passed]
  failed := by rw [htest, h.failed]
  marked hmem := by
    rw [htest]
    exact h.marked hmem
  ended e he i hi := by
    rcases List.mem_append.mp he with he | he
    · exact h.ended e he i hi
    · exact absurd hi (hends e he i)
  once := by
    rw [summaries_append, h.summaries_nil hnot, hsummary]
    exact le_rfl
  closed s hs := by
    rw [summaries_append, h.summaries_nil hnot, hsummary, List.nil_append] at hs
    rw [htest]
    exact ⟨List.mem_singleton.mp hs, hclosed⟩
  last := h.last_append (List.pairwise_of_forall_mem_list fun _ he _ _ htimeout =>
    absurd htimeout (not_timesOut_of_lines hlines he)) fun e he hs => absurd hs (hstarts e he)

/-! ### Every step keeps the ledger -/

lemma counts_of_access {pc pc' : Pc} {test test' : UnitTestT} {a : Arguments}
    (h : pc.access a test = some (pc', test')) :
    test'.passCount = test.passCount ∧ test'.failCount = test.failCount ∧
      test'.count = test.count := by
  cases pc with
  | loops i =>
    simp only [Pc.access] at h
    split at h <;> cases h <;> exact ⟨rfl, rfl, rfl⟩
  | setsCmd y | readsResult i passed reason | writesResult i passed reason | writesReason i reason
  | increments i =>
    simp only [Pc.access, Option.some.injEq, Prod.mk.injEq] at h
    obtain ⟨-, rfl⟩ := h
    exact ⟨rfl, rfl, rfl⟩
  | _ => cases h

lemma due_of_nil (h : x.frames = []) : x.due = [] := by
  rw [due, h]
  rfl

lemma Regular.access_keeps (h : x.Regular c p) (hok : x.Ok c p) {pc : Pc} {test : UnitTestT}
    (haccess : x.pc.access (c.arguments p) x.test = some (pc, test)) :
    ({ x with pc, test } : Session).due = x.due ∧
      ({ x with pc, test } : Session).finished (c.arguments p).testCount.toNat =
        x.finished (c.arguments p).testCount.toNat ∧
      (x.test.result = .timeout → test.result = .timeout) := by
  have haway := (Pc.awaited_of_access haccess).1
  have hbound := h.bound
  cases hpc : x.pc with
  | setsCmd y =>
    simp only [hpc, Pc.access, Option.some.injEq, Prod.mk.injEq] at haccess
    obtain ⟨rfl, rfl⟩ := haccess
    refine ⟨rfl, ?_, id⟩
    cases y <;> simp [finished, phase, hpc, Pc.index]
  | loops i =>
    simp only [hpc, Pc.index] at hbound
    simp only [hpc, Pc.access] at haccess
    split at haccess
    · cases haccess
      exact ⟨rfl, by simp [finished, phase, hpc, Pc.index, Sync.index], id⟩
    · cases haccess
      have hlast : (c.arguments p).testCount.toNat = i := by omega
      exact ⟨rfl, by simp [finished, phase, hpc, Pc.index, Sync.index, hlast], id⟩
  | readsResult i passed reason =>
    simp only [hpc, Pc.access, Option.some.injEq, Prod.mk.injEq] at haccess
    obtain ⟨rfl, rfl⟩ := haccess
    refine ⟨rfl, ?_, id⟩
    split_ifs <;> simp [finished, phase, hpc, Pc.index]
  | writesResult i passed reason =>
    have hresult := h.not_marked_of_away haway fun _ => by rw [hpc]; rfl
    have hframes := h.frames_nil_of_away hok hresult haway
    simp only [hpc, Pc.access, Option.some.injEq, Prod.mk.injEq] at haccess
    obtain ⟨rfl, rfl⟩ := haccess
    refine ⟨by rw [due_of_nil hframes]; exact due_of_nil hframes, ?_, (absurd · hresult)⟩
    cases passed <;> simp [finished, phase, hpc, Pc.index, hresult]
  | writesReason i reason =>
    simp only [hpc, Pc.access, Option.some.injEq, Prod.mk.injEq] at haccess
    obtain ⟨rfl, rfl⟩ := haccess
    exact ⟨rfl, by simp [finished, phase, hpc, Pc.index, Sync.index], id⟩
  | increments i =>
    have hresult := h.not_marked_of_away haway fun hphase => by simp [phase, hpc] at hphase
    have hframes := h.frames_nil_of_away hok hresult haway
    simp only [hpc, Pc.access, Option.some.injEq, Prod.mk.injEq] at haccess
    obtain ⟨rfl, rfl⟩ := haccess
    refine ⟨by rw [due_of_nil hframes]; exact due_of_nil hframes, ?_, id⟩
    simp [finished, phase, hpc, Pc.index, hresult]
  | _ => simp [hpc, Pc.access] at haccess

lemma phase_of_message (hok : x.Ok c p) (hmessage : 0 < x.messages) (hcmd : x.test.cmd = .testEnd) :
    x.phase = .running ∧ ({ x with messages := x.messages - 1 } : Session).phase = .ended := by
  obtain ⟨i, hpc⟩ := hok.waits_testEnd hmessage hcmd
  have hm := hok.messages_eq_one hmessage
  simp [phase, hpc, hm]

lemma not_closed_of_frame {frames : List Frame} (hframes : x.frames = f :: frames)
    (hf : f.isSummarized = false) : ¬ x.Closed := by
  rintro ⟨-, hall⟩
  rw [hall f (hframes ▸ List.mem_cons_self)] at hf
  cases hf

/-- A summary is printed at the end of a run, or for a test that is marked. -/
lemma Closed.marked (h : x.Closed) (hpc : x.pc ≠ .returned) (hpc' : x.pc ≠ .waits .testCleanup) :
    x.test.result = .timeout := by
  rcases h.1 with (hreturned | ⟨hwaits, -⟩) | hresult
  · exact absurd hreturned hpc
  · exact absurd hwaits hpc'
  · exact hresult

lemma Ledger.access (h : x.Ledger c p vs tr) (hr : x.Regular c p) (hok : x.Ok c p) {pc : Pc}
    {test : UnitTestT} (haccess : x.pc.access (c.arguments p) x.test = some (pc, test)) :
    ({ x with pc, test } : Session).Ledger c p vs (tr ++ []) := by
  obtain ⟨hdue, hfinished, hresult⟩ := hr.access_keeps hok haccess
  obtain ⟨hpass, hfail, hcount⟩ := counts_of_access haccess
  refine h.congr (untold_of_quiet quiet_nil) hdue hfinished hpass hfail hcount hresult fun hx => ?_
  have haway := (Pc.awaited_of_access haccess).1
  have hmarked := hx.marked (Pc.ne_of_access haccess).1 fun hpc => by
    cases haway.symm.trans (Pc.awaited_eq_some.mpr hpc)
  exact ⟨.inr (hresult hmarked), hx.2⟩

/-- A test that ends in time. -/
lemma Ledger.stop (h : x.Ledger c p vs tr) (hr : x.Regular c p) (hok : x.Ok c p)
    (hmessage : 0 < x.messages) (hcmd : x.test.cmd = .testEnd)
    (hresult : x.test.result ≠ .timeout) :
    ({ x with
        messages := x.messages - 1
        test := x.test.counted
        frames := .result .service p :: x.frames } : Session).Ledger c p (vs ++ [x.test.result])
      (tr ++ [.handles (c.pid p) .testEnd x.test.current, .does (.timerCancel p)]) := by
  obtain ⟨hphase, hphase'⟩ := phase_of_message hok hmessage hcmd
  have hframes := hr.frames_nil_of_message hok hresult hmessage
  obtain ⟨hpass, hfail⟩ := h.counts_lt hr hphase hresult
  refine h.add hr hframes hphase hresult (untold_of_handles (fun _ => ?_) (by simp) ?_) ?_
    (congrArg _ (if_pos (.inl hphase'))) (counted_passCount hpass)
    (counted_failCount hfail (hr.passed_or_failed hresult)) (absurd · hresult)
  · exact h.current_lt hr hphase hresult
  · simp [Quiet, Note.subject]
  · rw [due, hframes]
    simp only [counted_current, counted_result]
    rfl

/-- A test that times out. -/
lemma Ledger.timeout (h : x.Ledger c p vs tr) (hr : x.Regular c p) (hok : x.Ok c p)
    (htimely : x.Timely) :
    ({ x with
        test := { x.test with result := .timeout }
        frames := .result .timeout p :: x.frames } : Session).Ledger c p (vs ++ [.timeout])
      (tr ++ [.expires (c.pid p) x.test.current]) := by
  have hframes := htimely.frames_nil hr hok
  obtain ⟨hphase, hresult, -⟩ := htimely
  refine h.add hr hframes hphase hresult ⟨rfl, rfl, ?_, ?_⟩ ?_ (congrArg _ (if_pos (.inr rfl))) rfl
    rfl fun _ => rfl
  · intro e he i hi
    rw [List.mem_singleton.mp he] at hi
    rcases hi with hi | hi
    · cases hi
    · cases hi
      exact h.current_lt hr hphase hresult
  · simp [Note.Starts]
  · rw [due, hframes]
    rfl

/-- The summary at the end of a run. -/
lemma Ledger.cleanup (h : x.Ledger c p vs tr) (hr : x.Regular c p) (hok : x.Ok c p)
    (hmessage : 0 < x.messages) (hcmd : x.test.cmd = .testCleanup)
    (hresult : x.test.result ≠ .timeout) :
    ({ x with
        messages := x.messages - 1
        frames := .summarized .service p :: x.frames } : Session).Ledger c p vs
      (tr ++ [.handles (c.pid p) .testCleanup x.test.current,
        .does (printTestSummary x.test)]) := by
  have hpc := hok.waits_testCleanup hmessage hcmd
  have hm := hok.messages_eq_one hmessage
  have hframes := hr.frames_nil_of_message hok hresult hmessage
  have hpid := hok.registered (turn_ne_before hpc (by simp))
  have hnot : ¬ x.Closed := by
    rintro ⟨(hreturned | ⟨-, hnone⟩) | hlate, -⟩
    · cases hpc.symm.trans hreturned
    · omega
    · exact hresult hlate
  refine h.summarize hnot rfl (summaries_printTestSummary hpid) ?_ ?_ rfl ?_ rfl
    ⟨.inl (.inr ⟨hpc, by simp [hm]⟩), ?_⟩
  · simp [Note.Ends, printTestSummary]
  · simp [Note.Starts, printTestSummary]
  · simp [finished, phase, hpc]
  · simp [hframes, Frame.isSummarized]

/-- The summary after a timeout. -/
lemma Ledger.reportedTimeout (h : x.Ledger c p vs tr) (hr : x.Regular c p) (hok : x.Ok c p)
    {frames : List Frame} (hframes : x.frames = .reported .timeout p :: frames) :
    ({ x with frames := .summarized .timeout p :: frames } : Session).Ledger c p vs
      (tr ++ [.does (printTestSummary x.test)]) := by
  have hresult := hr.marked_of_frame hframes rfl
  have hpid := hr.pid_of_frame (f := .reported .timeout p) hok (by simp [hframes])
    (by simp [Frame.answers])
  obtain rfl := hr.frames_eq hframes
  refine h.summarize (not_closed_of_frame hframes rfl) rfl (summaries_printTestSummary hpid)
    ?_ ?_ ?_ rfl rfl ⟨.inr hresult, ?_⟩
  · simp [Note.Ends, printTestSummary]
  · simp [Note.Starts, printTestSummary]
  · rw [due, due, hframes]
    rfl
  · simp [Frame.isSummarized]

lemma Ledger.step (h : x.Ledger c p vs tr) (hr : x.Regular c p) (hok : x.Ok c p)
    (hstep : Step c p x label x' es) (hne : x.pc ≠ .notCalled)
    (htimely : label = .timeout → x.Timely) : ∃ vs', x'.Ledger c p vs' (tr ++ es) := by
  cases hstep with
  | call hpc => exact absurd hpc hne
  | access haccess => exact ⟨vs, h.access hr hok haccess⟩
  | @notify y hpc =>
    refine ⟨vs, h.congr (untold_of_quiet (by simp [Quiet, Note.subject])) rfl ?_ rfl rfl rfl id
      fun hx => ⟨.inr (hx.marked (by simp [hpc]) (by simp [hpc])), hx.2⟩⟩
    cases y <;> simp [finished, phase, hpc, Pc.index]
  | @wake y hpc hdone =>
    obtain ⟨hm, -⟩ := hok.of_woken hpc hdone
    refine ⟨vs, h.congr (untold_of_quiet (by simp [Quiet, Note.subject])) rfl ?_ rfl rfl rfl id
      fun hx => ?_⟩
    · cases y <;> simp [finished, phase, hpc, Pc.index, Sync.next, Sync.index, hm]
    · by_cases hy : y = .testCleanup
      · subst hy
        exact ⟨.inl (.inl rfl), hx.2⟩
      · exact ⟨.inr (hx.marked (by simp [hpc]) (by simpa [hpc] using hy)), hx.2⟩
  | finish passed reason hpc =>
    refine ⟨vs, h.congr (untold_of_quiet quiet_nil) rfl ?_ rfl rfl rfl id
      fun hx => ⟨.inr (hx.marked (by simp [hpc]) (by simp [hpc])), hx.2⟩⟩
    simp [finished, phase, hpc, Pc.index]
  | continueCallback hn hyields =>
    exact ⟨vs, h.congr (untold_of_quiet quiet_nil) rfl rfl rfl rfl rfl id id⟩
  | searches hmessage hcmd =>
    have hpc := hok.waits_testInit hmessage hcmd
    have hresult := hr.not_marked (by rw [phase, hpc])
    refine ⟨vs, h.congr (untold_of_handles (by simp) (by simp) quiet_nil) rfl ?_ rfl rfl rfl id
      fun hx => absurd (hx.marked (by simp [hpc]) (by simp [hpc])) hresult⟩
    simp [finished, phase, hpc]
  | @init first hmessage hcmd =>
    have hpc := hok.waits_testInit hmessage hcmd
    have hresult := hr.not_marked (by rw [phase, hpc])
    refine ⟨vs, h.congr (untold_of_handles (by simp) (by simp) ?_) rfl ?_ rfl rfl rfl id
      fun hx => absurd (hx.marked (by simp [hpc]) (by simp [hpc])) hresult⟩
    · cases first <;> simp [Quiet, Note.subject]
    · simp [finished, phase, hpc]
  | start hmessage hcmd =>
    obtain ⟨i, hpc⟩ := hok.waits_testStart hmessage hcmd
    have hm := hok.messages_eq_one hmessage
    have hresult := hr.not_marked (by simp [phase, hpc, hmessage])
    refine ⟨vs, h.congr (untold_of_handles (by simp) (fun _ => hresult) ?_) rfl ?_ rfl rfl rfl id
      fun hx => absurd (hx.marked (by simp [hpc]) (by simp [hpc])) hresult⟩
    · simp [Quiet, Note.subject]
    · simp [finished, phase, hpc, hm, hresult]
  | stop hmessage hcmd hresult => exact ⟨_, h.stop hr hok hmessage hcmd hresult⟩
  | stopTimeout hmessage hcmd hresult =>
    obtain ⟨i, hpc⟩ := hok.waits_testEnd hmessage hcmd
    refine ⟨vs, h.congr (untold_of_handles (fun _ => ?_) (by simp) ?_) rfl ?_ rfl rfl rfl id
      fun hx => ⟨.inr hresult, hx.2⟩⟩
    · rw [hr.current_toNat, h.length]
      simp [finished, hresult]
    · simp [Quiet, Note.subject]
    · simp [finished, hresult]
  | cleanup hmessage hcmd hresult => exact ⟨vs, h.cleanup hr hok hmessage hcmd hresult⟩
  | cleanupTimeout hmessage hcmd hresult =>
    have hpc := hok.waits_testCleanup hmessage hcmd
    exact absurd hresult (hr.not_marked (by rw [phase, hpc]))
  | timeout => exact ⟨_, h.timeout hr hok (htimely rfl)⟩
  | @result caller printed frames hframes hprinted =>
    refine ⟨vs, h.congr (untold_of_quiet quiet_nil) ?_ rfl rfl rfl rfl id
      fun hx => absurd hx (not_closed_of_frame hframes rfl)⟩
    rw [due, due, hframes]
    rfl
  | @outcome caller printed frames hframes =>
    obtain rfl := hr.frames_eq hframes
    exact ⟨vs, h.print hr hframes⟩
  | reported hframes =>
    refine ⟨vs, h.congr (untold_of_quiet (by simp [Quiet, Note.subject])) ?_ rfl rfl rfl rfl id
      fun hx => absurd hx (not_closed_of_frame hframes rfl)⟩
    rw [due, due, hframes]
    rfl
  | reportedTimeout hframes => exact ⟨vs, h.reportedTimeout hr hok hframes⟩
  | summarized hframes =>
    refine ⟨vs, h.congr (untold_of_quiet (by simp [Quiet, Note.subject])) ?_ rfl rfl rfl rfl id
      fun hx => ⟨hx.1, fun f hf => hx.2 f (hframes ▸ List.mem_cons_of_mem _ hf)⟩⟩
    rw [due, due, hframes]
    rfl
  | summarizedTimeout hframes =>
    refine ⟨vs, h.congr (untold_of_quiet quiet_nil) ?_ rfl rfl rfl rfl id
      fun hx => ⟨hx.1, fun f hf => hx.2 f (hframes ▸ List.mem_cons_of_mem _ hf)⟩⟩
    rw [due, due, hframes]
    rfl
  | letIn hqueued =>
    exact ⟨vs, h.congr (untold_of_quiet (by simp [Quiet, Note.subject])) rfl rfl rfl rfl rfl id id⟩

/-! ### From the start -/

/-- A runner that has not been called, or one with a ledger. -/
def Told (c : Processes) (p : Ptr) (tr : List Note) (x : Session) : Prop :=
  x.pc = .notCalled ∧ x.frames = [] ∧ Quiet (c.pid p) tr ∨
    x.pc ≠ .notCalled ∧ x.Regular c p ∧ ∃ vs, x.Ledger c p vs tr

lemma Step.ne_notCalled (h : Step c p x label x' es) (hne : x.pc ≠ .notCalled) :
    x'.pc ≠ .notCalled := by
  cases h with
  | access haccess => exact (Pc.ne_of_access haccess).2.2
  | @wake y _ _ => cases y <;> simp [Sync.next]
  | call _ | notify _ | finish _ _ _ => simp
  | _ => exact hne

/-- The first thing that happens to a runner is that it is called. -/
lemma Step.of_notCalled (h : Step c p x label x' es) (hok : x.Ok c p) (hpc : x.pc = .notCalled)
    (hframes : x.frames = []) (htimely : label = .timeout → x.Timely) :
    es = [] ∧ x' = { x with pc := .setsCmd .testInit, test := (c.arguments p).initialTest } := by
  have hmessage : ¬ 0 < x.messages := by
    intro hm
    obtain ⟨y, hy, -⟩ := hok.of_message hm
    cases hpc.symm.trans hy
  cases h with
  | call _ => exact ⟨rfl, rfl⟩
  | access haccess => simp [hpc, Pc.access] at haccess
  | notify hpc' | wake hpc' _ | finish _ _ hpc' => cases hpc.symm.trans hpc'
  | continueCallback _ hyields => simp [hpc, Pc.yields] at hyields
  | searches hm _ | init hm _ | start hm _ | stop hm _ _ | stopTimeout hm _ _ | cleanup hm _ _
  | cleanupTimeout hm _ _ => exact absurd hm hmessage
  | timeout => simp [Timely, phase, hpc] at htimely
  | result hframes' _ | outcome hframes' | reported hframes' | reportedTimeout hframes'
  | summarized hframes' | summarizedTimeout hframes' => cases hframes.symm.trans hframes'
  | letIn hqueued => simp [turn, hpc] at hqueued

lemma ledger_of_call (h : Quiet (c.pid p) tr) (hframes : x.frames = [])
    (hpc : x.pc = .setsCmd .testInit) (htest : x.test = (c.arguments p).initialTest) :
    x.Ledger c p [] tr where
  lines := by
    rw [h.lines, due_of_nil hframes]
    rfl
  length := by simp [finished, phase, hpc, htest, Pc.index, Sync.index, Arguments.initialTest]
  passed := by
    rw [htest]
    rfl
  failed := by
    rw [htest]
    rfl
  marked := nofun
  ended _ he _ hi := absurd hi (h.not_ends he)
  once := by
    rw [h.summaries]
    exact Nat.zero_le _
  closed s hs := by
    rw [h.summaries] at hs
    cases hs
  last := List.pairwise_of_forall_mem_list fun _ he _ _ htimeout =>
    absurd htimeout (h.not_timesOut he)

lemma Told.step (h : x.Told c p tr) (hok : x.Ok c p) (hstep : Step c p x label x' es)
    (htimely : label = .timeout → x.Timely) : x'.Told c p (tr ++ es) := by
  rcases h with ⟨hpc, hframes, hquiet⟩ | ⟨hne, hr, vs, h⟩
  · obtain ⟨rfl, rfl⟩ := hstep.of_notCalled hok hpc hframes htimely
    rw [List.append_nil]
    exact .inr ⟨nofun, regular_of_nil hframes (Nat.zero_le _) nofun rfl rfl (.inl rfl), [],
      ledger_of_call hquiet hframes rfl rfl⟩
  · exact .inr ⟨hstep.ne_notCalled hne, hstep.regular hr hok htimely,
      h.step hr hok hstep hne htimely⟩

/-- What the supervisor notes in a step is about the process of this runner. -/
lemma Told.quiet (h : x.Told c p tr) (hok : x.Ok c p) (hstep : Step c p x label x' es) {pid : ℤ}
    (hpid : c.pid p ≠ pid) : Quiet pid es := by
  cases hstep with
  | @init first _ _ => cases first <;> simp [Quiet, Note.subject, hpid]
  | cleanup hmessage hcmd _ =>
    have hpc := hok.waits_testCleanup hmessage hcmd
    have htest := hok.registered (turn_ne_before hpc (by simp))
    simp [Quiet, Note.subject, printTestSummary, htest, hpid]
  | @outcome caller printed frames hframes =>
    rcases h with ⟨-, hnil, -⟩ | ⟨-, hr, -⟩
    · cases hnil.symm.trans hframes
    · have hprinted := (hr.printed caller printed (by simp [hframes])).1
      simp [Quiet, Note.subject, printTestResult, hprinted, hpid]
  | reportedTimeout hframes =>
    rcases h with ⟨-, hnil, -⟩ | ⟨-, hr, -⟩
    · cases hnil.symm.trans hframes
    · have htest := hr.pid_of_frame (f := .reported .timeout p) hok (by simp [hframes])
        (by simp [Frame.answers])
      simp [Quiet, Note.subject, printTestSummary, htest, hpid]
  | _ => simp [Quiet, Note.subject, hpid]

lemma Told.other (h : x.Told c p tr) (hes : Quiet (c.pid p) es) : x.Told c p (tr ++ es) := by
  rcases h with ⟨hpc, hframes, hquiet⟩ | ⟨hne, hr, vs, h⟩
  · exact .inl ⟨hpc, hframes, hquiet.append hes⟩
  · exact .inr ⟨hne, hr, vs, h.congr (untold_of_quiet hes) rfl rfl rfl rfl rfl id id⟩

/-! ### What the ledger says -/

lemma Ledger.lines_eq (h : x.Ledger c p vs tr) (hdue : x.due = []) :
    UnitTest.lines (c.pid p) tr = numbered vs := by
  have hlines := h.lines
  rwa [hdue, List.append_nil] at hlines

lemma Closed.due (h : x.Closed) : x.due = [] := by
  have hnone : x.frames.filter Frame.unprinted = [] := by
    rw [List.filter_eq_nil_iff]
    intro f hf
    have hsummarized := h.2 f hf
    cases f with
    | summarized caller p => exact Bool.false_ne_true
    | _ => cases hsummarized
  rw [Session.due, hnone]
  rfl

lemma Ledger.counts_le (h : x.Ledger c p vs tr) (hr : x.Regular c p) :
    x.test.passCount.toNat + x.test.failCount.toNat ≤ x.test.count.toNat := by
  have hne : UnitTestResult.passed ≠ .failed := nofun
  have hcounts := count_add_count_le hne vs
  have hlen := h.length
  have hfinished := hr.finished_le
  rw [h.passed, h.failed, hr.count]
  omega

end Session

/-! ### Runs -/

namespace World

variable {c : Processes} {find : Search} {w : World} {p : Ptr} {tr : List Note} {s : Supervisor}

/-- The condition on a step: a timeout comes in time. -/
def InTime (c : Processes) (w : World) : Action → Prop
  | .timeout p => (w.session c p).Timely
  | _ => True

/-- No callback for the runner is in progress. -/
def Settled (w : World) (p : Ptr) : Prop := ∀ f ∈ w.stack, f.test ≠ p

structure ReportsOnce (c : Processes) (tr : List Note) (w : World) (p : Ptr) : Prop where
  atMostOne : ∀ i, (lines (c.pid p) tr).countP (fun l => l.1 = i) ≤ 1
  /-- A test that has ended or timed out has its line. -/
  exactlyOne : w.Settled p → ∀ i, (∃ e ∈ tr, e.Ends (c.pid p) i) →
    (lines (c.pid p) tr).countP (fun l => l.1 = i) = 1
  /-- The counters count the lines; those of the tests that timed out do not count. -/
  counted : w.Settled p → w.pc p ≠ .notCalled →
    (w.supervisor.tests p).passCount.toNat =
        (lines (c.pid p) tr).countP (fun l => l.2 = .passed) ∧
      (w.supervisor.tests p).failCount.toNat =
        (lines (c.pid p) tr).countP (fun l => l.2 = .failed)
  /-- No test is started after one that is reported as timed out. -/
  last : tr.Pairwise fun e e' => e.TimesOut (c.pid p) → ¬ e'.Starts (c.pid p)
  oneSummary : (summaries (c.pid p) tr).length ≤ 1
  addsUp : ∀ s ∈ summaries (c.pid p) tr,
    s.pass.toNat = (lines (c.pid p) tr).countP (fun l => l.2 = .passed) ∧
      s.fail.toNat = (lines (c.pid p) tr).countP (fun l => l.2 = .failed) ∧
      s.pass.toNat + s.fail.toNat + s.incomplete.toNat = (c.arguments p).testCount.toNat

lemma frames_nil_of_settled (h : w.Settled p) : (w.session c p).frames = [] := by
  rw [session, List.filter_eq_nil_iff]
  intro f hf
  simpa using h f hf

lemma reportsOnce_of_told (h : (w.session c p).Told c p tr) : w.ReportsOnce c tr p := by
  rcases h with ⟨hpc, -, hquiet⟩ | ⟨-, hr, vs, h⟩
  · constructor
    · simp [hquiet.lines]
    · rintro - i ⟨e, he, hi⟩
      exact absurd hi (hquiet.not_ends he)
    · exact fun _ hne => absurd hpc hne
    · exact List.pairwise_of_forall_mem_list fun _ he _ _ htimeout =>
        absurd htimeout (hquiet.not_timesOut he)
    · simp [hquiet.summaries]
    · simp [hquiet.summaries]
  · have hlen : vs.length ≤ 2 ^ 32 := by
      have hfinished := hr.finished_le
      have hlt := (c.arguments p).testCount.isLt
      rw [h.length]
      omega
    constructor
    · intro i
      have hcount := countP_number hlen i
      rw [← h.lines, List.countP_append] at hcount
      split_ifs at hcount <;> omega
    · rintro hsettled i ⟨e, he, hi⟩
      have hlines := h.lines_eq (Session.due_of_nil (frames_nil_of_settled hsettled))
      rw [hlines, countP_number hlen, if_pos (h.ended e he i hi)]
    · intro hsettled _
      have hlines := h.lines_eq (Session.due_of_nil (frames_nil_of_settled hsettled))
      rw [hlines, countP_result, countP_result]
      exact ⟨h.passed, h.failed⟩
    · exact h.last
    · exact h.once
    · intro s hs
      obtain ⟨rfl, hclosed⟩ := h.closed s hs
      rw [h.lines_eq hclosed.due, countP_result, countP_result, ← hr.count]
      exact ⟨h.passed, h.failed, UnitTestT.summary_sum (h.counts_le hr)⟩

lemma told_of_run (h : Run (Guarded (Step c find) (InTime c)) (initial s) tr w) :
    ∃ l, w.Inv c l ∧ ∀ p, (w.session c p).Told c p tr := by
  refine forall_sessions_of_run (G := fun _ x => x.Timely) (I := fun p tr x => x.Told c p tr)
    ?_ ?_ (fun _ _ htimely => htimely) (fun p => ?_) h
  · exact fun p tr x label x' es hx hok hstep htimely => hx.step hok hstep htimely
  · intro p q tr x y label y' es hne hx hy hok hstep
    exact hx.other (hy.quiet hok hstep (pid_ne hne))
  · exact .inl ⟨rfl, rfl, nofun⟩

/-- When every timeout comes in time, the tests of every runner are reported once. -/
theorem reportsOnce_of_run (h : Run (Guarded (Step c find) (InTime c)) (initial s) tr w) (p : Ptr) :
    w.ReportsOnce c tr p := by
  obtain ⟨l, -, htold⟩ := told_of_run h
  exact reportsOnce_of_told (htold p)

/-! ### Two runs -/

instance (x : Session) : Decidable x.Timely := inferInstanceAs (Decidable (_ ∧ _ ∧ _))

instance (c : Processes) (w : World) (a : Action) : Decidable (InTime c w a) :=
  match a with
  | .timeout p => inferInstanceAs (Decidable (w.session c p).Timely)
  | .call _ | .access _ | .notify _ | .wake _ | .finish _ _ _ | .continueCallback _ | .expire _
  | .service _ | .resume => inferInstanceAs (Decidable True)

/-- Everyone has two tests. -/
def sampleTwoTests : Processes :=
  { sampleProcesses with arguments := fun _ => ⟨fun _ _ => 0, 2, 100⟩ }

/-- A test that passes, and one that times out. -/
def sampleReports : List Action := List.flatten [
  [.call 1], sends 1, [.service 1], awakes 1,
  [.access 1], sends 1, [.service 1], awakes 1,
  [.finish 1 true fun _ => 0, .access 1, .access 1, .access 1], sends 1,
  [.service 1, .resume, .resume, .resume], awakes 1, [.access 1],
  [.access 1], sends 1, [.service 1], awakes 1,
  [.expire 1, .timeout 1, .resume, .resume, .resume, .resume]]

theorem reportsOnce_of_run_sampleReports : ∃ tr w,
    Run (Guarded (Step sampleTwoTests .asWritten) (InTime sampleTwoTests))
        (initial sampleSupervisor) tr w ∧
      lines 1 tr = [(0, .passed), (1, .timeout)] ∧ (summaries 1 tr).length = 1 ∧
      w.ReportsOnce sampleTwoTests tr 1 := by
  have hplay : (play (restrict (World.step sampleTwoTests .asWritten) (InTime sampleTwoTests))
      (initial sampleSupervisor) sampleReports).any (fun r =>
        lines 1 r.2 = [(0, .passed), (1, .timeout)] ∧ (summaries 1 r.2).length = 1) := by
    decide +kernel
  obtain ⟨tr, w, hrun, hfacts⟩ := Run.of_play_restrict_any
    (fun _ _ _ _ hstep => hstep) sampleReports hplay
  obtain ⟨hlines, hsummaries⟩ := of_decide_eq_true hfacts
  exact ⟨tr, w, hrun, hlines, hsummaries, reportsOnce_of_run hrun 1⟩

/-- The timer expires when the runner has read the result and not yet written it: the test is
reported as timed out, and then as passed. -/
def sampleOverwrite : List Action := List.flatten [
  [.call 1], sends 1, [.service 1], awakes 1,
  [.access 1], sends 1, [.service 1], awakes 1,
  [.finish 1 true fun _ => 0, .access 1],
  [.expire 1, .timeout 1, .resume, .resume, .resume, .resume],
  [.access 1, .access 1], sends 1, [.service 1, .resume, .resume, .resume]]

theorem not_reportsOnce : ∃ tr w,
    Run (Step sampleProcesses .asWritten) (initial sampleSupervisor) tr w ∧
      ¬ w.ReportsOnce sampleProcesses tr 1 := by
  have hplay : (play (World.step sampleProcesses .asWritten) (initial sampleSupervisor)
      sampleOverwrite).any (fun r => lines 1 r.2 = [(0, .timeout), (0, .passed)]) := by
    decide +kernel
  obtain ⟨tr, w, hrun, hfacts⟩ := run_of_play_any sampleOverwrite hplay
  have hlines : lines 1 tr = [(0, .timeout), (0, .passed)] := of_decide_eq_true hfacts
  refine ⟨tr, w, hrun, fun h => ?_⟩
  have hone : (lines 1 tr).countP (fun l => l.1 = 0) ≤ 1 := h.atMostOne 0
  rw [hlines] at hone
  exact absurd hone (by decide)

end World

end UnitTest
