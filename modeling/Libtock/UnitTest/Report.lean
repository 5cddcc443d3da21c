import Libtock.UnitTest.Progress

/-!
# What the supervisor reports

Every test that ends or times out has one line, and the summary counts the lines: as long as a
timeout comes while its test runs, and not when the runner is about to overwrite its mark.
-/

namespace UnitTest

open Core Tock

/-! ### Lines and summaries -/

/-- The result that the text of a line stands for. -/
def verdict (outcome : String) : UnitTestResult :=
  if outcome = "[✓]\n" then .passed
  else if outcome = "[ERROR: Timeout]\n" then .timeout
  else if outcome = "" then .other 0
  else .failed

lemma failed_ne (reason text : String) (h : text.toList[1]? ≠ some 'F') :
    "[FAILED] " ++ reason ++ "\n" ≠ text := by
  rintro rfl
  simp at h

lemma verdict_outcome {t : UnitTestT}
    (h : t.result = .passed ∨ t.result = .failed ∨ t.result = .timeout) :
    verdict t.outcome = t.result := by
  rcases h with h | h | h
  · simp [UnitTestT.outcome, verdict, h]
  · have hpassed := failed_ne (cString t.reason) "[✓]\n" (by simp)
    have htimeout := failed_ne (cString t.reason) "[ERROR: Timeout]\n" (by simp)
    have hnone := failed_ne (cString t.reason) "" (by simp)
    simp only [UnitTestT.outcome, h, verdict, hpassed, htimeout, hnone, if_false]
  · simp [UnitTestT.outcome, verdict, h]

structure Summary where
  pass : U32
  fail : U32
  incomplete : U32
  total : U32

/-- What `print_test_summary` computes. -/
def UnitTestT.summary (t : UnitTestT) : Summary :=
  let done := t.passCount + t.failCount
  let total := if t.count > done then t.count else done
  ⟨t.passCount, t.failCount, total - done, total⟩

namespace Note

variable (pid : ℤ)

/-- A line about a test of the process: its number, and its result. -/
def line : Note → Option (U32 × UnitTestResult)
  | does (.printResult pid' current _ outcome) =>
    if pid' = pid then some (current, verdict outcome) else none
  | _ => none

def summary : Note → Option Summary
  | does (.printSummary pid' pass fail incomplete total) =>
    if pid' = pid then some ⟨pass, fail, incomplete, total⟩ else none
  | _ => none

/-- The supervisor starts a test. -/
def Starts (e : Note) : Prop := ∃ i, e = handles pid .testStart i

/-- The test with this number ends, or times out. -/
def Ends (i : U32) (e : Note) : Prop := e = handles pid .testEnd i ∨ e = expires pid i

/-- A test is reported as timed out. -/
def TimesOut (e : Note) : Prop := ∃ i, e.line pid = some (i, .timeout)

/-- The process that a note of the supervisor is about. -/
def subject : Note → Option ℤ
  | handles pid _ _ | expires pid _ | does (.printResult pid _ _ _)
  | does (.printSummary pid _ _ _ _) => some pid
  | _ => none

end Note

def lines (pid : ℤ) (tr : List Note) : List (U32 × UnitTestResult) := tr.filterMap (Note.line pid)

def summaries (pid : ℤ) (tr : List Note) : List Summary := tr.filterMap (Note.summary pid)

section

variable {pid : ℤ} {e : Note} {tr tr' es : List Note} {i : U32}

lemma lines_append : lines pid (tr ++ tr') = lines pid tr ++ lines pid tr' := List.filterMap_append

lemma summaries_append : summaries pid (tr ++ tr') = summaries pid tr ++ summaries pid tr' :=
  List.filterMap_append

lemma lines_printTestResult {t : UnitTestT} (h : t.pid = pid) :
    lines pid [.does (printTestResult t)] = [(t.current, verdict t.outcome)] := by
  simp [lines, Note.line, printTestResult, h]

lemma summaries_printTestSummary {t : UnitTestT} (h : t.pid = pid) :
    summaries pid [.does (printTestSummary t)] = [t.summary] := by
  simp [summaries, Note.summary, printTestSummary, UnitTestT.summary, h]

lemma Note.subject_of_line (h : e.line pid ≠ none) : e.subject = some pid := by
  cases e with
  | does e =>
    cases e with
    | printResult pid' current name outcome =>
      by_contra hne
      exact h (if_neg fun heq => hne (congrArg some heq))
    | _ => exact absurd rfl h
  | _ => exact absurd rfl h

lemma Note.subject_of_summary (h : e.summary pid ≠ none) : e.subject = some pid := by
  cases e with
  | does e =>
    cases e with
    | printSummary pid' pass fail incomplete total =>
      by_contra hne
      exact h (if_neg fun heq => hne (congrArg some heq))
    | _ => exact absurd rfl h
  | _ => exact absurd rfl h

/-- Notes that are not about the process. -/
def Quiet (pid : ℤ) (es : List Note) : Prop := ∀ e ∈ es, e.subject ≠ some pid

lemma quiet_nil : Quiet pid [] := List.forall_mem_nil _

lemma Quiet.lines (h : Quiet pid es) : lines pid es = [] := by
  rw [UnitTest.lines, List.filterMap_eq_nil_iff]
  intro e he
  by_contra hne
  exact h e he (Note.subject_of_line hne)

lemma Quiet.summaries (h : Quiet pid es) : summaries pid es = [] := by
  rw [UnitTest.summaries, List.filterMap_eq_nil_iff]
  intro e he
  by_contra hne
  exact h e he (Note.subject_of_summary hne)

lemma Quiet.not_ends (h : Quiet pid es) (he : e ∈ es) : ¬ e.Ends pid i := by
  rintro (rfl | rfl) <;> exact h _ he rfl

lemma Quiet.not_starts (h : Quiet pid es) (he : e ∈ es) : ¬ e.Starts pid := by
  rintro ⟨i, rfl⟩
  exact h _ he rfl

lemma Quiet.not_timesOut (h : Quiet pid es) (he : e ∈ es) : ¬ e.TimesOut pid := by
  rintro ⟨i, hi⟩
  exact h _ he (Note.subject_of_line (by simp [hi]))

lemma Quiet.append (h : Quiet pid tr) (h' : Quiet pid es) : Quiet pid (tr ++ es) := by
  intro e he
  rcases List.mem_append.mp he with he | he
  · exact h e he
  · exact h' e he

end

/-! ### Results by number -/

section

variable {vs : List UnitTestResult} {v : UnitTestResult}

/-- The results with the numbers of their tests. -/
def numbered (vs : List UnitTestResult) : List (U32 × UnitTestResult) :=
  vs.mapIdx fun i v => (BitVec.ofNat 32 i, v)

lemma numbered_snoc : numbered (vs ++ [v]) = numbered vs ++ [(BitVec.ofNat 32 vs.length, v)] :=
  List.mapIdx_concat

lemma mem_of_mem_numbered {i : U32} (h : (i, v) ∈ numbered vs) : v ∈ vs := by
  obtain ⟨k, hk, heq⟩ := List.mem_mapIdx.mp h
  cases heq
  exact List.getElem_mem hk

lemma countP_number (hlen : vs.length ≤ 2 ^ 32) (i : U32) :
    (numbered vs).countP (fun l => l.1 = i) = if i.toNat < vs.length then 1 else 0 := by
  induction vs using List.reverseRecOn with
  | nil => rfl
  | append_singleton vs v ih =>
    rw [List.length_append, List.length_singleton] at hlen
    rw [numbered_snoc, List.countP_append, ih (by omega), List.countP_singleton,
      List.length_append, List.length_singleton]
    have hi : BitVec.ofNat 32 vs.length = i ↔ i.toNat = vs.length := by
      rw [← BitVec.toNat_inj, BitVec.toNat_ofNat, Nat.mod_eq_of_lt (by omega), eq_comm]
    simp only [hi, decide_eq_true_eq]
    split_ifs <;> omega

lemma countP_result (vs : List UnitTestResult) (v : UnitTestResult) :
    (numbered vs).countP (fun l => l.2 = v) = vs.count v := by
  induction vs using List.reverseRecOn with
  | nil => rfl
  | append_singleton vs v' ih =>
    rw [numbered_snoc, List.countP_append, ih, List.count_append, List.countP_singleton,
      List.count_singleton]
    simp only [decide_eq_true_eq, beq_iff_eq]

lemma count_add_count_le {v v' : UnitTestResult} (hne : v ≠ v') (vs : List UnitTestResult) :
    vs.count v + vs.count v' ≤ vs.length := by
  induction vs with
  | nil => exact le_rfl
  | cons u vs ih =>
    rw [List.count_cons, List.count_cons, List.length_cons]
    by_cases hu : u = v
    · subst hu
      simp [hne]
      omega
    · simp [hu]
      split_ifs <;> omega

end

/-- The numbers of a summary add up, if no more tests are counted than there are. -/
lemma UnitTestT.summary_sum {t : UnitTestT}
    (h : t.passCount.toNat + t.failCount.toNat ≤ t.count.toNat) :
    t.summary.pass.toNat + t.summary.fail.toNat + t.summary.incomplete.toNat = t.count.toNat := by
  have hlt := t.count.isLt
  have hdone : (t.passCount + t.failCount).toNat = t.passCount.toNat + t.failCount.toNat := by
    rw [BitVec.toNat_add, Nat.mod_eq_of_lt (by omega)]
  simp only [summary]
  split_ifs with hgt
  · rw [BitVec.toNat_sub_of_le (BitVec.le_of_lt hgt), hdone]
    omega
  · have hge : t.count.toNat ≤ (t.passCount + t.failCount).toNat := by
      simpa [BitVec.lt_def] using hgt
    rw [BitVec.sub_self, BitVec.toNat_zero]
    omega

end UnitTest
