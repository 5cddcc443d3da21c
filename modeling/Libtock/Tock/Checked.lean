import Libtock.Tock.Kernel

/-!
# System calls that are checked one after the other

Most functions of the library make a number of system calls and return the code of the first one
that is negative. Such a function is a list of requests.
-/

namespace Tock

/-- A system call that has not been made. -/
inductive Request (σ ρ : Type)
  | subscribe (driver num : U32) (content : Option σ)
  | allowReadwrite (driver num : U32) (buffer : ρ)
  | allowReadonly (driver num : U32) (buffer : ρ)
  | command (driver num arg1 arg2 : U32)

variable {σ ρ : Type}

/-- The system call and what the kernel answers. -/
def Request.issue (k : Kernel) : Request σ ρ → Issued σ ρ
  | subscribe driver num content => .subscribe driver num content (k.subscribe driver num)
  | allowReadwrite driver num buffer =>
    .allowReadwrite driver num buffer (k.allowReadwrite driver num)
  | allowReadonly driver num buffer => .allowReadonly driver num buffer (k.allowReadonly driver num)
  | command driver num arg1 arg2 =>
    .command driver num arg1 arg2 (k.command driver num arg1 arg2)

namespace Sys

/-- Makes a system call; its return code. -/
def perform (r : Request σ ρ) : Sys σ ρ ℤ where
  run k := ((r.issue k).toReturncode, [r.issue k])

@[simp] lemma perform_run (r : Request σ ρ) (k : Kernel) :
    (perform r).run k = ((r.issue k).toReturncode, [r.issue k]) := rfl

/-- Makes system calls until one has a negative return code. -/
def checked : List (Request σ ρ) → Sys σ ρ ℤ
  | [] => return returncodeSuccess
  | r :: rs => do
    let err ← perform r
    if err < 0 then return err
    checked rs

/-- All of them, and then waits. -/
def checkedBlocking (rs : List (Request σ ρ)) (finish : List UpcallArgs → ℤ × List U32) :
    Sys σ ρ Outcome := do
  let err ← checked rs
  if err < 0 then return .returned err
  return .waits finish

end Sys

variable {k : Kernel} {rs : List (Request σ ρ)}

/-- The requests that go well, and what follows them. -/
lemma checked_run (rs : List (Request σ ρ)) (k : Kernel) :
    ((∀ r ∈ rs, ¬ (r.issue k).toReturncode < 0) ∧
      (Sys.checked rs).run k = (returncodeSuccess, rs.map (Request.issue k))) ∨
    ∃ done r rest, rs = done ++ r :: rest ∧ (∀ r ∈ done, ¬ (r.issue k).toReturncode < 0) ∧
      (r.issue k).toReturncode < 0 ∧
      (Sys.checked rs).run k =
        ((r.issue k).toReturncode, done.map (Request.issue k) ++ [r.issue k]) := by
  induction rs with
  | nil => exact .inl ⟨by simp, rfl⟩
  | cons r rs ih =>
    by_cases hr : (r.issue k).toReturncode < 0
    · refine .inr ⟨[], r, rs, rfl, by simp, hr, ?_⟩
      simp [Sys.checked, hr]
    · have hrun : (Sys.checked (r :: rs)).run k =
          (((Sys.checked rs).run k).1, r.issue k :: ((Sys.checked rs).run k).2) := by
        simp [Sys.checked, hr]
      rw [hrun]
      rcases ih with ⟨hall, heq⟩ | ⟨done, r', rest, rfl, hdone, hneg, heq⟩
      · refine .inl ⟨?_, ?_⟩
        · simpa using ⟨not_lt.mp hr, fun r hr => not_lt.mp (hall r hr)⟩
        · rw [heq]
          rfl
      · refine .inr ⟨r :: done, r', rest, rfl, ?_, hneg, ?_⟩
        · simpa using ⟨not_lt.mp hr, fun r hr => not_lt.mp (hdone r hr)⟩
        · rw [heq]
          rfl

lemma isFailure_of_not_neg {i : Issued σ ρ} (h : ¬ i.toReturncode < 0) : i.isFailure = false :=
  Bool.eq_false_of_not_eq_true fun hfail => h (Issued.toReturncode_neg hfail)

lemma isFailure_of_mem_map (h : ∀ r ∈ rs, ¬ (r.issue k).toReturncode < 0) :
    ∀ i ∈ rs.map (Request.issue k), i.isFailure = false := by
  intro i hi
  obtain ⟨r, hr, rfl⟩ := List.mem_map.mp hi
  exact isFailure_of_not_neg (h r hr)

lemma checkedBlocking_run_of_pos {finish : List UpcallArgs → ℤ × List U32} {l : List (Issued σ ρ)}
    (h : (Sys.checked rs).run k = (returncodeSuccess, l)) :
    (Sys.checkedBlocking rs finish).run k = (.waits finish, l) := by
  have hpos : ¬ returncodeSuccess < 0 := lt_irrefl _
  simp [Sys.checkedBlocking, h, hpos]

lemma checkedBlocking_run_of_neg {finish : List UpcallArgs → ℤ × List U32} {l : List (Issued σ ρ)}
    {err : ℤ} (herr : err < 0) (h : (Sys.checked rs).run k = (err, l)) :
    (Sys.checkedBlocking rs finish).run k = (.returned err, l) := by
  simp [Sys.checkedBlocking, h, herr]

/-- A function that checks all its system calls, the last one a command, waits as promised. -/
lemma waitsAsPromised_checked (rs : List (Request σ ρ)) (driver num arg1 arg2 : U32)
    (finish : List UpcallArgs → ℤ × List U32) (k : Kernel) :
    WaitsAsPromised
      ((Sys.checkedBlocking (rs ++ [.command driver num arg1 arg2]) finish).run k) := by
  rcases checked_run (rs ++ [.command driver num arg1 arg2]) k with
    ⟨hall, hrun⟩ | ⟨done, r, rest, -, hdone, hneg, hrun⟩
  · rw [checkedBlocking_run_of_pos hrun]
    refine waitsAsPromised_of_accepted (isFailure_of_mem_map hall) fun _ => ?_
    have hlast : ¬ (k.command driver num arg1 arg2).toReturncode < 0 := hall (.command ..) (by simp)
    rw [Response.toReturncode_neg_iff, not_not] at hlast
    refine ⟨.command driver num arg1 arg2 .success, ?_, rfl⟩
    rw [List.map_append, List.map_singleton, Request.issue, hlast]
    exact List.mem_append_right _ (List.mem_singleton_self _)
  · rw [checkedBlocking_run_of_neg hneg hrun]
    cases hfail : (r.issue k).isFailure with
    | true => exact waitsAsPromised_of_failure hfail (isFailure_of_mem_map hdone)
    | false =>
      refine waitsAsPromised_of_accepted ?_ fun h => absurd h Bool.false_ne_true
      intro i hi
      rcases List.mem_append.mp hi with hi | hi
      · exact isFailure_of_mem_map hdone i hi
      · rw [List.mem_singleton.mp hi, hfail]

end Tock
