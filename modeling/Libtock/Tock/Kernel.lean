import Mathlib.Logic.Function.Basic
import Libtock.Tock.Syscall
import Libtock.Tock.TaskQueue

/-!
# System calls of a library function

A function of the library is a program in `Sys`: given the answers of the kernel it has a result,
and a list of the system calls it has made. The kernel keeps what it accepts in the `Slots` of its
drivers. `σ` stands for what a subscribe slot holds, `ρ` for the buffers an allow slot holds.
-/

namespace Tock

/-- A `syscall_return_t`, without the values that come with some of its variants. -/
inductive Response
  | success
  | successValues
  | failure (e : Failure)
  | failureValues (e : Failure)
  deriving DecidableEq

namespace Response

/-- A success variant. -/
def isAccepted : Response → Bool
  | success | successValues => true
  | failure _ | failureValues _ => false

def toCommandReturn : Response → CommandReturn
  | success => .success
  | failure e => .failure e
  | successValues | failureValues _ => .other

def toReturncode (r : Response) : ℤ := tockCommandReturnNovalueToReturncode r.toCommandReturn

@[simp] lemma toReturncode_success : success.toReturncode = returncodeSuccess := rfl

@[simp] lemma toReturncode_neg_iff (r : Response) : r.toReturncode < 0 ↔ r ≠ success := by
  cases r with
  | success => decide
  | _ => exact iff_of_true (tockCommandReturnNovalueToReturncode_neg nofun) nofun

@[simp] lemma toReturncode_lt_success_iff (r : Response) :
    r.toReturncode < returncodeSuccess ↔ r ≠ success := r.toReturncode_neg_iff

end Response

/-- How the kernel answers. -/
structure Kernel where
  /-- To `subscribe(driver, num, …)`. -/
  subscribe : U32 → U32 → Answer
  /-- To `allow_readwrite(driver, num, …)`. -/
  allowReadwrite : U32 → U32 → Answer
  /-- To `allow_readonly(driver, num, …)`. -/
  allowReadonly : U32 → U32 → Answer
  /-- To `command(driver, num, arg1, arg2)`. -/
  command : U32 → U32 → U32 → U32 → Response

/-- A kernel that does not tell calls apart. -/
def Kernel.steady (answer : Answer) (response : Response) : Kernel where
  subscribe _ _ := answer
  allowReadwrite _ _ := answer
  allowReadonly _ _ := answer
  command _ _ _ _ := response

/-- All system calls succeed. -/
structure Kernel.Accepts (k : Kernel) : Prop where
  subscribe : ∀ driver num, k.subscribe driver num = .accepted
  allowReadwrite : ∀ driver num, k.allowReadwrite driver num = .accepted
  allowReadonly : ∀ driver num, k.allowReadonly driver num = .accepted
  command : ∀ driver num arg1 arg2, (k.command driver num arg1 arg2).isAccepted = true

/-- A system call that was made, and its answer. A `subscribe` without content passes `NULL`. -/
inductive Issued (σ ρ : Type)
  | subscribe (driver num : U32) (content : Option σ) (answer : Answer)
  | allowReadwrite (driver num : U32) (buffer : ρ) (answer : Answer)
  | allowReadonly (driver num : U32) (buffer : ρ) (answer : Answer)
  | command (driver num arg1 arg2 : U32) (response : Response)

namespace Issued

variable {σ ρ : Type}

def isFailure : Issued σ ρ → Bool
  | subscribe _ _ _ a | allowReadwrite _ _ _ a | allowReadonly _ _ _ a => a ≠ .accepted
  | command _ _ _ _ r => !r.isAccepted

def toReturncode : Issued σ ρ → ℤ
  | subscribe _ _ _ a | allowReadwrite _ _ _ a | allowReadonly _ _ _ a => a.toReturncode
  | command _ _ _ _ r => r.toReturncode

/-- A command that was accepted. -/
def isAcceptedCommand : Issued σ ρ → Bool
  | command _ _ _ _ r => r.isAccepted
  | _ => false

/-- The system call, with only a part of what it subscribes. -/
def mapContent {τ : Type} (f : σ → τ) : Issued σ ρ → Issued τ Unit
  | subscribe driver num content a => subscribe driver num (content.map f) a
  | allowReadwrite driver num _ a => allowReadwrite driver num () a
  | allowReadonly driver num _ a => allowReadonly driver num () a
  | command driver num arg1 arg2 r => command driver num arg1 arg2 r

lemma toReturncode_neg {i : Issued σ ρ} (h : i.isFailure = true) : i.toReturncode < 0 := by
  cases i with
  | command _ _ _ _ r =>
    cases r with
    | success | successValues => cases h
    | failure e | failureValues e => exact (Response.toReturncode_neg_iff _).mpr nofun
  | _ => exact (Answer.toReturncode_neg_iff _).mpr (by simpa [isFailure] using h)

end Issued

/-! ### Programs -/

structure Sys (σ ρ α : Type) where
  run : Kernel → α × List (Issued σ ρ)

namespace Sys

variable {σ ρ α β : Type}

instance : Monad (Sys σ ρ) where
  pure a := ⟨fun _ => (a, [])⟩
  bind x f := ⟨fun k => (((f (x.run k).1).run k).1, (x.run k).2 ++ ((f (x.run k).1).run k).2)⟩

@[simp] lemma pure_run (a : α) (k : Kernel) : (pure a : Sys σ ρ α).run k = (a, []) := rfl

@[simp] lemma bind_run (x : Sys σ ρ α) (f : α → Sys σ ρ β) (k : Kernel) :
    (x >>= f).run k = (((f (x.run k).1).run k).1, (x.run k).2 ++ ((f (x.run k).1).run k).2) := rfl

def subscribe (driver num : U32) (content : Option σ) : Sys σ ρ Answer where
  run k := (k.subscribe driver num, [.subscribe driver num content (k.subscribe driver num)])

def allowReadwrite (driver num : U32) (buffer : ρ) : Sys σ ρ Answer where
  run k := (k.allowReadwrite driver num,
    [.allowReadwrite driver num buffer (k.allowReadwrite driver num)])

def allowReadonly (driver num : U32) (buffer : ρ) : Sys σ ρ Answer where
  run k := (k.allowReadonly driver num,
    [.allowReadonly driver num buffer (k.allowReadonly driver num)])

def mapContent {τ : Type} (f : σ → τ) (x : Sys σ ρ α) : Sys τ Unit α where
  run k := ((x.run k).1, (x.run k).2.map (Issued.mapContent f))

@[simp] lemma mapContent_run {τ : Type} (f : σ → τ) (x : Sys σ ρ α) (k : Kernel) :
    (x.mapContent f).run k = ((x.run k).1, (x.run k).2.map (Issued.mapContent f)) := rfl

def command (driver num arg1 arg2 : U32) : Sys σ ρ Response where
  run k := (k.command driver num arg1 arg2,
    [.command driver num arg1 arg2 (k.command driver num arg1 arg2)])

@[simp] lemma subscribe_run (driver num : U32) (content : Option σ) (k : Kernel) :
    (subscribe driver num content : Sys σ ρ Answer).run k =
      (k.subscribe driver num, [.subscribe driver num content (k.subscribe driver num)]) := rfl

@[simp] lemma allowReadwrite_run (driver num : U32) (buffer : ρ) (k : Kernel) :
    (allowReadwrite driver num buffer : Sys σ ρ Answer).run k =
      (k.allowReadwrite driver num,
        [.allowReadwrite driver num buffer (k.allowReadwrite driver num)]) := rfl

@[simp] lemma allowReadonly_run (driver num : U32) (buffer : ρ) (k : Kernel) :
    (allowReadonly driver num buffer : Sys σ ρ Answer).run k =
      (k.allowReadonly driver num,
        [.allowReadonly driver num buffer (k.allowReadonly driver num)]) := rfl

@[simp] lemma command_run (driver num arg1 arg2 : U32) (k : Kernel) :
    (command driver num arg1 arg2 : Sys σ ρ Response).run k =
      (k.command driver num arg1 arg2,
        [.command driver num arg1 arg2 (k.command driver num arg1 arg2)]) := rfl

end Sys

/-! ### Slots -/

/-- What the kernel holds for each driver and number. -/
structure Slots (σ ρ : Type) where
  subscription : U32 × U32 → Option σ
  readwrite : U32 × U32 → Option ρ
  readonly : U32 × U32 → Option ρ

namespace Slots

variable {σ ρ : Type}

def empty : Slots σ ρ := ⟨fun _ => none, fun _ => none, fun _ => none⟩

/-- The slots after a system call. -/
def issue (s : Slots σ ρ) : Issued σ ρ → Slots σ ρ
  | .subscribe driver num content answer =>
    { s with
      subscription := Function.update s.subscription (driver, num)
        (answer.install content (s.subscription (driver, num))) }
  | .allowReadwrite driver num buffer answer =>
    { s with
      readwrite := Function.update s.readwrite (driver, num)
        (answer.install (some buffer) (s.readwrite (driver, num))) }
  | .allowReadonly driver num buffer answer =>
    { s with
      readonly := Function.update s.readonly (driver, num)
        (answer.install (some buffer) (s.readonly (driver, num))) }
  | .command _ _ _ _ _ => s

variable {s : Slots σ ρ} {driver num arg1 arg2 : U32} {answer : Answer}

@[simp] lemma issue_command (r : Response) : s.issue (.command driver num arg1 arg2 r) = s := rfl

@[simp] lemma issue_subscribe_readwrite (content : Option σ) :
    (s.issue (.subscribe driver num content answer)).readwrite = s.readwrite := rfl

@[simp] lemma issue_allowReadonly_readwrite (buffer : ρ) :
    (s.issue (.allowReadonly driver num buffer answer)).readwrite = s.readwrite := rfl

@[simp] lemma issue_allowReadwrite_readwrite (buffer : ρ) :
    (s.issue (.allowReadwrite driver num buffer answer)).readwrite =
      Function.update s.readwrite (driver, num)
        (answer.install (some buffer) (s.readwrite (driver, num))) := rfl

@[simp] lemma issue_subscribe_subscription (content : Option σ) :
    (s.issue (.subscribe driver num content answer)).subscription =
      Function.update s.subscription (driver, num)
        (answer.install content (s.subscription (driver, num))) := rfl

@[simp] lemma issue_allowReadonly_subscription (buffer : ρ) :
    (s.issue (.allowReadonly driver num buffer answer)).subscription = s.subscription := rfl

@[simp] lemma issue_allowReadwrite_subscription (buffer : ρ) :
    (s.issue (.allowReadwrite driver num buffer answer)).subscription = s.subscription := rfl

end Slots

/-- Memory that is shared with the kernel; `NULL` is an address. -/
structure Region where
  address : Option Ptr
  size : U32
  deriving DecidableEq

/-! ### Blocking functions -/

/-- The three `int` arguments of an upcall. -/
structure UpcallArgs where
  arg0 : U32
  arg1 : U32
  arg2 : U32

/-- How far a blocking function gets: it returns, or it enters `yield_for`. Once upcalls have run
its callback there, it returns a value and those it stores through its out-pointers. -/
inductive Outcome
  | returned (ret : ℤ)
  | waits (finish : List UpcallArgs → ℤ × List U32)

def Outcome.isWaiting : Outcome → Bool
  | returned _ => false
  | waits _ => true

/-- `tock_status_to_returncode` of an `int`. -/
def statusToReturncode (status : U32) : ℤ := -1 * status.toInt

/-- Subscribes `content`, issues a command and waits, unless one of them fails. -/
def Sys.blocking {σ ρ : Type} (driver subscribeNum commandNum data1 data2 : U32) (content : σ)
    (finish : List UpcallArgs → ℤ × List U32) : Sys σ ρ Outcome := do
  let sval ← subscribe driver subscribeNum (some content)
  let err := sval.toReturncode
  if err < 0 then return .returned err
  let cval ← command driver commandNum data1 data2
  let err := cval.toReturncode
  if err < 0 then return .returned err
  return .waits finish

/-! ### What a blocking function owes its caller -/

/-- It waits only for a command that was accepted; if a system call fails, it returns the negative
return code of the first one that does. -/
structure WaitsAsPromised {σ ρ : Type} (r : Outcome × List (Issued σ ρ)) : Prop where
  accepted : r.1.isWaiting = true → ∃ i ∈ r.2, i.isAcceptedCommand = true
  failure : ∀ i ∈ r.2.find? Issued.isFailure,
    r.1 = .returned i.toReturncode ∧ i.toReturncode < 0

section

variable {σ ρ : Type} {o : Outcome} {l : List (Issued σ ρ)}

lemma waitsAsPromised_of_failure {i : Issued σ ρ} (hi : i.isFailure = true)
    (his : ∀ j ∈ l, j.isFailure = false) :
    WaitsAsPromised (.returned i.toReturncode, l ++ [i]) := by
  refine ⟨nofun, ?_⟩
  have hnone : l.find? Issued.isFailure = none := by
    rw [List.find?_eq_none]
    intro j hj
    simp [his j hj]
  intro j hj
  rw [List.find?_append, hnone, Option.none_or, List.find?_singleton, if_pos hi] at hj
  cases hj
  exact ⟨rfl, Issued.toReturncode_neg hi⟩

lemma waitsAsPromised_of_accepted (his : ∀ j ∈ l, j.isFailure = false)
    (ho : o.isWaiting = true → ∃ j ∈ l, j.isAcceptedCommand = true) :
    WaitsAsPromised (o, l) := by
  refine ⟨ho, ?_⟩
  intro j hj
  have hfail := List.find?_some hj
  rw [his j (List.mem_of_find?_eq_some hj)] at hfail
  cases hfail

/-- Looking at both answers is enough. -/
lemma waitsAsPromised_blocking (driver subscribeNum commandNum data1 data2 : U32) (content : σ)
    (finish : List UpcallArgs → ℤ × List U32) (k : Kernel) :
    WaitsAsPromised ((Sys.blocking driver subscribeNum commandNum data1 data2 content finish :
      Sys σ ρ Outcome).run k) := by
  by_cases hs : k.subscribe driver subscribeNum = .accepted
  · have hfine : ∀ j ∈ [Issued.subscribe (ρ := ρ) driver subscribeNum (some content) .accepted],
        j.isFailure = false := by simp [Issued.isFailure]
    by_cases hc : k.command driver commandNum data1 data2 = .success
    · have hrun : (Sys.blocking driver subscribeNum commandNum data1 data2 content finish :
          Sys σ ρ Outcome).run k = (.waits finish,
            [.subscribe driver subscribeNum (some content) .accepted,
              .command driver commandNum data1 data2 .success]) := by
        simp [Sys.blocking, hs, hc]
      rw [hrun]
      exact waitsAsPromised_of_accepted (by simp [Issued.isFailure, Response.isAccepted])
        fun _ => ⟨_, List.mem_cons_of_mem _ List.mem_cons_self, rfl⟩
    · have hrun : (Sys.blocking driver subscribeNum commandNum data1 data2 content finish :
          Sys σ ρ Outcome).run k =
          (.returned (k.command driver commandNum data1 data2).toReturncode,
            [.subscribe driver subscribeNum (some content) .accepted] ++
              [.command driver commandNum data1 data2
                (k.command driver commandNum data1 data2)]) := by
        simp [Sys.blocking, hs, hc]
      rw [hrun]
      cases hacc : (k.command driver commandNum data1 data2).isAccepted with
      | true =>
        exact waitsAsPromised_of_accepted (by simp [Issued.isFailure, hacc]) nofun
      | false =>
        exact waitsAsPromised_of_failure (i := .command driver commandNum data1 data2 _)
          (by simp [Issued.isFailure, hacc]) hfine
  · have hrun : (Sys.blocking driver subscribeNum commandNum data1 data2 content finish :
        Sys σ ρ Outcome).run k = (.returned (k.subscribe driver subscribeNum).toReturncode,
          [.subscribe driver subscribeNum (some content) (k.subscribe driver subscribeNum)]) := by
      simp [Sys.blocking, hs]
    rw [hrun]
    exact waitsAsPromised_of_failure (l := [])
      (i := .subscribe driver subscribeNum (some content) _)
      (by simpa [Issued.isFailure] using hs) nofun

end

end Tock
