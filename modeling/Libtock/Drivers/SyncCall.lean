import Libtock.Tock.Checked

/-!
# Functions that make an asynchronous driver synchronous

Most drivers have functions of one shape: they share buffers, subscribe a callback of their file
with the address of a record, issue commands, and wait until the callback has filled in the record.
The record is a static variable of the file or a local variable of the function.
-/

namespace Drivers

open Tock

inductive Storage
  | static
  | onStack
  deriving DecidableEq

/-- The address of a record. -/
inductive Cell
  /-- The static variable of the file of a driver. -/
  | static (driver : U32)
  /-- The local variable of a call. -/
  | onStack (call : ℕ)
  deriving DecidableEq

/-- A buffer that is shared before the callback is subscribed. -/
structure Share where
  writable : Bool
  num : U32
  buffer : Region

/-- A command that is issued before the one that the callback answers. -/
structure Setup where
  num : U32
  arg1 : U32

/-- A synchronous function, applied to its arguments. -/
structure SyncCall where
  driver : U32
  storage : Storage
  shares : List Share := []
  setup : List Setup := []
  /-- The command that the callback answers. -/
  command : U32
  arg1 : U32 := 0
  arg2 : U32 := 0
  /-- How many system calls have to go well before the flag of the record is cleared. -/
  resetAfter : ℕ := 0
  /-- What it returns and what it stores through its pointers, given the arguments of the callback;
  a value of eight bytes counts as two words. -/
  finish : UpcallArgs → ℤ × List U32
  command_ne : ∀ s ∈ setup, s.num ≠ command := by simp
  resetAfter_le : resetAfter ≤ shares.length + setup.length + 1 := by simp

namespace SyncCall

def cell (c : SyncCall) (n : ℕ) : Cell :=
  match c.storage with
  | .static => .static c.driver
  | .onStack => .onStack n

def share (c : SyncCall) (s : Share) : Request Cell Region :=
  if s.writable then .allowReadwrite c.driver s.num s.buffer
  else .allowReadonly c.driver s.num s.buffer

/-- The system calls before the command that the callback answers. -/
def prelude (c : SyncCall) (n : ℕ) : List (Request Cell Region) :=
  c.shares.map c.share ++ .subscribe c.driver 0 (some (c.cell n)) ::
    c.setup.map fun s => .command c.driver s.num s.arg1 0

def requests (c : SyncCall) (n : ℕ) : List (Request Cell Region) :=
  c.prelude n ++ [.command c.driver c.command c.arg1 c.arg2]

/-- The callback overwrites what it stored before. -/
def finishes (c : SyncCall) (args : List UpcallArgs) : ℤ × List U32 :=
  (args.getLast?.map c.finish).getD (returncodeSuccess, [])

/-- What it does as the `n`-th call. -/
def program (c : SyncCall) (n : ℕ) : Sys Cell Region Outcome :=
  Sys.checkedBlocking (c.requests n) c.finishes

/-- The kernel has accepted the command and will call back. -/
def starts (c : SyncCall) (issued : List (Issued Cell Region)) : Bool :=
  issued.any fun
    | .command _ num _ _ r => num = c.command && r.isAccepted
    | _ => false

/-- The flag of the record is cleared. -/
def resets (c : SyncCall) (issued : List (Issued Cell Region)) : Bool :=
  c.resetAfter ≤ issued.countP fun i => !i.isFailure

end SyncCall

/-- The command that the callback answers does not succeed with a value. -/
def SyncCall.Plain (c : SyncCall) (k : Kernel) : Prop :=
  k.command c.driver c.command c.arg1 c.arg2 ≠ .successValues

instance (c : SyncCall) (k : Kernel) : Decidable (c.Plain k) := inferInstanceAs (Decidable (_ ≠ _))

/-! ### What a call does -/

variable {c : SyncCall} {k : Kernel} {n : ℕ}

/-- The system calls are made in order: all of them, or up to the first one with a negative return
code, which is returned. -/
inductive Performs (c : SyncCall) (n : ℕ) (k : Kernel) : Outcome × List (Issued Cell Region) → Prop
  | waits (hall : ∀ r ∈ c.requests n, ¬ (r.issue k).toReturncode < 0) :
    Performs c n k (.waits c.finishes, (c.requests n).map (Request.issue k))
  | fails {done : List (Request Cell Region)} {r : Request Cell Region}
      {rest : List (Request Cell Region)} (hsplit : c.requests n = done ++ r :: rest)
      (hdone : ∀ r ∈ done, ¬ (r.issue k).toReturncode < 0) (hneg : (r.issue k).toReturncode < 0) :
    Performs c n k (.returned (r.issue k).toReturncode, (done ++ [r]).map (Request.issue k))

lemma program_performs (c : SyncCall) (n : ℕ) (k : Kernel) :
    Performs c n k ((c.program n).run k) := by
  rw [SyncCall.program]
  rcases checked_run (c.requests n) k with
    ⟨hall, hrun⟩ | ⟨done, r, rest, hsplit, hdone, hneg, hrun⟩
  · rw [checkedBlocking_run_of_pos hrun]
    exact .waits hall
  · rw [checkedBlocking_run_of_neg hneg hrun, ← List.map_singleton (f := Request.issue k),
      ← List.map_append]
    exact .fails hsplit hdone hneg

lemma SyncCall.Plain.isFailure_of_neg (hplain : c.Plain k)
    (h : (k.command c.driver c.command c.arg1 c.arg2).toReturncode < 0) :
    (k.command c.driver c.command c.arg1 c.arg2).isAccepted = false := by
  rw [SyncCall.Plain] at hplain
  rw [Response.toReturncode_neg_iff] at h
  cases hr : k.command c.driver c.command c.arg1 c.arg2 with
  | success => exact absurd hr h
  | successValues => exact absurd hr hplain
  | failure | failureValues => rfl

/-- No system call of the prelude starts the operation. -/
lemma starts_prelude {l : List (Request Cell Region)} (hl : l ⊆ c.prelude n) :
    c.starts (l.map (Request.issue k)) = false := by
  rw [SyncCall.starts, List.any_eq_false]
  intro i hi
  obtain ⟨r, hr, rfl⟩ := List.mem_map.mp hi
  have hmem := hl hr
  rw [SyncCall.prelude, List.mem_append, List.mem_cons, List.mem_map, List.mem_map] at hmem
  rcases hmem with ⟨s, -, rfl⟩ | rfl | ⟨s, hs, rfl⟩
  · cases hw : s.writable <;> simp [SyncCall.share, Request.issue, hw]
  · simp [Request.issue]
  · simp [Request.issue, c.command_ne s hs]

lemma starts_append (l l' : List (Issued Cell Region)) :
    c.starts (l ++ l') = (c.starts l || c.starts l') := by
  simp [SyncCall.starts]

lemma issued_driver {r : Request Cell Region} (hr : r ∈ c.requests n) (k : Kernel)
    (s : Slots Cell Region) {d : U32} (hd : d ≠ c.driver) :
    (s.issue (r.issue k)).subscription (d, 0) = s.subscription (d, 0) := by
  rw [SyncCall.requests, SyncCall.prelude, List.mem_append, List.mem_append, List.mem_cons,
    List.mem_map, List.mem_map, List.mem_singleton] at hr
  rcases hr with (⟨s', -, rfl⟩ | rfl | ⟨s', -, rfl⟩) | rfl
  · cases hw : s'.writable <;> simp [SyncCall.share, Request.issue, hw]
  · simp [Request.issue, hd]
  · rfl
  · rfl

/-- The slots of the other drivers stay as they are. -/
lemma foldl_issue_subscription {l : List (Request Cell Region)} (hl : l ⊆ c.requests n)
    (k : Kernel) (s : Slots Cell Region) {d : U32} (hd : d ≠ c.driver) :
    ((l.map (Request.issue k)).foldl Slots.issue s).subscription (d, 0) =
      s.subscription (d, 0) := by
  induction l generalizing s with
  | nil => rfl
  | cons r l ih =>
    rw [List.cons_subset] at hl
    rw [List.map_cons, List.foldl_cons, ih hl.2, issued_driver hl.1 k s hd]

lemma foldl_setup_subscription (l : List Setup) (k : Kernel) (s : Slots Cell Region) :
    ((l.map fun b => (.command c.driver b.num b.arg1 0 : Request Cell Region)).map
      (Request.issue k)).foldl Slots.issue s = s := by
  induction l with
  | nil => rfl
  | cons b l ih => exact ih

/-- The record is what the callback gets once its subscription is accepted. -/
lemma foldl_requests_subscription (hsub : k.subscribe c.driver 0 = .accepted)
    (s : Slots Cell Region) :
    (((c.requests n).map (Request.issue k)).foldl Slots.issue s).subscription (c.driver, 0) =
      some (c.cell n) := by
  rw [SyncCall.requests, SyncCall.prelude, List.map_append, List.map_append, List.map_cons,
    List.foldl_append, List.foldl_append, List.foldl_cons, foldl_setup_subscription]
  have hzero : k.subscribe c.driver 0#32 = .accepted := hsub
  simp [Request.issue, hzero]

/-- What becomes of the slots and the flag when the call waits. -/
structure Waiting (c : SyncCall) (n : ℕ) (s : Slots Cell Region)
    (issued : List (Issued Cell Region)) : Prop where
  starts : c.starts issued = true
  resets : c.resets issued = true
  subscription : (issued.foldl Slots.issue s).subscription (c.driver, 0) = some (c.cell n)

lemma waiting_of_forall (h : ∀ r ∈ c.requests n, ¬ (r.issue k).toReturncode < 0)
    (s : Slots Cell Region) : Waiting c n s ((c.requests n).map (Request.issue k)) where
  starts := by
    have hlast : ¬ (k.command c.driver c.command c.arg1 c.arg2).toReturncode < 0 :=
      h (.command ..) (by simp [SyncCall.requests])
    rw [Response.toReturncode_neg_iff, not_not] at hlast
    rw [SyncCall.requests, List.map_append, starts_append]
    simp [SyncCall.starts, Request.issue, hlast, Response.isAccepted]
  resets := by
    have hfine := isFailure_of_mem_map h
    have hcount : ((c.requests n).map (Request.issue k)).countP (fun i => !i.isFailure) =
        c.shares.length + (c.setup.length + 1) + 1 := by
      rw [List.countP_eq_length.mpr fun i hi => by simp [hfine i hi]]
      simp [SyncCall.requests, SyncCall.prelude, Nat.add_assoc]
    have hle := c.resetAfter_le
    simp only [SyncCall.resets, hcount, decide_eq_true_eq]
    omega
  subscription := by
    have hsub : ¬ (k.subscribe c.driver 0).toReturncode < 0 :=
      h (.subscribe c.driver 0 (some (c.cell n))) (by simp [SyncCall.requests, SyncCall.prelude])
    rw [Answer.toReturncode_neg_iff, not_not] at hsub
    exact foldl_requests_subscription hsub s

/-- Who returns before the wait has not started the operation, unless its command has succeeded with
a value. -/
lemma starts_of_split {done rest : List (Request Cell Region)} {r : Request Cell Region}
    (hsplit : c.requests n = done ++ r :: rest) (hneg : (r.issue k).toReturncode < 0)
    (hplain : c.Plain k) : c.starts ((done ++ [r]).map (Request.issue k)) = false := by
  rcases List.eq_nil_or_concat rest with rfl | ⟨rest', x, rfl⟩
  · obtain ⟨hprelude, hlast⟩ := List.append_inj' hsplit rfl
    obtain rfl : .command c.driver c.command c.arg1 c.arg2 = r := by simpa using hlast
    rw [List.map_append, starts_append, ← hprelude, starts_prelude (List.Subset.refl _)]
    simp [SyncCall.starts, Request.issue, hplain.isFailure_of_neg hneg]
  · rw [List.concat_eq_append, ← List.cons_append, ← List.append_assoc] at hsplit
    obtain ⟨hprelude, -⟩ := List.append_inj' hsplit rfl
    have hsub : done ++ [r] ⊆ c.prelude n := by
      rw [hprelude, List.append_cons done r rest']
      exact List.subset_append_left _ _
    exact starts_prelude hsub

/-- Either the call waits for a command that was accepted, or the kernel owes it nothing. -/
lemma program_cases (hplain : c.Plain k) (n : ℕ) (s : Slots Cell Region) :
    ∃ outcome issued, (c.program n).run k = (outcome, issued) ∧
      (∀ d ≠ c.driver, (issued.foldl Slots.issue s).subscription (d, 0) = s.subscription (d, 0)) ∧
      (outcome = .waits c.finishes ∧ Waiting c n s issued ∨
        ∃ err, outcome = .returned err ∧ err < 0 ∧ c.starts issued = false) := by
  have hperforms := program_performs c n k
  generalize (c.program n).run k = result at hperforms ⊢
  refine ⟨result.1, result.2, rfl, ?_⟩
  cases hperforms with
  | waits hall =>
    exact ⟨fun d hd => foldl_issue_subscription (List.Subset.refl _) k s hd,
      .inl ⟨rfl, waiting_of_forall hall s⟩⟩
  | @fails done r rest hsplit hdone hneg =>
    have hsub : done ++ [r] ⊆ c.requests n := by
      rw [hsplit, List.append_cons done r rest]
      exact List.subset_append_left _ _
    exact ⟨fun d hd => foldl_issue_subscription hsub k s hd,
      .inr ⟨_, rfl, hneg, starts_of_split hsplit hneg hplain⟩⟩

end Drivers
