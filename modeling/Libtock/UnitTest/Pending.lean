import Libtock.Core.Chain
import Libtock.Core.Run
import Libtock.UnitTest.Supervisor

/-!
# The list of pending runners

Appending and removing a runner keep the list; looking for one does not return unless the list is
empty or starts with the runner.
-/

namespace UnitTest.Supervisor

open Core Tock

variable {s : Supervisor} {l : List Ptr} {p first : Ptr} {pid : ℤ}

/-- The runners of `l` wait, in this order. -/
def Pending (s : Supervisor) (l : List Ptr) : Prop :=
  IsChain (fun p => (s.tests p).next) s.head l ∧ s.tail = lastOr none l

/-! ### Changing the list -/

lemma update_tests (f : UnitTestT → UnitTestT) (q : Ptr) :
    (s.update p f).tests q = if q = p then f (s.tests q) else s.tests q := rfl

lemma setNext_next (v : Option Ptr) (q : Ptr) :
    ((s.setNext p v).tests q).next = if q = p then v else (s.tests q).next := by
  rw [setNext, update_tests]
  split_ifs <;> rfl

/-- A field besides `next` is not part of the list. -/
lemma Pending.update {f : UnitTestT → UnitTestT} (h : s.Pending l) (hf : ∀ t, (f t).next = t.next) :
    (s.update p f).Pending l := by
  refine ⟨h.1.congr ?_, h.2⟩
  intro q _
  rw [update_tests]
  split_ifs
  · exact hf _
  · rfl

lemma Pending.setPid (h : s.Pending l) : (s.setPid p pid).Pending l := h.update fun _ => rfl

/-- A new runner is the last one. -/
lemma Pending.append (h : s.Pending l) (hp : p ∉ l) : (s.listAppend p).Pending (l ++ [p]) := by
  obtain ⟨hchain, htail⟩ := h
  have hnext : ∀ q, ((s.listAppend p).tests q).next =
      if q = p then ([] : List Ptr).head? else if lastOr none l = some q then some p
        else (s.tests q).next := by
    intro q
    rw [listAppend, htail]
    cases lastOr none l with
    | none => simp only [setNext_next, reduceCtorEq, if_false, List.head?_nil]
    | some last =>
      simp only [setNext_next, Option.some.injEq, eq_comm (a := last), List.head?_nil]
  have hhead : (s.listAppend p).head = if l = [] then some p else s.head := by
    rw [listAppend, htail]
    cases hlast : lastOr none l with
    | none =>
      rw [if_pos (lastOr_none_eq_none_iff.mp hlast)]
      rfl
    | some last =>
      have hne : l ≠ [] := fun hnil => by simp [hnil] at hlast
      rw [if_neg hne]
      rfl
  constructor
  · rw [hhead]
    rw [← List.append_nil l] at hchain hp
    exact hchain.insert hp hnext
  · rw [lastOr_append_singleton]
    rfl

/-- The first runner is removed. -/
lemma Pending.pop (h : s.Pending (p :: l)) : s.listPop.Pending l := by
  obtain ⟨⟨hhead, hchain⟩, htail⟩ := h
  cases l with
  | nil =>
    have hnext : (s.tests p).next = none := hchain
    simp only [listPop, hhead, hnext, if_true]
    exact ⟨rfl, rfl⟩
  | cons q l =>
    have hnext : (s.tests p).next = some q := hchain.1
    simp only [listPop, hhead, hnext, reduceCtorEq, if_false]
    exact ⟨⟨rfl, hchain.2⟩, htail⟩

lemma Pending.pop_nil (h : s.Pending []) : s.listPop.Pending [] := by
  have hhead : s.head = none := h.1
  rwa [listPop, hhead]

/-! ### Looking for a runner -/

lemma listContains_nil (hhead : s.head = none) {fuel : ℕ} (hfuel : 1 ≤ fuel) :
    s.listContains p fuel = .ok false := by
  obtain ⟨fuel, rfl⟩ := Nat.exists_eq_add_of_le' hfuel
  rw [listContains, hhead]
  rfl

lemma listContains_first (hhead : s.head = some p) {fuel : ℕ} (hfuel : 1 ≤ fuel) :
    s.listContains p fuel = .ok true := by
  obtain ⟨fuel, rfl⟩ := Nat.exists_eq_add_of_le' hfuel
  rw [listContains, hhead, listContainsLoop, if_pos rfl]

/-- Behind another runner nothing is ever found. -/
lemma listContains_stuck (hhead : s.head = some first) (hne : first ≠ p) (fuel : ℕ) :
    s.listContains p fuel = .error .outOfFuel := by
  rw [listContains, hhead]
  induction fuel with
  | zero => rfl
  | succ fuel ih => rw [listContainsLoop, if_neg hne, ih]

/-- A search that returns has found the first runner or an empty list. -/
lemma listContains_ok {b : Bool} {fuel : ℕ} (h : s.listContains p fuel = .ok b) :
    s.head = if b then some p else none := by
  cases fuel with
  | zero => cases h
  | succ fuel =>
    cases hhead : s.head with
    | none =>
      rw [listContains_nil hhead (Nat.le_add_left 1 fuel)] at h
      cases h
      rfl
    | some first =>
      by_cases hfirst : first = p
      · subst hfirst
        rw [listContains_first hhead (Nat.le_add_left 1 fuel)] at h
        cases h
        rfl
      · rw [listContains_stuck hhead hfirst] at h
        cases h

/-! ### A runner that starts -/

/-- The runner is found exactly if it waits, and the message of a runner that starts is answered:
one that waits keeps its place, any other is added as the last one. -/
def Enqueues (s : Supervisor) (pid : ℤ) (p : Ptr) (l : List Ptr) : Prop :=
  (∃ n, ∀ fuel ≥ n, s.listContains p fuel = .ok (decide (p ∈ l))) ∧
  ∃ n s' es, (∀ fuel ≥ n, unitTestServiceCallback fuel pid (some p) s = .ok (s', es)) ∧
    s'.Pending (if p ∈ l then l else l ++ [p])

/-- While another runner waits first, the callback does not return. -/
lemma service_stuck (hhead : s.head = some first) (hne : first ≠ p)
    (hcmd : (s.tests p).cmd = .testInit) (fuel : ℕ) :
    unitTestServiceCallback fuel pid (some p) s = .error .outOfFuel := by
  have hstuck : (s.setPid p pid).listContains p fuel = .error .outOfFuel :=
    listContains_stuck hhead hne fuel
  simp only [unitTestServiceCallback, hcmd, serviceInit, hstuck]
  rfl

/-- When the search returns and the runner is then the first one, the callback returns. -/
lemma service_returns (pid : ℤ) {b : Bool} {s' : Supervisor} {fuel : ℕ}
    (hcmd : (s.tests p).cmd = .testInit) (hcontains : (s.setPid p pid).listContains p fuel = .ok b)
    (hs' : (if b then s.setPid p pid else (s.setPid p pid).listAppend p) = s')
    (hhead : s'.head = some p) :
    unitTestServiceCallback fuel pid (some p) s =
      .ok (s', if (s'.tests p).pid = pid then [.ipcNotifyClient pid] else []) := by
  subst hs'
  simp only [unitTestServiceCallback, hcmd, serviceInit, hcontains, bind, Except.bind, hhead]

lemma enqueues_nil (h : s.Pending []) (hcmd : (s.tests p).cmd = .testInit) :
    s.Enqueues pid p [] := by
  have hpending : ((s.setPid p pid).listAppend p).Pending [p] := h.setPid.append List.not_mem_nil
  constructor
  · exact ⟨1, fun fuel => listContains_nil h.1⟩
  · have hreturns := fun (fuel : ℕ) (hfuel : fuel ≥ 1) =>
      service_returns pid hcmd (listContains_nil h.1 hfuel) rfl hpending.1.1
    exact ⟨1, _, _, hreturns, hpending⟩

lemma enqueues_first (h : s.Pending (p :: l)) (hcmd : (s.tests p).cmd = .testInit) :
    s.Enqueues pid p (p :: l) := by
  have hmem : p ∈ p :: l := List.mem_cons_self
  constructor
  · refine ⟨1, fun fuel hfuel => ?_⟩
    rw [decide_eq_true hmem]
    exact listContains_first h.1.1 hfuel
  · have hreturns := fun (fuel : ℕ) (hfuel : fuel ≥ 1) =>
      service_returns (s := s) pid hcmd (listContains_first h.1.1 hfuel) rfl h.1.1
    refine ⟨1, _, _, hreturns, ?_⟩
    rw [if_pos hmem]
    exact h.setPid

/-- The message of a runner that starts is answered as promised if and only if no runner waits, or
the runner itself waits first. -/
theorem enqueues_iff (h : s.Pending l) (hcmd : (s.tests p).cmd = .testInit) :
    s.Enqueues pid p l ↔ l = [] ∨ l.head? = some p := by
  constructor
  · rintro ⟨⟨n, hcontains⟩, -⟩
    cases l with
    | nil => exact .inl rfl
    | cons first l =>
      right
      by_contra hne
      have hfirst : first ≠ p := fun heq => hne (congrArg some heq)
      have hstuck := listContains_stuck h.1.1 hfirst n
      rw [hcontains n le_rfl] at hstuck
      cases hstuck
  · rintro (rfl | hfirst)
    · exact enqueues_nil h hcmd
    · cases l with
      | nil => cases hfirst
      | cons first l =>
        cases hfirst
        exact enqueues_first h hcmd

/-- Any number of runners that are about to start. -/
def startingTest : UnitTestT where
  cmd := .testInit
  count := 1
  current := 0
  name := fun _ => 0
  timeoutMs := 300
  passCount := 0
  failCount := 0
  pid := 0
  result := .passed
  reason := fun _ => 0
  next := none

def started : Supervisor := unitTestService ⟨fun _ => startingTest, none, none⟩

lemma started_pending : started.Pending [] := ⟨rfl, rfl⟩

/-- The first runner is added. -/
theorem enqueues_started : started.Enqueues 1 8 [] :=
  (enqueues_iff started_pending rfl).mpr (.inl rfl)

/-- The message of a second runner never returns. -/
theorem second_runner_stuck :
    ∃ s es, unitTestServiceCallback 1 1 (some 8) started = .ok (s, es) ∧ s.Pending [8] ∧
      (∀ fuel, unitTestServiceCallback fuel 2 (some 16) s = .error .outOfFuel) ∧
      ¬ ∀ (s : Supervisor) (pid : ℤ) (p : Ptr) (l : List Ptr), s.Pending l →
        (s.tests p).cmd = .testInit → s.Enqueues pid p l := by
  have hpending : ((started.setPid 8 1).listAppend 8).Pending [8] :=
    started_pending.setPid.append List.not_mem_nil
  refine ⟨_, _, rfl, hpending, fun fuel => service_stuck rfl (by decide) rfl fuel, ?_⟩
  intro h
  obtain ⟨⟨n, hcontains⟩, -⟩ := h _ 2 16 [8] hpending rfl
  have hstuck := listContains_stuck hpending.1.1 (show 8 ≠ 16 by decide) n
  rw [hcontains n le_rfl] at hstuck
  cases hstuck

/-! ### Runs of the supervisor -/

variable {s' : Supervisor} {es : List Event}

inductive Action
  | message (pid : ℤ) (buf : Option Ptr)
  | timeout (test : Ptr)
  /-- A runner writes to its own object, but not the link. -/
  | write (test : Ptr) (f : UnitTestT → UnitTestT)

/-- One callback that returns, or one write of a runner. -/
def Step (s : Supervisor) : Action → Supervisor → List Event → Prop
  | .message pid buf, s', es => ∃ fuel, unitTestServiceCallback fuel pid buf s = .ok (s', es)
  | .timeout test, s', es => timeoutCallback test s = (s', es)
  | .write test f, s', es => (∀ t, (f t).next = t.next) ∧ s' = s.update test f ∧ es = []

lemma init_inv {fuel : ℕ} (hcmd : (s.tests p).cmd = .testInit)
    (hret : unitTestServiceCallback fuel pid (some p) s = .ok (s', es)) :
    ∃ b, (s.setPid p pid).listContains p fuel = .ok b ∧
      (if b then s.setPid p pid else (s.setPid p pid).listAppend p) = s' := by
  simp only [unitTestServiceCallback, hcmd, serviceInit, bind, Except.bind] at hret
  split at hret
  · cases hret
  · next b hcontains =>
    refine ⟨b, hcontains, ?_⟩
    split at hret
    · cases hret
    · cases hret
      rfl

/-- Only a first runner is ever added. -/
lemma Pending.init {fuel : ℕ} (h : s.Pending l) (hcmd : (s.tests p).cmd = .testInit)
    (hret : unitTestServiceCallback fuel pid (some p) s = .ok (s', es)) :
    s'.Pending (if l = [] then [p] else l) := by
  obtain ⟨b, hcontains, rfl⟩ := init_inv hcmd hret
  have hhead := h.1.head_eq.symm.trans (listContains_ok hcontains)
  cases b with
  | false =>
    obtain rfl : l = [] := by simpa using hhead
    exact h.setPid.append List.not_mem_nil
  | true =>
    have hne : l ≠ [] := fun hnil => by simp [hnil] at hhead
    rw [if_neg hne]
    exact h.setPid

lemma Pending.step {a : Action} (h : s.Pending l) (hone : l.length ≤ 1) (hstep : Step s a s' es) :
    ∃ l', s'.Pending l' ∧ l'.length ≤ 1 := by
  cases a with
  | message pid buf =>
    obtain ⟨fuel, hret⟩ := hstep
    cases buf with
    | none =>
      cases hret
      exact ⟨l, h, hone⟩
    | some test =>
      cases hcmd : (s.tests test).cmd with
      | testInit =>
        refine ⟨_, h.init hcmd hret, ?_⟩
        split_ifs
        · exact le_rfl
        · exact hone
      | testStart =>
        simp only [unitTestServiceCallback, hcmd, serviceStart] at hret
        cases hret
        exact ⟨l, h, hone⟩
      | testEnd =>
        simp only [unitTestServiceCallback, hcmd, serviceEnd] at hret
        split_ifs at hret
        · cases hret
          refine ⟨l, h.update fun t => ?_, hone⟩
          split_ifs <;> rfl
        · cases hret
          exact ⟨l, h, hone⟩
      | testCleanup =>
        simp only [unitTestServiceCallback, hcmd, serviceCleanup] at hret
        cases hret
        cases l with
        | nil => exact ⟨[], h.pop_nil, Nat.zero_le 1⟩
        | cons first l => exact ⟨l, h.pop, by simp at hone; simp [hone]⟩
      | other v =>
        simp only [unitTestServiceCallback, hcmd] at hret
        cases hret
        exact ⟨l, h, hone⟩
  | timeout test =>
    cases hstep
    exact ⟨l, h.update fun _ => rfl, hone⟩
  | write test f =>
    obtain ⟨hf, rfl, -⟩ := hstep
    exact ⟨l, h.update hf, hone⟩

/-- Whatever the runners send, at most one of them ever waits. -/
theorem at_most_one_pending {tr : List Event} (hrun : Run Step (unitTestService s) tr s') :
    ∃ l, s'.Pending l ∧ l.length ≤ 1 := by
  apply hrun.trace_invariant (fun _ s => ∃ l, s.Pending l ∧ l.length ≤ 1)
  · rintro tr s a s' es ⟨l, h, hone⟩ hstep
    exact h.step hone hstep
  · exact ⟨[], ⟨rfl, rfl⟩, Nat.zero_le 1⟩

end UnitTest.Supervisor
