import Libtock.Console.Read
import Libtock.Core.History

/-!
# Whose result a read returns

All calls of `getnstr` share one record, so what a call returns is what the record holds when it
tests its condition. In every run this is the answer to the read that was accepted last: the call's
own, unless another call was accepted after its answer came and before it looked.
-/

namespace Console.Read

open Core Tock

inductive Note
  /-- The kernel has accepted the read of a call. -/
  | accepted (call : ℕ)
  | answered (call : ℕ) (result : U32)
  /-- A call returns after it has waited. -/
  | returned (call : ℕ) (ret : ℤ)
  deriving DecidableEq

/-- A world, and the calls whose reads the kernel has accepted and not answered, oldest first. -/
structure Ledger where
  world : World
  owners : List ℕ

namespace Ledger

def exec (l : Ledger) (a : Action) : Option (Ledger × List Note) :=
  match l.world.step a with
  | none => none
  | some (world, _) =>
    match a with
    | .call _ _ =>
      if world.stack.length = l.world.stack.length then some ({ l with world }, [])
      else some (⟨world, l.owners ++ [l.world.calls]⟩, [.accepted l.world.calls])
    | .upcall result _ =>
      match l.owners with
      | n :: owners => some (⟨world, owners⟩, [.answered n result])
      | [] => some ({ l with world }, [])
    | .test =>
      match l.world.stack with
      | f :: _ => some ({ l with world }, [.returned f.call l.world.st.getnstrData.result])
      | [] => some ({ l with world }, [])

def Step (l : Ledger) (a : Action) (l' : Ledger) (ns : List Note) : Prop :=
  l.exec a = some (l', ns)

def boot : Ledger := ⟨World.boot, []⟩

end Ledger

/-- The calls that were accepted. -/
def accepteds (tr : List Note) : List ℕ :=
  tr.filterMap fun
    | .accepted n => some n
    | _ => none

def lastAccepted (tr : List Note) : Option ℕ := (accepteds tr).getLast?

/-- What a note owes to those before it: a call is accepted once, and when all accepted before it have
been answered; its answer comes once and before the next call is accepted, and what a call returns is
the answer to the last one accepted. -/
def Owes (tr : List Note) : Note → Prop
  | .accepted n => n ∉ accepteds tr ∧ ∀ m ∈ accepteds tr, ∃ result, .answered m result ∈ tr
  | .answered n _ => lastAccepted tr = some n ∧ ∀ result, .answered n result ∉ tr
  | .returned n ret => n ∈ accepteds tr ∧
    ∃ m result, lastAccepted tr = some m ∧ .answered m result ∈ tr ∧ ret = result.toInt

variable {tr : List Note} {n : ℕ}

@[simp] lemma accepteds_append (tr ns : List Note) :
    accepteds (tr ++ ns) = accepteds tr ++ accepteds ns := by
  simp [accepteds]

@[simp] lemma accepteds_accepted : accepteds [.accepted n] = [n] := rfl

@[simp] lemma accepteds_answered (result : U32) : accepteds [.answered n result] = [] := rfl

@[simp] lemma accepteds_returned (ret : ℤ) : accepteds [.returned n ret] = [] := rfl

/-! ### The invariant -/

namespace Ledger

structure Valid (tr : List Note) (l : Ledger) : Prop where
  each : Each Owes tr
  /-- While the flag is set, all reads are answered and the record holds the last answer. -/
  idle : l.world.st.getnstrData.called = true → l.world.st.reads = [] ∧
    (∀ m ∈ accepteds tr, ∃ result, .answered m result ∈ tr) ∧
    ∀ m ∈ lastAccepted tr, ∃ result, .answered m result ∈ tr ∧
      l.world.st.getnstrData.result = result.toInt
  reads : l.world.st.reads ≠ [] → l.world.st.reads.length = 1 ∧
    l.world.st.subscribed = some (.getnstrUpcall, none) ∧
    ∃ n, l.owners = [n] ∧ lastAccepted tr = some n ∧ (∀ result, .answered n result ∉ tr) ∧
      ∀ m ∈ accepteds tr, m = n ∨ ∃ result, .answered m result ∈ tr
  owners : l.world.st.reads = [] → l.owners = []
  stack : ∀ f ∈ l.world.stack, f.call ∈ accepteds tr
  accepted : ∀ n ∈ accepteds tr, n < l.world.calls
  answered : ∀ n result, .answered n result ∈ tr → n ∈ accepteds tr

lemma valid_boot : Valid [] boot where
  each := each_nil
  idle := fun _ => ⟨rfl, by simp [accepteds], fun m hm => by cases hm⟩
  reads := fun h => absurd rfl h
  owners := fun _ => rfl
  stack := by simp [boot, World.boot]
  accepted := by simp [accepteds]
  answered := by simp

variable {l l' : Ledger} {a : Action} {ns : List Note}

lemma exec_of_step {world : World} {es : List Event} (h : l.world.step a = some (world, es))
    (hstep : Step l a l' ns) :
    (match (motive := Action → Option (Ledger × List Note)) a with
    | .call _ _ =>
      if world.stack.length = l.world.stack.length then some ({ l with world }, [])
      else some (⟨world, l.owners ++ [l.world.calls]⟩, [.accepted l.world.calls])
    | .upcall result _ =>
      match l.owners with
      | n :: owners => some (⟨world, owners⟩, [.answered n result])
      | [] => some ({ l with world }, [])
    | .test =>
      match l.world.stack with
      | f :: _ => some ({ l with world }, [.returned f.call l.world.st.getnstrData.result])
      | [] => some ({ l with world }, [])) = some (l', ns) := by
  rw [Step, exec, h] at hstep
  exact hstep

/-- A call that returns before it waits. -/
lemma Valid.quiet (h : Valid tr l) {world : World} (hstack : world.stack = l.world.stack)
    (hcalls : l.world.calls ≤ world.calls) (hreads : world.st.reads = l.world.st.reads)
    (hst : world.st = l.world.st ∨ world.st.getnstrData.called = false ∧ world.st.reads = []) :
    Valid tr { l with world } where
  each := h.each
  idle := by
    intro hcalled
    rcases hst with hst | ⟨hfalse, -⟩
    · rw [hst] at hcalled ⊢
      exact h.idle hcalled
    · exact absurd (hfalse.symm.trans hcalled) Bool.false_ne_true
  reads := by
    intro hne
    rcases hst with hst | ⟨-, hnil⟩
    · rw [hst] at hne ⊢
      exact h.reads hne
    · exact absurd hnil hne
  owners := fun hnil => h.owners (hreads ▸ hnil)
  stack := fun f hf => h.stack f (hstack ▸ hf)
  accepted := fun n hn => (h.accepted n hn).trans_le hcalls
  answered := h.answered

lemma Valid.call (h : Valid tr l) {c : Call} {ans : Answers} (hstep : Step l (.call c ans) l' ns) :
    Valid (tr ++ ns) l' := by
  cases hcalled : l.world.st.getnstrData.called with
  | false =>
    have hexec := exec_of_step (World.step_call_busy hcalled c ans) hstep
    simp only [if_true] at hexec
    cases hexec
    rw [List.append_nil]
    exact h.quiet rfl (Nat.le_succ _) rfl (.inl rfl)
  | true =>
    obtain ⟨hnil, hall, -⟩ := h.idle hcalled
    cases hacc : ans.accept with
    | false =>
      obtain ⟨ret, allowed, subscribed, hget⟩ :=
        getnstr_refused hcalled hacc c.region.ptr c.region.size
      have hworld : l.world.step (.call c ans) = some ({ l.world with
          st := { l.world.st.clear with allowed, subscribed }
          calls := l.world.calls + 1 }, l.world.returned l.world.calls ret c) := by
        simp only [World.step, hget]
      have hexec := exec_of_step hworld hstep
      simp only [if_true] at hexec
      cases hexec
      rw [List.append_nil]
      exact h.quiet rfl (Nat.le_succ _) rfl (.inr ⟨rfl, hnil⟩)
    | true =>
      have hworld : l.world.step (.call c ans) = some ({ l.world with
          st := { l.world.st.clear with
            allowed := ⟨c.region.ptr, c.region.size⟩
            subscribed := some (.getnstrUpcall, none)
            reads := l.world.st.reads ++ [⟨c.region.ptr, c.region.size⟩] }
          stack := ⟨l.world.calls, c⟩ :: l.world.stack
          calls := l.world.calls + 1 }, []) := by
        simp only [World.step, getnstr_accepted hcalled hacc]
      have hexec := exec_of_step hworld hstep
      simp only [List.length_cons, Nat.succ_ne_self, if_false] at hexec
      cases hexec
      have hfresh : l.world.calls ∉ accepteds tr := fun hn => (h.accepted _ hn).false
      refine ⟨each_concat.mpr ⟨h.each, hfresh, hall⟩, fun hc => ?_, fun _ => ⟨?_, rfl, ?_⟩, ?_, ?_,
        ?_, ?_⟩
      · cases hc
      · simp [hnil]
      · refine ⟨l.world.calls, by simp [h.owners hnil], by simp [lastAccepted], fun r hr => ?_,
          fun m hm => ?_⟩
        · exact hfresh (h.answered _ r (by simpa using hr))
        · rcases List.mem_append.mp (accepteds_append _ _ ▸ hm) with hm | hm
          · obtain ⟨r, hr⟩ := hall m hm
            exact .inr ⟨r, List.mem_append_left _ hr⟩
          · exact .inl (List.mem_singleton.mp hm)
      · simp
      · intro f hf
        rcases List.mem_cons.mp hf with rfl | hf
        · simp
        · simp [h.stack f hf]
      · intro n hn
        rcases List.mem_append.mp (accepteds_append _ _ ▸ hn) with hn | hn
        · exact (h.accepted n hn).trans (Nat.lt_succ_self _)
        · rw [List.mem_singleton.mp hn]
          exact Nat.lt_succ_self _
      · intro n r hr
        rw [accepteds_append]
        exact List.mem_append_left _ (h.answered n r (by simpa using hr))

lemma Valid.upcall (h : Valid tr l) {result : U32} {bytes : List U8}
    (hstep : Step l (.upcall result bytes) l' ns) : Valid (tr ++ ns) l' := by
  cases hreads : l.world.st.reads with
  | nil => simp [Step, exec, World.step, hreads] at hstep
  | cons r reads =>
    obtain ⟨hlen, hsub, n, hown, hlast, hnew, hothers⟩ := h.reads (by simp [hreads])
    obtain rfl : reads = [] := by simpa [hreads] using hlen
    have hworld : ∃ mem, l.world.step (.upcall result bytes) = some ({ l.world with
        st := getnstrUpcall result { l.world.st with reads := [] }, mem }, []) := by
      simp only [World.step, hreads, hsub]
      exact ⟨_, rfl⟩
    obtain ⟨mem, hworld⟩ := hworld
    have hexec := exec_of_step hworld hstep
    simp only [hown] at hexec
    cases hexec
    refine ⟨each_concat.mpr ⟨h.each, hlast, hnew⟩, fun _ => ⟨rfl, ?_, ?_⟩,
      fun hne => absurd rfl hne, fun _ => rfl, ?_, ?_, ?_⟩
    · intro m hm
      rcases hothers m (by simpa using hm) with rfl | ⟨r, hr⟩
      · exact ⟨result, by simp⟩
      · exact ⟨r, List.mem_append_left _ hr⟩
    · intro m hm
      have hm' : lastAccepted tr = some m := by simpa [lastAccepted] using hm
      obtain rfl : n = m := Option.some.inj (hlast.symm.trans hm')
      exact ⟨result, by simp, rfl⟩
    · intro f hf
      simpa using h.stack f hf
    · intro m hm
      exact h.accepted m (by simpa using hm)
    · intro m r hr
      rw [accepteds_append]
      refine List.mem_append_left _ ?_
      rcases List.mem_append.mp hr with hr | hr
      · exact h.answered m r hr
      · obtain ⟨rfl, -⟩ := Note.answered.inj (List.mem_singleton.mp hr)
        exact List.mem_of_mem_getLast? hlast

lemma Valid.test (h : Valid tr l) (hstep : Step l .test l' ns) : Valid (tr ++ ns) l' := by
  cases hstack : l.world.stack with
  | nil => simp [Step, exec, World.step, hstack] at hstep
  | cons f stack =>
    cases hcalled : l.world.st.getnstrData.called with
    | false => simp [Step, exec, World.step, hstack, hcalled] at hstep
    | true =>
      have hworld : l.world.step .test = some ({ l.world with stack },
          l.world.returned f.call l.world.st.getnstrData.result f.kind) := by
        simp only [World.step, hstack, hcalled, if_true]
      have hexec := exec_of_step hworld hstep
      simp only [hstack] at hexec
      cases hexec
      have hf : f.call ∈ accepteds tr := h.stack f (by simp [hstack])
      obtain ⟨-, hall, hlast⟩ := h.idle hcalled
      obtain ⟨m, hm⟩ : ∃ m, lastAccepted tr = some m :=
        ⟨_, List.getLast?_eq_some_getLast (List.ne_nil_of_mem hf)⟩
      obtain ⟨result, hanswer, hret⟩ := hlast m hm
      refine ⟨each_concat.mpr ⟨h.each, hf, m, result, hm, hanswer, hret⟩, fun hc => ?_,
        fun hne => ?_, h.owners, ?_, ?_, ?_⟩
      · refine ⟨(h.idle hc).1, fun k hk => ?_, fun k hk => ?_⟩
        · obtain ⟨r, hr⟩ := hall k (by simpa using hk)
          exact ⟨r, List.mem_append_left _ hr⟩
        · obtain ⟨r, hr, heq⟩ := hlast k (by simpa [lastAccepted] using hk)
          exact ⟨r, List.mem_append_left _ hr, heq⟩
      · exact absurd (h.idle hcalled).1 hne
      · intro g hg
        simpa using h.stack g (by simp [hstack, hg])
      · intro k hk
        exact h.accepted k (by simpa using hk)
      · intro k r hr
        simpa using h.answered k r (by simpa using hr)

/-- In every run, with calls inside calls, failing system calls and any answers: each call is
accepted once and answered at most once, the answers to all others have come when a call is accepted,
and a call that has waited returns the answer to the read that was accepted last. -/
theorem getnstr_returns_last_answer (h : Run Step boot tr l) : Each Owes tr := by
  have hv : Valid tr l := h.trace_invariant Valid (fun tr l a l' ns hv hstep => by
    cases a with
    | call c ans => exact hv.call hstep
    | upcall result bytes => exact hv.upcall hstep
    | test => exact hv.test hstep) valid_boot
  exact hv.each

/-- A second call is made after the answer to the first has come and before the first returns: both
return the answer to the second. -/
theorem getnstr_returns_last_answer_nested :
    ∃ tr l, Run Step boot tr l ∧ tr = [.accepted 0, .answered 0 5, .accepted 1, .answered 1 7,
      .returned 1 7, .returned 0 7] ∧ Each Owes tr := by
  have hplay : (play exec boot
      [.call (.getnstr (some 0x100) 80) ⟨.ok (), .ok (), .success⟩, .upcall 5 [],
        .call (.getnstr (some 0x200) 80) ⟨.ok (), .ok (), .success⟩, .upcall 7 [],
        .test, .test]).any (fun r => r.2 = [.accepted 0, .answered 0 5, .accepted 1,
          .answered 1 7, .returned 1 7, .returned 0 7]) = true := by
    decide +kernel
  obtain ⟨tr, l, hrun, htr⟩ : ∃ tr l, Run Step boot tr l ∧ decide (tr = [.accepted 0,
      .answered 0 5, .accepted 1, .answered 1 7, .returned 1 7, .returned 0 7]) = true :=
    Run.of_play_any (fun _ _ _ _ h => h) _ hplay
  exact ⟨tr, l, hrun, of_decide_eq_true htr, getnstr_returns_last_answer hrun⟩

end Ledger

end Console.Read
