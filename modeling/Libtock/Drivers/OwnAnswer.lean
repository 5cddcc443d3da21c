import Libtock.Drivers.World

/-!
# Each call returns its own answer

As long as no call is made to a driver on which another one waits, the record of a waiting call is
subscribed and its command is either outstanding or has just been answered into that record, no
matter how deep the calls nest.
-/

namespace Drivers

open Core Tock

variable {c c' : SyncCall} {n n' : ℕ} {tr : List Event} {w w' : World}

/-- Calls to different drivers have different records. -/
lemma cell_ne (hd : c.driver ≠ c'.driver) (hn : n ≠ n') : c.cell n ≠ c'.cell n' := by
  intro h
  rw [SyncCall.cell, SyncCall.cell] at h
  cases hs : c.storage <;> cases hs' : c'.storage <;> rw [hs, hs'] at h
  · exact hd (Cell.static.inj h)
  · cases h
  · cases h
  · exact hn (Cell.onStack.inj h)

@[simp] lemma finishes_singleton (args : UpcallArgs) : c.finishes [args] = c.finish args := rfl

@[simp] lemma answers_append (tr es : List Event) :
    answers n (tr ++ es) = answers n tr ++ answers n es := by
  simp [answers]

@[simp] lemma answers_answered_self (args : UpcallArgs) :
    answers n [.answered n args] = [args] := by
  simp [answers]

lemma answers_answered_of_ne (hn : n' ≠ n) (args : UpcallArgs) :
    answers n [.answered n' args] = [] := by
  simp [answers, hn]

namespace World

/-! ### The invariant -/

/-- The command of a waiting call is outstanding and nothing has come yet, or it has been answered
into the record of the call. -/
structure Pending (tr : List Event) (w : World) (f : ℕ × Call) : Prop where
  lt : f.1 < w.calls
  called : .called f.1 f.2 ∈ tr
  subscription :
    w.slots.subscription (f.2.sync.driver, 0) = some (f.2.sync.cell f.1)
  state :
    (w.due f.2.sync.driver = [f.1] ∧ w.cells (f.2.sync.cell f.1) = [] ∧ answers f.1 tr = []) ∨
      ∃ args, w.due f.2.sync.driver = [] ∧ w.cells (f.2.sync.cell f.1) = [args] ∧
        answers f.1 tr = [args]

/-- Two calls with different drivers and different numbers. -/
def Apart (f g : ℕ × Call) : Prop := f.2.sync.driver ≠ g.2.sync.driver ∧ f.1 ≠ g.1

instance : Std.Symm Apart := ⟨fun _ _ h => ⟨h.1.symm, h.2.symm⟩⟩

structure Valid (tr : List Event) (w : World) : Prop where
  each : Each Owes tr
  apart : w.stack.Pairwise Apart
  pending : ∀ f ∈ w.stack, Pending tr w f
  /-- Nobody but a waiting call has an outstanding command. -/
  quiet : ∀ d, (∀ f ∈ w.stack, f.2.sync.driver ≠ d) → w.due d = []
  fresh : ∀ n, w.calls ≤ n → answers n tr = []
  gone : ∀ n r, .returned n r ∈ tr → n < w.calls ∧ ∀ f ∈ w.stack, f.1 ≠ n

lemma valid_initial : Valid [] initial where
  each := each_nil
  apart := .nil
  pending := by simp [initial]
  quiet := fun _ _ => rfl
  fresh := fun _ _ => rfl
  gone := by simp

/-- A waiting call is not affected by what happens to other drivers and records. -/
lemma Pending.frame {f : ℕ × Call} {es : List Event} (h : Pending tr w f)
    (hcalls : w.calls ≤ w'.calls)
    (hsub : w'.slots.subscription (f.2.sync.driver, 0) =
      w.slots.subscription (f.2.sync.driver, 0))
    (hdue : w'.due f.2.sync.driver = w.due f.2.sync.driver)
    (hcells : w'.cells (f.2.sync.cell f.1) = w.cells (f.2.sync.cell f.1))
    (hanswers : answers f.1 es = []) : Pending (tr ++ es) w' f where
  lt := h.lt.trans_le hcalls
  called := List.mem_append_left _ h.called
  subscription := hsub.trans h.subscription
  state := by
    rw [hdue, hcells, answers_append, hanswers, List.append_nil]
    exact h.state

/-! ### The steps -/

/-- Only waiting calls have numbers and drivers in use, so a new call is apart from them. -/
lemma Valid.apart_call (h : Valid tr w) {c : Call}
    (hfree : ∀ f ∈ w.stack, f.2.sync.driver ≠ c.sync.driver) :
    ∀ f ∈ w.stack, Apart f (w.calls, c) :=
  fun f hf => ⟨hfree f hf, (h.pending f hf).lt.ne⟩

lemma Valid.refused (h : Valid tr w) {c : Call} {ret : ℤ} {slots : Slots Cell Region}
    {cells : Cell → List UpcallArgs}
    (hfree : ∀ f ∈ w.stack, f.2.sync.driver ≠ c.sync.driver) (hret : ret < 0)
    (hslots : ∀ d ≠ c.sync.driver, slots.subscription (d, 0) = w.slots.subscription (d, 0))
    (hcells : ∀ x ≠ c.sync.cell w.calls, cells x = w.cells x) :
    Valid (tr ++ [.called w.calls c, .refused w.calls ret])
      { w with slots, cells, calls := w.calls + 1 } where
  each := by
    rw [List.append_cons]
    exact each_concat.mpr ⟨each_concat.mpr ⟨h.each, trivial⟩, hret⟩
  apart := h.apart
  pending := by
    intro f hf
    have hapart := h.apart_call hfree f hf
    exact (h.pending f hf).frame (Nat.le_succ _) (hslots _ hapart.1) rfl
      (hcells _ (cell_ne hapart.1 hapart.2)) rfl
  quiet := h.quiet
  fresh := by
    intro n hn
    rw [answers_append, h.fresh n (Nat.le_of_succ_le hn)]
    rfl
  gone := by
    intro n r hr
    have hmem : .returned n r ∈ tr := by simpa using hr
    exact ⟨(h.gone n r hmem).1.trans (Nat.lt_succ_self _), (h.gone n r hmem).2⟩

lemma Valid.waits (h : Valid tr w) {c : Call} {slots : Slots Cell Region}
    (hfree : ∀ f ∈ w.stack, f.2.sync.driver ≠ c.sync.driver)
    (hslots : ∀ d ≠ c.sync.driver, slots.subscription (d, 0) = w.slots.subscription (d, 0))
    (hsub : slots.subscription (c.sync.driver, 0) = some (c.sync.cell w.calls)) :
    Valid (tr ++ [.called w.calls c])
      { w with
        slots
        due := Function.update w.due c.sync.driver (w.due c.sync.driver ++ [w.calls])
        cells := Function.update w.cells (c.sync.cell w.calls) []
        stack := (w.calls, c) :: w.stack
        calls := w.calls + 1 } where
  each := each_concat.mpr ⟨h.each, trivial⟩
  apart := List.pairwise_cons.mpr ⟨fun f hf => Std.Symm.symm _ _ (h.apart_call hfree f hf), h.apart⟩
  pending := by
    intro f hf
    rcases List.mem_cons.mp hf with rfl | hf
    · refine ⟨Nat.lt_succ_self _, by simp, hsub, .inl ⟨?_, ?_, ?_⟩⟩
      · simp [h.quiet c.sync.driver hfree]
      · simp
      · rw [answers_append, h.fresh w.calls (le_refl _)]
        rfl
    · have hapart := h.apart_call hfree f hf
      exact (h.pending f hf).frame (Nat.le_succ _) (hslots _ hapart.1)
        (Function.update_of_ne hapart.1 _ _)
        (Function.update_of_ne (cell_ne hapart.1 hapart.2) _ _) rfl
  quiet := by
    intro d hd
    have hne : d ≠ c.sync.driver := (hd _ List.mem_cons_self).symm
    have hdue := h.quiet d fun f hf => hd f (List.mem_cons_of_mem _ hf)
    exact (Function.update_of_ne hne _ _).trans hdue
  fresh := by
    intro n hn
    rw [answers_append, h.fresh n (Nat.le_of_succ_le hn)]
    rfl
  gone := by
    intro n r hr
    have hmem : .returned n r ∈ tr := by simpa using hr
    obtain ⟨hlt, hne⟩ := h.gone n r hmem
    refine ⟨hlt.trans (Nat.lt_succ_self _), fun f hf => ?_⟩
    rcases List.mem_cons.mp hf with rfl | hf
    · exact hlt.ne'
    · exact hne f hf

/-- A driver with an outstanding command: the call that waits for it. -/
lemma Valid.exists_pending (h : Valid tr w) {d : U32} (hdue : w.due d ≠ []) :
    ∃ f ∈ w.stack, f.2.sync.driver = d ∧ w.due d = [f.1] ∧
      w.cells (f.2.sync.cell f.1) = [] ∧ answers f.1 tr = [] := by
  have hex : ∃ f ∈ w.stack, f.2.sync.driver = d := by
    by_contra hno
    push Not at hno
    exact hdue (h.quiet d hno)
  obtain ⟨f, hf, rfl⟩ := hex
  rcases (h.pending f hf).state with ⟨h1, h2, h3⟩ | ⟨_, h1, _⟩
  · exact ⟨f, hf, rfl, h1, h2, h3⟩
  · exact absurd h1 hdue

/-- A callback does not dangle while its call waits. -/
lemma dangling_cell {f : ℕ × Call} (hf : f ∈ w.stack) : w.dangling (f.2.sync.cell f.1) = [] := by
  rw [SyncCall.cell]
  cases f.2.sync.storage with
  | static => rfl
  | onStack => exact if_pos (List.mem_map_of_mem hf)

lemma Valid.answered (h : Valid tr w) {f : ℕ × Call} (hf : f ∈ w.stack) (args : UpcallArgs)
    (hcells : w.cells (f.2.sync.cell f.1) = []) (hanswers : answers f.1 tr = []) :
    Valid (tr ++ [.answered f.1 args])
      { w with
        due := Function.update w.due f.2.sync.driver []
        cells := Function.update w.cells (f.2.sync.cell f.1) [args] } where
  each := each_concat.mpr ⟨h.each, hanswers⟩
  apart := h.apart
  pending := by
    intro g hg
    by_cases hfg : g = f
    · subst hfg
      refine ⟨(h.pending g hg).lt, List.mem_append_left _ (h.pending g hg).called,
        (h.pending g hg).subscription, .inr ⟨args, ?_, ?_, ?_⟩⟩
      · simp
      · simp
      · simp [hanswers]
    · have hapart := h.apart.forall hg hf hfg
      exact (h.pending g hg).frame (le_refl _) rfl (Function.update_of_ne hapart.1 _ _)
        (Function.update_of_ne (cell_ne hapart.1 hapart.2) _ _)
        (answers_answered_of_ne hapart.2.symm args)
  quiet := by
    intro d hd
    exact (Function.update_of_ne (hd f hf).symm _ _).trans (h.quiet d hd)
  fresh := by
    intro n hn
    have hne : f.1 ≠ n := ((h.pending f hf).lt.trans_le hn).ne
    rw [answers_append, h.fresh n hn, answers_answered_of_ne hne]
    rfl
  gone := by
    intro n r hr
    exact h.gone n r (by simpa using hr)

lemma Valid.returned {f : ℕ × Call} {stack : List (ℕ × Call)} (h : Valid tr w)
    (hstack : w.stack = f :: stack) {args : UpcallArgs} (hdue : w.due f.2.sync.driver = [])
    (hanswers : answers f.1 tr = [args]) :
    Valid (tr ++ [.returned f.1 (f.2.sync.finish args)]) { w with stack } where
  each := by
    refine each_concat.mpr ⟨h.each, fun r hr => ?_, f.2, args, ?_, hanswers, rfl⟩
    · exact (h.gone f.1 r hr).2 f (by simp [hstack]) rfl
    · exact (h.pending f (by simp [hstack])).called
  apart := by
    have hpairwise := h.apart
    rw [hstack, List.pairwise_cons] at hpairwise
    exact hpairwise.2
  pending := fun g hg =>
    (h.pending g (by simp [hstack, hg])).frame (le_refl _) rfl rfl rfl rfl
  quiet := by
    intro d hd
    by_cases hfd : f.2.sync.driver = d
    · exact hfd ▸ hdue
    · exact h.quiet d fun g hg => by
        rcases List.mem_cons.mp (hstack ▸ hg) with rfl | hg
        · exact hfd
        · exact hd g hg
  fresh := by
    intro n hn
    rw [answers_append, h.fresh n hn]
    rfl
  gone := by
    have hpairwise := h.apart
    rw [hstack, List.pairwise_cons] at hpairwise
    intro n r hr
    rcases List.mem_append.mp hr with hr | hr
    · obtain ⟨hlt, hne⟩ := h.gone n r hr
      exact ⟨hlt, fun g hg => hne g (by simp [hstack, hg])⟩
    · obtain ⟨rfl, -⟩ := Event.returned.inj (List.mem_singleton.mp hr)
      exact ⟨(h.pending f (by simp [hstack])).lt, fun g hg => (hpairwise.1 g hg).2.symm⟩

lemma Valid.step {a : Action} {es : List Event} (h : Valid tr w) (hfree : Free w a)
    (hstep : Step w a w' es) : Valid (tr ++ es) w' := by
  rw [Step] at hstep
  cases a with
  | call c k =>
    obtain ⟨hplain, hfree⟩ := hfree
    obtain ⟨outcome, issued, hrun, hslots, hcase⟩ := program_cases hplain w.calls w.slots
    simp only [exec, hrun] at hstep
    rcases hcase with ⟨rfl, hwaiting⟩ | ⟨ret, rfl, hret, hstarts⟩
    · simp only [hwaiting.starts, hwaiting.resets, if_true] at hstep
      cases hstep
      exact h.waits hfree hslots hwaiting.subscription
    · simp only [hstarts, Bool.false_eq_true, if_false] at hstep
      cases hstep
      refine h.refused hfree hret hslots fun x hx => ?_
      split
      · exact Function.update_of_ne hx _ _
      · rfl
  | upcall d args =>
    simp only [exec] at hstep
    split at hstep
    · next n due hdue =>
      obtain ⟨f, hf, rfl, hown, hcells, hanswers⟩ := h.exists_pending (d := d) (by simp [hdue])
      rw [hdue] at hown
      obtain ⟨rfl, rfl⟩ := List.cons.inj hown
      rw [(h.pending f hf).subscription] at hstep
      simp only [dangling_cell hf, hcells, List.nil_append] at hstep
      cases hstep
      exact h.answered hf args hcells hanswers
    · cases hstep
  | test =>
    simp only [exec] at hstep
    split at hstep
    · next n c stack hstack =>
      have hmem : (n, c) ∈ w.stack := by simp [hstack]
      rcases (h.pending _ hmem).state with ⟨-, hcells, -⟩ | ⟨args, hdue, hcells, hanswers⟩
      · simp [hcells] at hstep
      · simp only [hcells, List.isEmpty_cons, Bool.false_eq_true, if_false,
          finishes_singleton] at hstep
        cases hstep
        exact h.returned hstack hdue hanswers
    · cases hstep

lemma valid_of_run {es : List Event} (h : Run (Guarded Step Free) initial es w) : Valid es w :=
  h.trace_invariant Valid (fun _ _ _ _ _ hv hstep => hv.step hstep.1 hstep.2) valid_initial

/-! ### Every call that waits can return -/

lemma Valid.step_upcall {f : ℕ × Call} (h : Valid tr w) (hf : f ∈ w.stack)
    (hdue : w.due f.2.sync.driver = [f.1]) (hcells : w.cells (f.2.sync.cell f.1) = [])
    (args : UpcallArgs) :
    Step w (.upcall f.2.sync.driver args)
      { w with
        due := Function.update w.due f.2.sync.driver []
        cells := Function.update w.cells (f.2.sync.cell f.1) [args] }
      [.answered f.1 args] := by
  simp only [Step, exec, hdue]
  rw [(h.pending f hf).subscription]
  simp only [hcells, dangling_cell hf, List.nil_append]

lemma step_test {f : ℕ × Call} {stack : List (ℕ × Call)} {args : UpcallArgs}
    (hstack : w.stack = f :: stack) (hcells : w.cells (f.2.sync.cell f.1) = [args]) :
    Step w .test { w with stack } [.returned f.1 (f.2.sync.finish args)] := by
  simp [Step, exec, hstack, hcells]

lemma Quiet.free {a : Action} (h : Quiet w a) : Free w a := by
  cases a with
  | call c k => exact h.elim
  | _ => trivial

/-- The innermost call returns once its driver has answered. -/
lemma Valid.exists_return {f : ℕ × Call} {stack : List (ℕ × Call)} (h : Valid tr w)
    (hstack : w.stack = f :: stack) (args : UpcallArgs) :
    ∃ es w', Run (Guarded Step Quiet) w es w' ∧ w'.stack = stack := by
  have hf : f ∈ w.stack := by simp [hstack]
  rcases (h.pending f hf).state with ⟨hdue, hcells, -⟩ | ⟨args', -, hcells, -⟩
  · have hupcall : Guarded Step Quiet w (.upcall f.2.sync.driver args) _ _ :=
      ⟨trivial, h.step_upcall hf hdue hcells args⟩
    have htest : Guarded Step Quiet _ .test _ _ :=
      ⟨trivial, step_test (w := { w with
        due := Function.update w.due f.2.sync.driver []
        cells := Function.update w.cells (f.2.sync.cell f.1) [args] }) hstack
        (Function.update_self _ _ _)⟩
    exact ⟨_, _, (Run.single hupcall).snoc _ htest, rfl⟩
  · have htest : Guarded Step Quiet w .test _ _ := ⟨trivial, step_test hstack hcells⟩
    exact ⟨_, _, Run.single htest, rfl⟩

lemma Valid.run {es : List Event} (h : Valid tr w) (hrun : Run (Guarded Step Quiet) w es w') :
    Valid (tr ++ es) w' := by
  refine hrun.trace_invariant (fun es w' => Valid (tr ++ es) w') ?_ (by simpa using h)
  intro es s a s' es' hv hstep
  rw [← List.append_assoc]
  exact hv.step hstep.1.free hstep.2

lemma Valid.exists_all_return (args : UpcallArgs) {stack : List (ℕ × Call)} (h : Valid tr w)
    (hstack : w.stack = stack) :
    ∃ es w', Run (Guarded Step Quiet) w es w' ∧ w'.stack = [] := by
  induction stack generalizing w tr with
  | nil => exact ⟨[], w, .nil, hstack⟩
  | cons f stack ih =>
    obtain ⟨es, w₁, hrun, hstack₁⟩ := h.exists_return hstack args
    obtain ⟨es', w₂, hrun', hstack₂⟩ := ih (h.run hrun) hstack₁
    exact ⟨es ++ es', w₂, hrun.trans hrun', hstack₂⟩

/-- A command that succeeds with a value is outstanding when its function returns
`RETURNCODE_EBADRVAL`. -/
example : (play exec initial [.call .ambientLightReadIntensity (.steady .accepted .successValues),
    .upcall driverNumAmbientLight ⟨40, 0, 0⟩]).map Prod.snd =
      some [.called 0 .ambientLightReadIntensity, .refused 0 returncodeEBadrval, .answered 0 ⟨40, 0, 0⟩,
        .dangling 0] := by
  decide +kernel

end World

end Drivers
