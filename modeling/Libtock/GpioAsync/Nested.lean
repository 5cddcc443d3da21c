import Libtock.Core.Run
import Libtock.GpioAsync.State

/-!
# Nested synchronous calls

While a synchronous function waits, tasks and upcalls run, and these may call a synchronous function
again. The driver answers the commands it accepted in command order. All calls share `result`: when
two of them are under way, the first answer ends the inner one.
-/

namespace GpioAsync

open Core Tock

inductive Call
  | makeOutput (port : U32) (pin : U8)
  | set (port : U32) (pin : U8)
  | clear (port : U32) (pin : U8)
  | toggle (port : U32) (pin : U8)
  | makeInput (port : U32) (pin : U8) (pinConfig : GPIOInputMode)
  | read (port : U32) (pin : U8)
  | enableInterrupt (port : U32) (pin : U8) (irqConfig : GPIOInterruptMode)
  | disableInterrupt (port : U32) (pin : U8)
  | disable (port : U32) (pin : U8)

namespace Call

def program : Call → GpioAsyncData → Calls (Progress × GpioAsyncData)
  | makeOutput port pin => gpioAsyncMakeOutputSync port pin
  | set port pin => gpioAsyncSetSync port pin
  | clear port pin => gpioAsyncClearSync port pin
  | toggle port pin => gpioAsyncToggleSync port pin
  | makeInput port pin pinConfig => gpioAsyncMakeInputSync port pin pinConfig
  | read port pin => gpioAsyncReadSync port pin
  | enableInterrupt port pin irqConfig => gpioAsyncEnableInterruptSync port pin irqConfig
  | disableInterrupt port pin => gpioAsyncDisableInterruptSync port pin
  | disable port pin => gpioAsyncDisableSync port pin

lemma exists_command (c : Call) :
    ∃ commandNum pin data, c.program = gpioAsyncSync (gpioAsyncCommand commandNum pin data) := by
  cases c <;> exact ⟨_, _, _, rfl⟩

/-- Its command is accepted. -/
def starts (c : Call) (k : Kernel) (result : GpioAsyncData) : Bool :=
  ((c.program result).run k).2.any Issued.isAcceptedCommand

end Call

/-! ### Runs -/

structure Driver where
  /-- The slot `0`. -/
  subscription : Option (Subscription Upcall Userdata)
  /-- The calls whose commands are accepted but not answered yet, in command order. -/
  queue : List ℕ

def Driver.issue (n : ℕ) (s : Driver) : Issued (Subscription Upcall Userdata) Empty → Driver
  | .subscribe driver num content answer =>
    if driver = driverNumGpioAsync ∧ num = 0 then
      { s with subscription := answer.install content s.subscription }
    else s
  | .command driver _ _ _ r =>
    if driver = driverNumGpioAsync ∧ r.isAccepted = true then { s with queue := s.queue ++ [n] }
    else s
  | _ => s

structure World where
  result : GpioAsyncData
  driver : Driver
  /-- The calls that wait, innermost first. -/
  stack : List ℕ
  /-- The number of calls so far. -/
  calls : ℕ

inductive Event
  | started (call : ℕ)
  /-- The function returns without waiting. -/
  | refused (call : ℕ) (ret : ℤ)
  | answered (call : ℕ) (value : ℤ)
  | returned (call : ℕ) (ret : ℤ)
  deriving DecidableEq

inductive Action
  | call (c : Call) (k : Kernel)
  /-- The upcall for the oldest command that is not answered. -/
  | upcall (callbackType value : U32)
  /-- The innermost `yield_for` tests `result.fired`; if it holds, its function returns. -/
  | test

namespace World

/-- At program start. -/
def initial : World := ⟨GpioAsync.initial, ⟨none, []⟩, [], 0⟩

def step (w : World) : Action → Option (World × List Event)
  | .call c k =>
    let ((progress, result), issued) := (c.program w.result).run k
    let driver := issued.foldl (Driver.issue w.calls) w.driver
    match progress with
    | .waits => some (⟨result, driver, w.calls :: w.stack, w.calls + 1⟩, [.started w.calls])
    | .returned ret => some (⟨result, driver, w.stack, w.calls + 1⟩, [.refused w.calls ret])
  | .upcall callbackType value =>
    match w.driver.queue with
    | n :: queue =>
      some ({ w with
        driver := { w.driver with queue }
        result :=
          if w.driver.subscription = some ⟨.gpioAsyncUpcall, .result⟩ then
            gpioAsyncUpcall callbackType value w.result
          else w.result }, [.answered n value.toInt])
    | [] => none
  | .test =>
    match w.stack with
    | n :: stack =>
      if w.result.fired then some ({ w with stack }, [.returned n w.result.value]) else none
    | [] => none

def Step (w : World) (a : Action) (w' : World) (es : List Event) : Prop :=
  w.step a = some (w', es)

end World

/-- Every call that returns has been answered before, with the value it returns. -/
def OwnResults (tr : List Event) : Prop :=
  ∀ pre n ret, pre ++ [.returned n ret] <+: tr → .answered n ret ∈ pre

/-- The condition on a step: a command is accepted only when no call waits and no command is left to
be answered. -/
def World.Alone (w : World) : Action → Prop
  | .call c k => c.starts k w.result = true → w.stack = [] ∧ w.driver.queue = []
  | _ => True

instance (w : World) (a : Action) : Decidable (w.Alone a) :=
  match a with
  | .call _ _ => inferInstanceAs (Decidable (_ → _))
  | .upcall _ _ | .test => inferInstanceAs (Decidable True)

/-! ### Steps -/

namespace World

variable {w w' : World} {es : List Event} {tr : List Event}

/-- The answer goes to `result`. -/
def Subscribed (w : World) : Prop :=
  w.driver.subscription = some ⟨.gpioAsyncUpcall, .result⟩

lemma step_call {c : Call} {k : Kernel} (h : Step w (.call c k) w' es) :
    w'.result = { w.result with fired := false } ∧
      (c.starts k w.result = false ∧ w'.driver.queue = w.driver.queue ∧
          (w.Subscribed → w'.Subscribed) ∧ w'.stack = w.stack ∧
          (∃ ret, es = [.refused w.calls ret]) ∨
        c.starts k w.result = true ∧ w'.driver.queue = w.driver.queue ++ [w.calls] ∧
          w'.Subscribed ∧
          (w'.stack = w.calls :: w.stack ∧ es = [.started w.calls] ∨
            w'.stack = w.stack ∧ ∃ ret, es = [.refused w.calls ret])) := by
  obtain ⟨commandNum, pin, data, hprogram⟩ := c.exists_command
  simp only [Step, step, Call.starts, hprogram, gpioAsyncSync_run] at h ⊢
  by_cases hs : k.subscribe driverNumGpioAsync 0 = .accepted
  · cases hc : k.command driverNumGpioAsync commandNum (pin.setWidth 32) data with
    | success =>
      simp only [hs, hc, if_true] at h ⊢
      cases h
      exact ⟨rfl, .inr ⟨rfl, rfl, rfl, .inl ⟨rfl, rfl⟩⟩⟩
    | successValues =>
      simp only [hs, hc, if_true, reduceCtorEq, if_false] at h ⊢
      cases h
      exact ⟨rfl, .inr ⟨rfl, rfl, rfl, .inr ⟨rfl, _, rfl⟩⟩⟩
    | _ =>
      simp only [hs, hc, if_true, reduceCtorEq, if_false] at h ⊢
      cases h
      exact ⟨rfl, .inl ⟨rfl, rfl, fun _ => rfl, rfl, _, rfl⟩⟩
  · simp only [hs, if_false] at h ⊢
    cases hrefused : k.subscribe driverNumGpioAsync 0 with
    | accepted => exact absurd hrefused hs
    | refused e =>
      simp only [hrefused] at h
      cases h
      exact ⟨rfl, .inl ⟨rfl, rfl, id, rfl, _, rfl⟩⟩

lemma step_upcall {callbackType value : U32} (h : Step w (.upcall callbackType value) w' es) :
    ∃ n, w.driver.queue = n :: w'.driver.queue ∧ es = [.answered n value.toInt] ∧
      w'.stack = w.stack ∧ w'.driver.subscription = w.driver.subscription ∧
      (w.Subscribed → w'.result = gpioAsyncUpcall callbackType value w.result) := by
  cases hqueue : w.driver.queue with
  | nil => simp [Step, step, hqueue] at h
  | cons n queue =>
    simp only [Step, step, hqueue] at h
    cases h
    exact ⟨n, rfl, rfl, rfl, rfl, fun hsub => if_pos hsub⟩

lemma step_test (h : Step w .test w' es) :
    ∃ n, w.stack = n :: w'.stack ∧ w.result.fired = true ∧ es = [.returned n w.result.value] ∧
      w'.driver = w.driver := by
  cases hstack : w.stack with
  | nil => simp [Step, step, hstack] at h
  | cons n stack =>
    simp only [Step, step, hstack] at h
    split at h
    · next hfired =>
      cases h
      exact ⟨n, rfl, hfired, rfl, rfl⟩
    · cases h

/-! ### The invariant -/

/-- At most one call is under way. -/
inductive Phase (tr : List Event) (w : World) : Prop
  | idle (hstack : w.stack = [])
  | waiting (n : ℕ) (hstack : w.stack = [n]) (hqueue : w.driver.queue = [n])
      (hfired : w.result.fired = false)
  | answered (n : ℕ) (hstack : w.stack = [n]) (hqueue : w.driver.queue = [])
      (hvalue : .answered n w.result.value ∈ tr)

structure Inv (tr : List Event) (w : World) : Prop where
  own : OwnResults tr
  subscribed : w.driver.queue ≠ [] → w.Subscribed
  phase : Phase tr w

lemma inv_initial : Inv [] initial where
  own pre n ret h := by simp at h
  subscribed h := absurd rfl h
  phase := .idle rfl

end World

lemma OwnResults.snoc {tr : List Event} (h : OwnResults tr) {e : Event}
    (he : ∀ n ret, e = .returned n ret → .answered n ret ∈ tr) : OwnResults (tr ++ [e]) := by
  intro pre n ret hpre
  rcases List.prefix_concat_iff.mp hpre with heq | hpre
  · obtain ⟨rfl, hret⟩ := List.append_inj' heq rfl
    exact he n ret (List.cons.inj hret).1.symm
  · exact h pre n ret hpre

namespace World

variable {w w' : World} {a : Action} {es : List Event} {tr : List Event}

/-- A call whose command is refused, or which makes none. -/
lemma Phase.of_refused (h : Phase tr w) (hresult : w'.result = { w.result with fired := false })
    (hqueue : w'.driver.queue = w.driver.queue) (hstack : w'.stack = w.stack) :
    Phase (tr ++ es) w' := by
  cases h with
  | idle hidle => exact .idle (hstack.trans hidle)
  | waiting n hn hq hfired =>
    exact .waiting n (hstack.trans hn) (hqueue.trans hq) (by rw [hresult])
  | answered n hn hq hvalue =>
    refine .answered n (hstack.trans hn) (hqueue.trans hq) (List.mem_append_left _ ?_)
    rw [hresult]
    exact hvalue

lemma Inv.step (h : Inv tr w) (hw : Guarded Step Alone w a w' es) : Inv (tr ++ es) w' := by
  obtain ⟨halone, hstep⟩ := hw
  cases a with
  | call c k =>
    obtain ⟨hresult, hcall⟩ := step_call hstep
    rcases hcall with ⟨-, hqueue, hsub, hstack, ret, rfl⟩ | ⟨hstarts, hqueue, hsub, hcall⟩
    · exact {
        own := h.own.snoc nofun
        subscribed := fun hne => hsub (h.subscribed (hqueue ▸ hne))
        phase := h.phase.of_refused hresult hqueue hstack }
    · obtain ⟨hempty, hnone⟩ := halone hstarts
      rw [hnone] at hqueue
      rcases hcall with ⟨hstack, rfl⟩ | ⟨hstack, ret, rfl⟩
      · exact {
          own := h.own.snoc nofun
          subscribed := fun _ => hsub
          phase := .waiting w.calls (hempty ▸ hstack) hqueue (by rw [hresult]) }
      · exact {
          own := h.own.snoc nofun
          subscribed := fun _ => hsub
          phase := .idle (hstack.trans hempty) }
  | upcall callbackType value =>
    obtain ⟨n, hqueue, rfl, hstack, hslot, hresult⟩ := step_upcall hstep
    have hsub : w.Subscribed := h.subscribed (by rw [hqueue]; exact List.cons_ne_nil _ _)
    refine ⟨h.own.snoc nofun, fun _ => hslot.trans hsub, ?_⟩
    cases h.phase with
    | idle hidle => exact .idle (hstack.trans hidle)
    | waiting m hm hq _ =>
      obtain ⟨rfl, hrest⟩ := List.cons.inj (hqueue.symm.trans hq)
      refine .answered n (hstack.trans hm) hrest (List.mem_append_right _ ?_)
      rw [hresult hsub]
      exact List.mem_singleton_self _
    | answered m hm hq _ => cases hqueue.symm.trans hq
  | test =>
    obtain ⟨n, hstack, hfired, rfl, hdriver⟩ := step_test hstep
    cases h.phase with
    | idle hidle => cases hstack.symm.trans hidle
    | waiting m hm _ hnot => cases hfired.symm.trans hnot
    | answered m hm hq hvalue =>
      obtain ⟨rfl, hrest⟩ := List.cons.inj (hstack.symm.trans hm)
      refine ⟨h.own.snoc ?_, ?_, .idle hrest⟩
      · rintro m ret ⟨⟩
        exact hvalue
      · simpa only [Subscribed, hdriver] using h.subscribed

/-- When every command is accepted alone, every call returns its own result. -/
theorem ownResults_of_run (h : Run (Guarded Step Alone) initial tr w) : OwnResults tr :=
  (h.trace_invariant Inv (fun _ _ _ _ _ => Inv.step) inv_initial).own

/-- Reading one pin after the other; a call made while the first one waits is refused. -/
theorem ownResults_of_run_read : OwnResults
    [.started 0, .refused 1 (-2), .answered 0 1, .returned 0 1, .started 2, .answered 2 0,
      .returned 2 0] := by
  have hplay : (play (restrict step Alone) initial
      [.call (.read 0 0) (.steady .accepted .success),
        .call (.read 0 1) (.steady .accepted (.failure ⟨.busy, nofun⟩)), .upcall 6 1, .test,
        .call (.read 0 1) (.steady .accepted .success), .upcall 6 0, .test]).map (·.2) =
      some [.started 0, .refused 1 (-2), .answered 0 1, .returned 0 1, .started 2, .answered 2 0,
        .returned 2 0] := rfl
  obtain ⟨⟨w, tr⟩, hw, rfl⟩ := Option.map_eq_some_iff.mp hplay
  exact ownResults_of_run (Run.of_play_restrict (fun _ _ _ _ => id) _ hw)

/-- The answer to a read ends a call that was made while the read waited. -/
theorem not_ownResults : ∃ w tr, Run Step initial tr w ∧ ¬ OwnResults tr := by
  have hplay : (play step initial [.call (.read 0 0) (.steady .accepted .success),
      .call (.set 0 1) (.steady .accepted .success), .upcall 6 1, .test]).map (·.2) =
      some [.started 0, .started 1, .answered 0 1, .returned 1 1] := rfl
  obtain ⟨⟨w, tr⟩, hw, rfl⟩ := Option.map_eq_some_iff.mp hplay
  refine ⟨w, _, Run.of_play (f := step) (fun _ _ _ _ => id) _ hw, ?_⟩
  intro h
  have hown := h [.started 0, .started 1, .answered 0 1] 1 1 (List.prefix_refl _)
  exact absurd hown (by decide)

end World

end GpioAsync
