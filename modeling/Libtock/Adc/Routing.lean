import Mathlib.Data.List.Basic
import Libtock.Adc.State

/-!
# Which callback an upcall reaches, and with which arguments

The callback is the one of the last call for its kind, whether the kernel accepted it or not; the
arguments are those of the last call the kernel accepted, whichever kind it was for. A callback gets
the arguments it was registered with exactly when these calls do not disagree.
-/

namespace Adc

open Tock

/-- A call of one of the four setters, and the kernel it meets. -/
structure Registration where
  mode : AdcMode
  callback : Option Ptr
  args : Ptr
  kernel : Kernel

/-- The answer to its `subscribe`. -/
def Registration.answer (r : Registration) : Answer := r.kernel.subscribe driverNumAdc 0

def Registration.program (r : Registration) : State → Calls Ptr (ℤ × State) :=
  match r.mode with
  | .singleSample => adcSetSingleSampleCallback r.callback r.args
  | .continuousSample => adcSetContinuousSampleCallback r.callback r.args
  | .singleBuffer => adcSetBufferedSampleCallback r.callback r.args
  | .continuousBuffer => adcSetContinuousBufferedSampleCallback r.callback r.args

/-- The library and what the kernel holds. -/
structure System where
  state : State
  slots : Slots (Subscription Upcall Ptr) Region

def System.call (w : System) (r : Registration) : System :=
  let (result, issued) := (r.program w.state).run r.kernel
  ⟨result.2, issued.foldl Slots.issue w.slots⟩

/-- A sequence of calls from program start. -/
def afterCalls (regs : List Registration) : System :=
  regs.foldl System.call ⟨initial, Slots.empty⟩

/-- The kernel delivers an upcall of the driver. -/
def System.deliver (callbackType arg1 arg2 : U32) (w : System) : Option UserCall :=
  match w.slots.subscription (driverNumAdc, 0) with
  | some ⟨.adcRoutingUpcall, callbackArgs⟩ =>
    adcRoutingUpcall callbackType arg1 arg2 callbackArgs w.state
  | _ => none

/-! ### What a registration asks for -/

/-- The last call that meets `p`. -/
def latest (p : Registration → Prop) [DecidablePred p] (regs : List Registration) :
    Option Registration :=
  regs.reverse.find? fun r => p r

def lastCall (mode : AdcMode) : List Registration → Option Registration :=
  latest fun r => r.mode = mode

def lastRegistered (mode : AdcMode) : List Registration → Option Registration :=
  latest fun r => r.mode = mode ∧ r.answer = .accepted

def lastAccepted : List Registration → Option Registration :=
  latest fun r => r.answer = .accepted

/-- The call of `callback` that an upcall stands for: the channel is in the lower 8 bits of `arg1`,
the number of samples in its upper 24 bits. -/
def decode (mode : AdcMode) (arg1 arg2 : U32) (callback args : Ptr) : UserCall :=
  match mode with
  | .singleSample | .continuousSample =>
    .sample callback (arg1.extractLsb' 0 8) (arg2.extractLsb' 0 16) args
  | .singleBuffer | .continuousBuffer =>
    .buffer callback (arg1.extractLsb' 0 8) ((arg1.extractLsb' 8 24).setWidth 32) arg2 args

/-- The call to make for an upcall: the callback last registered for its kind, with its
arguments. -/
def expected (mode : AdcMode) (arg1 arg2 : U32) (regs : List Registration) : Option UserCall :=
  (lastRegistered mode regs).bind fun r =>
    r.callback.map fun callback => decode mode arg1 arg2 callback r.args

/-- Nothing came between the registration for `mode` and the state the library is in: if upcalls
are delivered at all, the last call for `mode` carries the callback of the last one accepted and,
unless this is `NULL`, the last call accepted for any kind carries its arguments. -/
def Undisturbed (mode : AdcMode) (regs : List Registration) : Prop :=
  ∀ last ∈ lastAccepted regs,
    (lastCall mode regs).bind Registration.callback =
        (lastRegistered mode regs).bind Registration.callback ∧
      ∀ r ∈ lastRegistered mode regs, r.callback ≠ none → last.args = r.args

variable {mode : AdcMode} {regs : List Registration} {r : Registration}

/-! ### The state after the calls -/

lemma latest_append_singleton (p : Registration → Prop) [DecidablePred p] :
    latest p (regs ++ [r]) = if p r then some r else latest p regs := by
  by_cases hp : p r <;> simp [latest, hp]

lemma call_eq (w : System) (r : Registration) :
    w.call r =
      ⟨⟨Function.update w.state.callback r.mode r.callback⟩,
        w.slots.issue (.subscribe driverNumAdc 0 (some ⟨.adcRoutingUpcall, r.args⟩) r.answer)⟩ := by
  cases hm : r.mode <;> rw [System.call, Registration.program, hm] <;> rfl

lemma afterCalls_append_singleton : afterCalls (regs ++ [r]) = (afterCalls regs).call r := by
  simp [afterCalls]

lemma afterCalls_callback (regs : List Registration) (mode : AdcMode) :
    (afterCalls regs).state.callback mode =
      (lastCall mode regs).bind Registration.callback := by
  induction regs using List.reverseRecOn with
  | nil => rfl
  | append_singleton regs r ih =>
    rw [afterCalls_append_singleton, call_eq, lastCall, latest_append_singleton]
    by_cases hm : r.mode = mode
    · subst hm
      simp
    · rw [if_neg hm]
      exact (Function.update_of_ne (Ne.symm hm) _ _).trans ih

lemma afterCalls_subscription (regs : List Registration) :
    (afterCalls regs).slots.subscription (driverNumAdc, 0) =
      (lastAccepted regs).map fun r => ⟨.adcRoutingUpcall, r.args⟩ := by
  induction regs using List.reverseRecOn with
  | nil => rfl
  | append_singleton regs r ih =>
    rw [afterCalls_append_singleton, call_eq, lastAccepted, latest_append_singleton]
    cases ha : r.answer with
    | accepted => simp [Slots.issue]
    | refused e => simpa [Slots.issue, lastAccepted] using ih

/-! ### Routing -/

lemma length_bits (arg1 : U32) :
    arg1.sshiftRight 8 &&& 0xFFFFFF = (arg1.extractLsb' 8 24).setWidth 32 := by
  have hmask : ∀ i : Fin 32, (0xFFFFFF : U32).getLsbD i = decide (i.val < 24) := by decide
  apply BitVec.eq_of_getLsbD_eq
  intro i hi
  rw [BitVec.getLsbD_and, hmask ⟨i, hi⟩, BitVec.getLsbD_sshiftRight, BitVec.getLsbD_setWidth,
    BitVec.getLsbD_extractLsb']
  by_cases h24 : i < 24
  · simp [h24, hi, show 8 + i < 32 by omega]
  · simp [h24]

lemma low_bits {w : ℕ} (arg : U32) : arg.setWidth w = arg.extractLsb' 0 w := by
  apply BitVec.eq_of_getLsbD_eq
  intro i hi
  rw [BitVec.getLsbD_setWidth, BitVec.getLsbD_extractLsb', Nat.zero_add]

lemma channel_bits (arg1 : U32) : (arg1 &&& 0xFF).setWidth 8 = arg1.extractLsb' 0 8 := by
  have hmask : ∀ i : Fin 8, (0xFF : U32).getLsbD i = true := by decide
  rw [← low_bits]
  apply BitVec.eq_of_getLsbD_eq
  intro i hi
  rw [BitVec.getLsbD_setWidth, BitVec.getLsbD_setWidth, BitVec.getLsbD_and, hmask ⟨i, hi⟩,
    Bool.and_true]

lemma adcRoutingUpcall_eq (mode : AdcMode) (arg1 arg2 : U32) (args : Ptr) (s : State) :
    adcRoutingUpcall mode.toU32 arg1 arg2 args s =
      (s.callback mode).map fun callback => decode mode arg1 arg2 callback args := by
  rw [adcRoutingUpcall, AdcMode.ofU32_toU32]
  cases mode with
  | singleSample | continuousSample => simp only [decode, low_bits]
  | singleBuffer | continuousBuffer => simp only [decode, channel_bits, length_bits]

lemma deliver_afterCalls (mode : AdcMode) (arg1 arg2 : U32) (regs : List Registration) :
    (afterCalls regs).deliver mode.toU32 arg1 arg2 =
      (lastAccepted regs).bind fun last =>
        ((lastCall mode regs).bind Registration.callback).map fun callback =>
          decode mode arg1 arg2 callback last.args := by
  rw [System.deliver, afterCalls_subscription, ← afterCalls_callback]
  cases lastAccepted regs with
  | none => rfl
  | some last => exact adcRoutingUpcall_eq _ _ _ _ _

/-- A kind for which a registration was accepted: then some registration was. -/
lemma lastRegistered_eq_none (h : lastAccepted regs = none) : lastRegistered mode regs = none := by
  simp only [lastAccepted, lastRegistered, latest, List.find?_eq_none] at h ⊢
  intro r hr hacc
  exact h r hr (by simpa using (by simpa using hacc : _ ∧ _).2)

lemma decode_inj {arg1 arg2 : U32} {callback callback' args args' : Ptr} :
    decode mode arg1 arg2 callback args = decode mode arg1 arg2 callback' args' ↔
      callback = callback' ∧ args = args' := by
  cases mode <;> simp [decode]

/-- An upcall calls the callback last registered for its kind, with the arguments of this
registration and what the upcall carries, exactly when the registration is undisturbed. -/
theorem deliver_eq_expected_iff (mode : AdcMode) (arg1 arg2 : U32) (regs : List Registration) :
    (afterCalls regs).deliver mode.toU32 arg1 arg2 = expected mode arg1 arg2 regs ↔
      Undisturbed mode regs := by
  rw [deliver_afterCalls, expected, Undisturbed]
  cases hacc : lastAccepted regs with
  | none => simp [lastRegistered_eq_none hacc]
  | some last =>
    cases hreg : lastRegistered mode regs with
    | none => simp
    | some r =>
      cases hcb : r.callback with
      | none => simp [hcb]
      | some callback =>
        cases hcall : (lastCall mode regs).bind Registration.callback with
        | none => simp [hcb]
        | some callback' => simp [hcb, decode_inj]

/-- The two ways a registration is disturbed: by one of another kind with arguments of its own, and
by one that the kernel refuses. -/
theorem deliver_ne_expected :
    (let regs : List Registration :=
      [⟨.singleSample, some 1, 10, .steady .accepted .success⟩,
        ⟨.continuousBuffer, some 2, 20, .steady .accepted .success⟩]
     (afterCalls regs).deliver AdcMode.singleSample.toU32 3 500 = some (.sample 1 3 500 20) ∧
      expected .singleSample 3 500 regs = some (.sample 1 3 500 10)) ∧
    (let regs : List Registration :=
      [⟨.singleSample, some 1, 10, .steady .accepted .success⟩,
        ⟨.singleSample, some 2, 20, .steady (.refused ⟨.nomem, by decide⟩) .success⟩]
     (afterCalls regs).deliver AdcMode.singleSample.toU32 3 500 = some (.sample 2 3 500 10) ∧
      expected .singleSample 3 500 regs = some (.sample 1 3 500 10)) := by
  decide

end Adc
