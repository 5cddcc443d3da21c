import Libtock.Tock.Kernel

/-!
# The callbacks of `adc.c`

The four kinds of sampling share one subscription. The library routes its upcalls to a callback for
each kind, which it keeps in a static variable; the userdata is the one of the subscription.
-/

namespace Adc

open Tock

abbrev U8 := BitVec 8

abbrev U16 := BitVec 16

/-- `ADCMode_t` -/
inductive AdcMode
  | singleSample
  | continuousSample
  | singleBuffer
  | continuousBuffer
  deriving DecidableEq

def AdcMode.toU32 : AdcMode → U32
  | singleSample => 0
  | continuousSample => 1
  | singleBuffer => 2
  | continuousBuffer => 3

/-- The case of `switch (callback_type)`; `none` is its default. -/
def AdcMode.ofU32 (callbackType : U32) : Option AdcMode :=
  if callbackType = 0 then some singleSample
  else if callbackType = 1 then some continuousSample
  else if callbackType = 2 then some singleBuffer
  else if callbackType = 3 then some continuousBuffer
  else none

@[simp] lemma AdcMode.ofU32_toU32 (mode : AdcMode) : ofU32 mode.toU32 = some mode := by
  cases mode <;> rfl

inductive Upcall
  | adcUpcall
  | adcRoutingUpcall
  /-- A function of the application. -/
  | app (f : Ptr)
  deriving DecidableEq

/-- A call of one of the application's callbacks. -/
inductive UserCall
  | sample (callback : Ptr) (channel : U8) (sample : U16) (args : Ptr)
  | buffer (callback : Ptr) (channel : U8) (length buffer : U32) (args : Ptr)
  deriving DecidableEq

structure State where
  /-- `single_sample_callback`, `continuous_sample_callback`, `buffered_sample_callback` and
  `continuous_buffered_sample_callback`. -/
  callback : AdcMode → Option Ptr

def initial : State := ⟨fun _ => none⟩

/-- `adc_data_t` -/
structure AdcData where
  fired : Bool
  channel : U8
  sample : U16
  length : U32
  buffer : U32
  error : ℤ
  deriving DecidableEq

def adcUpcall (callbackType arg1 arg2 : U32) (result : AdcData) : AdcData :=
  let result := match AdcMode.ofU32 callbackType with
    | some .singleSample | some .continuousSample =>
      { result with
        error := returncodeSuccess
        channel := arg1.setWidth 8
        sample := arg2.setWidth 16 }
    | some .singleBuffer | some .continuousBuffer =>
      { result with
        error := returncodeSuccess
        channel := (arg1 &&& 0xFF).setWidth 8
        length := arg1.sshiftRight 8 &&& 0xFFFFFF
        buffer := arg2 }
    | none => { result with error := returncodeFail }
  { result with fired := true }

def adcRoutingUpcall (callbackType arg1 arg2 : U32) (callbackArgs : Ptr) (s : State) :
    Option UserCall :=
  match AdcMode.ofU32 callbackType with
  | some .singleSample => (s.callback .singleSample).map fun cb =>
    .sample cb (arg1.setWidth 8) (arg2.setWidth 16) callbackArgs
  | some .continuousSample => (s.callback .continuousSample).map fun cb =>
    .sample cb (arg1.setWidth 8) (arg2.setWidth 16) callbackArgs
  | some .singleBuffer => (s.callback .singleBuffer).map fun cb =>
    .buffer cb ((arg1 &&& 0xFF).setWidth 8) (arg1.sshiftRight 8 &&& 0xFFFFFF) arg2 callbackArgs
  | some .continuousBuffer => (s.callback .continuousBuffer).map fun cb =>
    .buffer cb ((arg1 &&& 0xFF).setWidth 8) (arg1.sshiftRight 8 &&& 0xFFFFFF) arg2 callbackArgs
  | none => none

/-! ### Registration -/

def driverNumAdc : U32 := 0x5

/-- System calls to the ADC driver; `δ` is the type of the userdata. -/
abbrev Calls (δ : Type) := Sys (Subscription Upcall δ) Region

variable {δ : Type}

def adcSetCallback (callback : Option Upcall) (callbackArgs : δ) : Calls δ ℤ := do
  let subval ← Sys.subscribe driverNumAdc 0 (callback.map fun cb => ⟨cb, callbackArgs⟩)
  return subval.toReturncode

/-- The body that the four functions below share. -/
def setModeCallback (mode : AdcMode) (callback : Option Ptr) (callbackArgs : δ) (s : State) :
    Calls δ (ℤ × State) := do
  let s := { s with callback := Function.update s.callback mode callback }
  let ret ← adcSetCallback (some .adcRoutingUpcall) callbackArgs
  return (ret, s)

def adcSetSingleSampleCallback (callback : Option Ptr) (callbackArgs : δ) :=
  setModeCallback .singleSample callback callbackArgs

def adcSetContinuousSampleCallback (callback : Option Ptr) (callbackArgs : δ) :=
  setModeCallback .continuousSample callback callbackArgs

def adcSetBufferedSampleCallback (callback : Option Ptr) (callbackArgs : δ) :=
  setModeCallback .singleBuffer callback callbackArgs

def adcSetContinuousBufferedSampleCallback (callback : Option Ptr) (callbackArgs : δ) :=
  setModeCallback .continuousBuffer callback callbackArgs

end Adc
