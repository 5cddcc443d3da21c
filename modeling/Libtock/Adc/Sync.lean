import Libtock.Adc.State

/-!
# Sampling with `adc.c`

The asynchronous operations and the two functions that wait for one. These subscribe a record on
their stack, which `adc_upcall` fills in.
-/

namespace Adc

open Tock

variable {δ : Type}

/-! ### System call interface -/

def adcSetBuffer (buffer : Ptr) (len : U32) : Calls δ ℤ := do
  let rw ← Sys.allowReadwrite driverNumAdc 0 ⟨some buffer, len * 2⟩
  return rw.toReturncode

def adcSetDoubleBuffer (buffer : Ptr) (len : U32) : Calls δ ℤ := do
  let rw ← Sys.allowReadwrite driverNumAdc 1 ⟨some buffer, len * 2⟩
  return rw.toReturncode

/-- The body that the functions below share. -/
def adcCommand (commandNum arg1 arg2 : U32) : Calls δ ℤ := do
  let res ← Sys.command driverNumAdc commandNum arg1 arg2
  return res.toReturncode

def adcSingleSample (channel : U8) : Calls δ ℤ := adcCommand 1 (channel.setWidth 32) 0

def adcContinuousSample (channel : U8) (frequency : U32) : Calls δ ℤ :=
  adcCommand 2 (channel.setWidth 32) frequency

def adcBufferedSample (channel : U8) (frequency : U32) : Calls δ ℤ :=
  adcCommand 3 (channel.setWidth 32) frequency

def adcContinuousBufferedSample (channel : U8) (frequency : U32) : Calls δ ℤ :=
  adcCommand 4 (channel.setWidth 32) frequency

def adcStopSampling : Calls δ ℤ := adcCommand 5 0 0

/-! ### Synchronous calls -/

/-- The local variable `result` after some upcalls. -/
def collect (upcalls : List UpcallArgs) : AdcData :=
  upcalls.foldl (fun result args => adcUpcall args.arg0 args.arg1 args.arg2 result)
    ⟨false, 0, 0, 0, 0, returncodeSuccess⟩

/-- `result` is the address of the local variable. -/
def adcSampleSync (channel : U8) (result : δ) : Calls δ Outcome := do
  let err ← adcSetCallback (some .adcUpcall) result
  if err < returncodeSuccess then return .returned err
  let err ← adcSingleSample channel
  if err < returncodeSuccess then return .returned err
  return .waits fun upcalls =>
    let result := collect upcalls
    (result.error, [result.sample.setWidth 32])

def adcSampleBufferSync (channel : U8) (frequency : U32) (buffer : Ptr) (length : U32)
    (result : δ) : Calls δ Outcome := do
  let err ← adcSetCallback (some .adcUpcall) result
  if err < returncodeSuccess then return .returned err
  let err ← adcSetBuffer buffer length
  if err < returncodeSuccess then return .returned err
  let err ← adcBufferedSample channel frequency
  if err < returncodeSuccess then return .returned err
  return .waits fun upcalls =>
    let result := collect upcalls
    (if result.buffer.toNat ≠ buffer then returncodeFail else result.error, [])

end Adc
