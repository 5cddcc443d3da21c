import Libtock.Tock.Kernel

/-!
# The asynchronous GPIO driver: `gpio_async.c`

Each synchronous function subscribes `gpio_async_upcall` with the address of the one static variable
`result`, issues a command and waits for `result.fired`.
-/

namespace GpioAsync

open Tock

abbrev U8 := BitVec 8

def driverNumGpioAsync : U32 := 0x80003

/-- `GPIO_InputMode_t` -/
inductive GPIOInputMode
  | pullNone
  | pullUp
  | pullDown
  deriving DecidableEq

def GPIOInputMode.toU32 : GPIOInputMode → U32
  | pullNone => 0
  | pullUp => 1
  | pullDown => 2

/-- `GPIO_InterruptMode_t` -/
inductive GPIOInterruptMode
  | change
  | risingEdge
  | fallingEdge
  deriving DecidableEq

def GPIOInterruptMode.toU32 : GPIOInterruptMode → U32
  | change => 0
  | risingEdge => 1
  | fallingEdge => 2

/-- `CONCAT_PORT_DATA` -/
def concatPortData (port data : U32) : U32 := ((data &&& 0xFFFF) <<< 16) ||| (port &&& 0xFFFF)

/-- `gpio_async_data` -/
structure GpioAsyncData where
  fired : Bool
  value : ℤ
  callbackType : ℤ
  deriving DecidableEq

/-- `result` at program start. -/
def initial : GpioAsyncData := ⟨false, 0, 0⟩

/-- `gpio_async_upcall`, without the argument that it does not use. -/
def gpioAsyncUpcall (callbackType value : U32) (_ : GpioAsyncData) : GpioAsyncData where
  callbackType := callbackType.toInt
  value := value.toInt
  fired := true

inductive Upcall
  | gpioAsyncUpcall
  | app (p : Ptr)
  deriving DecidableEq

inductive Userdata
  /-- `&result` -/
  | result
  | app (p : Ptr)
  deriving DecidableEq

/-- System calls to the driver, which takes no buffers. -/
abbrev Calls := Sys (Subscription Upcall Userdata) Empty

def gpioAsyncSetCallback (callback : Option Upcall) (callbackArgs : Userdata) : Calls ℤ := do
  let sub ← Sys.subscribe driverNumGpioAsync 0 (callback.map (⟨·, callbackArgs⟩))
  return sub.toReturncode

/-! ### Asynchronous functions -/

/-- The body that the functions below share. -/
def gpioAsyncCommand (commandNum : U32) (pin : U8) (data : U32) : Calls ℤ := do
  let com ← Sys.command driverNumGpioAsync commandNum (pin.setWidth 32) data
  return com.toReturncode

def gpioAsyncMakeOutput (port : U32) (pin : U8) : Calls ℤ := gpioAsyncCommand 1 pin port

def gpioAsyncSet (port : U32) (pin : U8) : Calls ℤ := gpioAsyncCommand 2 pin port

def gpioAsyncClear (port : U32) (pin : U8) : Calls ℤ := gpioAsyncCommand 3 pin port

def gpioAsyncToggle (port : U32) (pin : U8) : Calls ℤ := gpioAsyncCommand 4 pin port

def gpioAsyncMakeInput (port : U32) (pin : U8) (pinConfig : GPIOInputMode) : Calls ℤ :=
  gpioAsyncCommand 5 pin (concatPortData port pinConfig.toU32)

def gpioAsyncRead (port : U32) (pin : U8) : Calls ℤ := gpioAsyncCommand 6 pin port

def gpioAsyncEnableInterrupt (port : U32) (pin : U8) (irqConfig : GPIOInterruptMode) : Calls ℤ :=
  gpioAsyncCommand 7 pin (concatPortData port irqConfig.toU32)

def gpioAsyncDisableInterrupt (port : U32) (pin : U8) : Calls ℤ := gpioAsyncCommand 8 pin port

def gpioAsyncDisable (port : U32) (pin : U8) : Calls ℤ := gpioAsyncCommand 9 pin port

/-! ### Synchronous functions -/

/-- How far a synchronous function gets: it returns, or it enters `yield_for(&result.fired)` and
then returns `result.value`. -/
inductive Progress
  | returned (ret : ℤ)
  | waits
  deriving DecidableEq

/-- The body that the functions below share. -/
def gpioAsyncSync (start : Calls ℤ) (result : GpioAsyncData) :
    Calls (Progress × GpioAsyncData) := do
  let result := { result with fired := false }
  let err ← gpioAsyncSetCallback (some .gpioAsyncUpcall) .result
  if err < 0 then return (.returned err, result)
  let err ← start
  if err < 0 then return (.returned err, result)
  return (.waits, result)

def gpioAsyncMakeOutputSync (port : U32) (pin : U8) :
    GpioAsyncData → Calls (Progress × GpioAsyncData) :=
  gpioAsyncSync (gpioAsyncMakeOutput port pin)

def gpioAsyncSetSync (port : U32) (pin : U8) : GpioAsyncData → Calls (Progress × GpioAsyncData) :=
  gpioAsyncSync (gpioAsyncSet port pin)

def gpioAsyncClearSync (port : U32) (pin : U8) :
    GpioAsyncData → Calls (Progress × GpioAsyncData) :=
  gpioAsyncSync (gpioAsyncClear port pin)

def gpioAsyncToggleSync (port : U32) (pin : U8) :
    GpioAsyncData → Calls (Progress × GpioAsyncData) :=
  gpioAsyncSync (gpioAsyncToggle port pin)

def gpioAsyncMakeInputSync (port : U32) (pin : U8) (pinConfig : GPIOInputMode) :
    GpioAsyncData → Calls (Progress × GpioAsyncData) :=
  gpioAsyncSync (gpioAsyncMakeInput port pin pinConfig)

def gpioAsyncReadSync (port : U32) (pin : U8) : GpioAsyncData → Calls (Progress × GpioAsyncData) :=
  gpioAsyncSync (gpioAsyncRead port pin)

def gpioAsyncEnableInterruptSync (port : U32) (pin : U8) (irqConfig : GPIOInterruptMode) :
    GpioAsyncData → Calls (Progress × GpioAsyncData) :=
  gpioAsyncSync (gpioAsyncEnableInterrupt port pin irqConfig)

def gpioAsyncDisableInterruptSync (port : U32) (pin : U8) :
    GpioAsyncData → Calls (Progress × GpioAsyncData) :=
  gpioAsyncSync (gpioAsyncDisableInterrupt port pin)

def gpioAsyncDisableSync (port : U32) (pin : U8) :
    GpioAsyncData → Calls (Progress × GpioAsyncData) :=
  gpioAsyncSync (gpioAsyncDisable port pin)

/-- What a synchronous function has done when it waits or returns, with the system calls it made. -/
lemma gpioAsyncSync_run (commandNum : U32) (pin : U8) (data : U32) (result : GpioAsyncData)
    (k : Kernel) :
    (gpioAsyncSync (gpioAsyncCommand commandNum pin data) result).run k =
      let sub := k.subscribe driverNumGpioAsync 0
      let com := k.command driverNumGpioAsync commandNum (pin.setWidth 32) data
      let subscribed :=
        Issued.subscribe driverNumGpioAsync 0 (some ⟨.gpioAsyncUpcall, .result⟩) sub
      if sub = .accepted then
        ((if com = .success then .waits else .returned com.toReturncode,
            { result with fired := false }),
          [subscribed, .command driverNumGpioAsync commandNum (pin.setWidth 32) data com])
      else ((.returned sub.toReturncode, { result with fired := false }), [subscribed]) := by
  by_cases hs : k.subscribe driverNumGpioAsync 0#32 = .accepted
  · by_cases hc : k.command driverNumGpioAsync commandNum (pin.setWidth 32) data = .success <;>
      simp [gpioAsyncSync, gpioAsyncSetCallback, gpioAsyncCommand, returncodeSuccess, hs, hc]
  · simp [gpioAsyncSync, gpioAsyncSetCallback, hs]

end GpioAsync
