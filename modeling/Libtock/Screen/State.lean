import Libtock.Tock.Kernel

/-!
# The blocking functions of `text_screen.c` and `screen.c`

All of them subscribe a callback that fills in a record on the stack, issue a command and wait for
the record to be filled in. `text_screen_blink_off` does not look at what the command returned.
-/

namespace Screen

open Tock

/-- `TextScreenReturn` and `ScreenReturn`; `done` holds once the record is filled in. -/
structure ScreenReturn where
  error : ℤ
  data1 : U32
  data2 : U32

/-- `text_screen_callback` and `screen_callback` -/
def ScreenReturn.callback (_ : ScreenReturn) (args : UpcallArgs) : ScreenReturn where
  error := statusToReturncode args.arg0
  data1 := args.arg1
  data2 := args.arg2

/-- The end of a function that stores `outputs` through its out-pointers. -/
def finish (outputs : ScreenReturn → List U32) (upcalls : List UpcallArgs) : ℤ × List U32 :=
  let ret := upcalls.foldl ScreenReturn.callback ⟨0, 0, 0⟩
  (ret.error, outputs ret)

/-- System calls of the two files; `δ` is the type of the userdata. -/
abbrev Calls (δ : Type) := Sys δ Region

variable {δ : Type}

/-! ### `text_screen.c` -/

def driverNumTextScreen : U32 := 0x90003

/-- The body that the functions below share. -/
def textScreenBlocking (commandNum data1 data2 : U32)
    (outputs : ScreenReturn → List U32) (ret : δ) : Calls δ Outcome :=
  Sys.blocking driverNumTextScreen 0 commandNum data1 data2 ret (finish outputs)

def noOutputs (_ : ScreenReturn) : List U32 := []

def textScreenDisplayOn : δ → Calls δ Outcome := textScreenBlocking 2 0 0 noOutputs

def textScreenDisplayOff : δ → Calls δ Outcome := textScreenBlocking 3 0 0 noOutputs

def textScreenBlinkOn : δ → Calls δ Outcome := textScreenBlocking 4 0 0 noOutputs

def textScreenBlinkOff (ret : δ) : Calls δ Outcome := do
  let sval ← Sys.subscribe driverNumTextScreen 0 (some ret)
  let err := sval.toReturncode
  if err < 0 then return .returned err
  let _ ← Sys.command driverNumTextScreen 5 0 0
  return .waits (finish noOutputs)

def textScreenShowCursor : δ → Calls δ Outcome := textScreenBlocking 6 0 0 noOutputs

def textScreenHideCursor : δ → Calls δ Outcome := textScreenBlocking 7 0 0 noOutputs

def textScreenClear : δ → Calls δ Outcome := textScreenBlocking 9 0 0 noOutputs

def textScreenHome : δ → Calls δ Outcome := textScreenBlocking 10 0 0 noOutputs

def textScreenSetCursor (col row : BitVec 8) : δ → Calls δ Outcome :=
  textScreenBlocking 11 (col.setWidth 32) (row.setWidth 32) noOutputs

def textScreenWrite (len : U32) : δ → Calls δ Outcome := textScreenBlocking 8 len 0 noOutputs

def textScreenGetSize : δ → Calls δ Outcome :=
  textScreenBlocking 1 0 0 fun ret => [ret.data1, ret.data2]

/-! ### `screen.c` -/

def driverNumScreen : U32 := 0x90001

/-- The static variables `buffer` and `buffer_len`. -/
structure State where
  buffer : Option (List (BitVec 8))
  bufferLen : U32

/-- The body that the functions below share. -/
def screenBlocking (commandNum data1 data2 : U32) (outputs : ScreenReturn → List U32)
    (fbr : δ) : Calls δ Outcome :=
  Sys.blocking driverNumScreen 0 commandNum data1 data2 fbr (finish outputs)

def screenGetSupportedResolutions : δ → Calls δ Outcome :=
  screenBlocking 11 0 0 fun fbr => [fbr.data1]

def screenGetSupportedResolution (index : U32) : δ → Calls δ Outcome :=
  screenBlocking 12 index 0 fun fbr => [fbr.data1, fbr.data2]

def screenGetSupportedPixelFormats : δ → Calls δ Outcome :=
  screenBlocking 13 0 0 fun fbr => [fbr.data1]

def screenGetSupportedPixelFormat (index : U32) : δ → Calls δ Outcome :=
  screenBlocking 14 index 0 fun fbr => [fbr.data1]

def screenSetBrightness (brightness : U32) : δ → Calls δ Outcome :=
  screenBlocking 3 brightness 0 noOutputs

def screenInvertOn : δ → Calls δ Outcome := screenBlocking 4 0 0 noOutputs

def screenInvertOff : δ → Calls δ Outcome := screenBlocking 5 0 0 noOutputs

def screenGetResolution : δ → Calls δ Outcome :=
  screenBlocking 23 0 0 fun fbr => [fbr.data1, fbr.data2]

def screenSetResolution (width height : U32) : δ → Calls δ Outcome :=
  screenBlocking 24 width height noOutputs

def screenGetPixelFormat : δ → Calls δ Outcome := screenBlocking 25 0 0 fun fbr => [fbr.data1]

def screenSetPixelFormat (format : U32) : δ → Calls δ Outcome :=
  screenBlocking 26 format 0 noOutputs

def screenGetRotation : δ → Calls δ Outcome := screenBlocking 21 0 0 fun fbr => [fbr.data1]

def screenSetRotation (rotation : U32) : δ → Calls δ Outcome :=
  screenBlocking 22 rotation 0 noOutputs

/-- There is no result where a write misses the buffer. -/
def screenSetColor (position color : U32) (s : State) : Option (ℤ × State) :=
  if position < s.bufferLen - 2 then do
    let buffer ← s.buffer
    let i := (position * 2).toNat
    let j := (position * 2 + 1).toNat
    if i < buffer.length ∧ j < buffer.length then
      let buffer := buffer.set i ((color >>> 8 &&& 0xFF).setWidth 8)
      let buffer := buffer.set j ((color &&& 0xFF).setWidth 8)
      some (returncodeSuccess, { s with buffer := some buffer })
    else none
  else some (returncodeESize, s)

def screenSetFrame (x y width height : BitVec 16) : δ → Calls δ Outcome :=
  screenBlocking 100 (x.setWidth 32 <<< 16 ||| y.setWidth 32)
    (width.setWidth 32 <<< 16 ||| height.setWidth 32) noOutputs

/-- The program it runs and the buffer it has written to. -/
def screenFill (color : U32) (fbr : δ) (s : State) : Option (Calls δ Outcome × State) :=
  (screenSetColor 0 color s).map fun (ret, s) =>
    (if ret < 0 then pure (.returned ret) else screenBlocking 300 0 0 noOutputs fbr, s)

def screenWrite (length : U32) : δ → Calls δ Outcome := screenBlocking 200 length 0 noOutputs

end Screen
