import Libtock.Tock.Kernel
import Libtock.Tock.Sbrk

/-!
# Saving the state of an application

`app_state.c` keeps a copy of a structure in RAM, which the application works on, and asks the
kernel to write it to flash. Where in flash it goes the kernel has to be asked as well, once.
-/

namespace AppState

open Core Tock

/-- What `APP_STATE_DECLARE` fixes. -/
structure Declared where
  /-- `_app_state_ram_pointer` -/
  ramPointer : U32
  /-- `_app_state_size` -/
  size : U32

/-- What is subscribed to completed saves. -/
inductive Callback
  /-- `app_state_sync_upcall`, with the address of `save_sync_flag`. -/
  | appStateSyncUpcall
  | app (callback args : Ptr)

/-- The static variables. -/
structure State where
  flashPointer : U32
  inited : Bool
  saveSyncFlag : Bool

def State.initial : State := ⟨0, false, false⟩

def driverNumAppFlash : U32 := 0x50000

/-- A library function, with the answers of the kernel to `memop`. -/
abbrev Sys (α : Type) := Tock.Sys Callback Declared α

variable (answer : U32 → U32 → SyscallReturn) (d : Declared)

def tockAppNumberWriteableFlashRegions : ℤ := (memop answer 7 0).toInt

def tockAppWriteableFlashRegionBeginsAt (regionIndex : U32) : U32 := memop answer 8 regionIndex

def appStateInit (s : State) : Sys (ℤ × State) := do
  match ← Sys.allowReadonly driverNumAppFlash 0 d with
  | .refused e => return (tockStatusToReturncode e.status, s)
  | .accepted =>
    if tockAppNumberWriteableFlashRegions answer = 0 then return (returncodeENomem, s)
    return (0, { s with
      flashPointer := tockAppWriteableFlashRegionBeginsAt answer 0, inited := true })

/-- The check that `app_state_load_sync` and `app_state_save` start with. -/
def ensureInit (s : State) : Sys (ℤ × State) :=
  if s.inited then return (0, s) else appStateInit answer d s

def appStateLoadSync (s : State) (m : Memory 32) : Sys (ℤ × State × Memory 32) := do
  let (err, s) ← ensureInit answer d s
  if err < 0 then return (err, s, m)
  return (0, s, m.copy d.ramPointer s.flashPointer d.size.toNat)

def appStateSave (callback : Callback) (s : State) : Sys (ℤ × State) := do
  let (err, s) ← ensureInit answer d s
  if err < 0 then return (err, s)
  match ← Sys.subscribe driverNumAppFlash 0 (some callback) with
  | .refused e => return (tockStatusToReturncode e.status, s)
  | .accepted =>
    let cret ← Sys.command driverNumAppFlash 1 s.flashPointer 0
    return (cret.toReturncode, s)

/-- Up to `yield_for`: `none` where it waits. -/
def appStateSaveSync (s : State) : Sys (Option ℤ × State) := do
  let (err, s) ← appStateSave answer d .appStateSyncUpcall { s with saveSyncFlag := false }
  if err < 0 then return (some err, s)
  return (none, s)

/-! ### When they are ready -/

/-- The region of flash that the state is written to. -/
def flashStart : U32 := tockAppWriteableFlashRegionBeginsAt answer 0

/-- From the first success on, the flash pointer is right and the kernel shares the copy in RAM. -/
structure Ready (s : State) (slots : Slots Callback Declared) : Prop where
  flashPointer_eq : s.inited = true → s.flashPointer = flashStart answer
  shared : s.inited = true → slots.readonly (driverNumAppFlash, 0) = some d

variable {answer d}

/-- A subscription does not change what the kernel shares. -/
lemma Ready.subscribe {s : State} {slots : Slots Callback Declared} (h : Ready answer d s slots)
    (content : Option Callback) (a : Answer) :
    Ready answer d s (slots.issue (.subscribe driverNumAppFlash 0 content a)) :=
  ⟨h.flashPointer_eq, h.shared⟩

end AppState
