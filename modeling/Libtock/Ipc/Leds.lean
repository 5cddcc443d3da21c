import Libtock.Core.History
import Libtock.Core.Run
import Mathlib.Data.List.GetD
import Mathlib.Logic.Function.Basic

/-!
# A client of two services

`logic` asks `rng` for two random bytes and has `led` switch a lamp that they select, again and
again. With each service it shares a buffer of 64 bytes. One flag, `_done`, tells it that a service
has answered, whichever it is; the processes preempt each other between any two bytes.

The kernel accepts `ipc_register_client_callback` and `ipc_share`, and `rng_sync` succeeds; a
notification may get lost, and `malloc` may fail. A `char` is unsigned.
-/

namespace Ipc.Leds

open Core

abbrev Byte := BitVec 8

inductive Service
  | led
  | rng
  deriving DecidableEq

/-- The bytes that are shared. -/
def sharedLen : ℤ := 64

/-! ### The client -/

/-- The functions of the client that use a service. -/
inductive Function
  | getNumberOfLeds
  | getTwoRandomBytes
  | setLed (ledIndex ledState : Byte)
  deriving DecidableEq

/-- A statement before `ipc_notify_service`. -/
inductive Prep
  /-- `_done = false` -/
  | clear
  | write (i : ℕ) (b : Byte)
  deriving DecidableEq

namespace Function

def service : Function → Service
  | getNumberOfLeds | setLed _ _ => .led
  | getTwoRandomBytes => .rng

def prep : Function → List Prep
  | getNumberOfLeds => [.clear, .write 0 0]
  | getTwoRandomBytes => [.clear, .write 0 2]
  | setLed ledIndex ledState => [.write 0 1, .write 1 ledIndex, .write 2 ledState, .clear]

/-- The bytes of the buffer that are read after `yield_for`. -/
def reads : Function → List ℕ
  | getNumberOfLeds => [0]
  | getTwoRandomBytes => [0, 1]
  | setLed _ _ => []

end Function

inductive Pc
  /-- In a function, before its `ipc_notify_service`. -/
  | preparing (f : Function) (rest : List Prep)
  /-- In its `yield_for`. -/
  | waiting (f : Function)
  | reading (f : Function) (rest : List ℕ) (values : List Byte)
  /-- In the `printf` of `main`. -/
  | printing
  /-- In `delay_ms`. -/
  | delaying
  /-- A division by zero. -/
  | stopped

/-- The callbacks of the client run. -/
def Pc.yields : Pc → Bool
  | waiting _ | printing | delaying => true
  | _ => false

/-- `get_two_random_bytes` -/
def twoRandomBytes (b₀ b₁ : Byte) : BitVec 16 := (b₀.setWidth 16 <<< 8) ||| b₁.setWidth 16

def ledIndex (numberOfLeds : Byte) (random : BitVec 16) : Byte :=
  BitVec.ofNat 8 ((random &&& 0xFF).toNat % numberOfLeds.toNat)

def ledState (random : BitVec 16) : Byte := if random >>> 8 > 0x7F then 1 else 0

structure Client where
  pc : Pc
  done : Bool
  numberOfLeds : Byte

/-! ### The services -/

/-- Where the callback of the LED service is. -/
inductive LedPc
  | command
  | count
  | index
  | state (ledId : Byte)
  | drive (ledId : Byte) (on : Bool)
  | notify

/-- Where a callback of the RNG service is. -/
inductive RngPc
  | number
  | malloc (numberOfBytes : ℕ)
  /-- In `rng_sync`, which yields. -/
  | sync (numberOfBytes : ℕ)
  /-- In `memcpy`. -/
  | copying (rng : List Byte) (i : ℕ)
  | notify

/-! ### Runs -/

structure World where
  client : Client
  /-- The buffer that the client shares with a service. -/
  buf : Service → ℕ → Byte
  /-- The notifications that wait for a service. -/
  due : Service → ℕ
  /-- The notifications that wait for the client. -/
  replies : ℕ
  led : Option LedPc
  /-- The callbacks of the RNG service, innermost first. -/
  rng : List RngPc

inductive Action
  | client (accepted : Bool)
  /-- The callback of the client is called. -/
  | called
  /-- The callback of a service is called. -/
  | serve (s : Service)
  | led (accepted : Bool)
  | rng (ok : Bool)
  /-- `rng_sync` returns. -/
  | random (bytes : List Byte)

inductive Event
  /-- The client or the service reads or writes a byte of their buffer. -/
  | touched (byService : Bool) (s : Service) (i : ℕ)
  | asked (s : Service)
  | answered (s : Service)
  /-- A notification was refused, or `malloc` failed. -/
  | lost
  | counted (numberOfLeds : Byte)
  | drew (bytes : List Byte)
  /-- `led_on` or `led_off` -/
  | lit (ledId : Byte) (on : Bool)
  | divided
  deriving DecidableEq

namespace World

def write (w : World) (s : Service) (i : ℕ) (b : Byte) : World :=
  { w with buf := Function.update w.buf s (Function.update (w.buf s) i b) }

def goto (w : World) (pc : Pc) : World := { w with client.pc := pc }

/-- A function of the client returns to `main`. -/
def returns (w : World) (f : Function) (values : List Byte) : World × List Event :=
  match f with
  | .getNumberOfLeds =>
    let numberOfLeds := values.getD 0 0
    ({ w with client := { w.client with pc := .printing, numberOfLeds } }, [.counted numberOfLeds])
  | .getTwoRandomBytes =>
    let random := twoRandomBytes (values.getD 0 0) (values.getD 1 0)
    if w.client.numberOfLeds = 0 then (w.goto .stopped, [.divided])
    else
      let f := .setLed (ledIndex w.client.numberOfLeds random) (ledState random)
      (w.goto (.preparing f f.prep), [])
  | .setLed _ _ => (w.goto .delaying, [])

def clientStep (w : World) (accepted : Bool) : Option (World × List Event) :=
  match w.client.pc with
  | .preparing f (.clear :: rest) =>
    some ({ w.goto (.preparing f rest) with client.done := false }, [])
  | .preparing f (.write i b :: rest) =>
    some ((w.goto (.preparing f rest)).write f.service i b, [.touched false f.service i])
  | .preparing f [] =>
    let w' := w.goto (.waiting f)
    if accepted then
      some ({ w' with due := Function.update w.due f.service (w.due f.service + 1) },
        [.asked f.service])
    else some (w', [.lost])
  | .waiting f => if w.client.done then some (w.goto (.reading f f.reads []), []) else none
  | .reading f (i :: rest) values =>
    some (w.goto (.reading f rest (values ++ [w.buf f.service i])), [.touched false f.service i])
  | .reading f [] values => some (w.returns f values)
  | .printing | .delaying =>
    some (w.goto (.preparing .getTwoRandomBytes Function.getTwoRandomBytes.prep), [])
  | .stopped => none

/-- The callback of a service notifies the client and returns. -/
def answer (w : World) (s : Service) (accepted : Bool) : World × List Event :=
  if accepted then ({ w with replies := w.replies + 1 }, [.answered s]) else (w, [.lost])

def ledStep (numberOfLeds : Byte) (w : World) (accepted : Bool) : Option (World × List Event) :=
  match w.led with
  | none => none
  | some .command =>
    if sharedLen < 1 then some ({ w with led := none }, [])
    else
      let command := w.buf .led 0
      let led :=
        if command = 0 then some .count
        else if command = 1 then if sharedLen < 3 then none else some .index
        else none
      some ({ w with led }, [.touched true .led 0])
  | some .count =>
    some ({ w.write .led 0 numberOfLeds with led := some .notify }, [.touched true .led 0])
  | some .index => some ({ w with led := some (.state (w.buf .led 1)) }, [.touched true .led 1])
  | some (.state ledId) =>
    some ({ w with led := some (.drive ledId (0 < w.buf .led 2)) }, [.touched true .led 2])
  | some (.drive ledId on) => some ({ w with led := some .notify }, [.lit ledId on])
  | some .notify => some ({ w with led := none }.answer .led accepted)

def rngStep (w : World) (ok : Bool) : Option (World × List Event) :=
  match w.rng with
  | .number :: rng =>
    if sharedLen < 1 then some ({ w with rng }, [])
    else
      let numberOfBytes := (w.buf .rng 0).toNat
      let rng := if sharedLen < numberOfBytes then rng else .malloc numberOfBytes :: rng
      some ({ w with rng }, [.touched true .rng 0])
  | .malloc numberOfBytes :: rng =>
    if ok then some ({ w with rng := .sync numberOfBytes :: rng }, [])
    else some ({ w with rng }, [.lost])
  | .copying bytes i :: rng =>
    if h : i < bytes.length then
      some ({ w.write .rng i (bytes.get ⟨i, h⟩) with rng := .copying bytes (i + 1) :: rng },
        [.touched true .rng i])
    else some ({ w with rng := .notify :: rng }, [])
  | .notify :: rng => some ({ w with rng }.answer .rng ok)
  | .sync _ :: _ | [] => none

/-- The system, on a board with this number of lamps. -/
def exec (numberOfLeds : Byte) (w : World) : Action → Option (World × List Event)
  | .client accepted => w.clientStep accepted
  | .called =>
    match w.replies with
    | 0 => none
    | replies + 1 =>
      if w.client.pc.yields then some ({ w with client.done := true, replies }, []) else none
  | .serve s =>
    match w.due s with
    | 0 => none
    | due + 1 =>
      let w' := { w with due := Function.update w.due s due }
      match s, w.led, w.rng with
      | .led, none, _ => some ({ w' with led := some .command }, [])
      | .rng, _, [] => some ({ w' with rng := [.number] }, [])
      | .rng, _, .sync n :: rng => some ({ w' with rng := .number :: .sync n :: rng }, [])
      | _, _, _ => none
  | .led accepted => w.ledStep numberOfLeds accepted
  | .rng ok => w.rngStep ok
  | .random bytes =>
    match w.rng with
    | .sync numberOfBytes :: rng =>
      if bytes.length ≤ numberOfBytes then
        some ({ w with rng := .copying bytes 0 :: rng }, [.drew bytes])
      else none
    | _ => none

def Step (numberOfLeds : Byte) (w : World) (a : Action) (w' : World) (es : List Event) : Prop :=
  w.exec numberOfLeds a = some (w', es)

/-- The client has set up both services. -/
def boot : World :=
  ⟨⟨.preparing .getNumberOfLeds Function.getNumberOfLeds.prep, false, 0⟩, fun _ _ => 0, fun _ => 0,
    0, none, []⟩

end World

/-! ### What happened -/

/-- What `rng_sync` has returned. -/
def draws (tr : List Event) : List (List Byte) :=
  tr.filterMap fun
    | .drew bytes => some bytes
    | _ => none

/-- The lamps that were switched. -/
def lits (tr : List Event) : List (Byte × Bool) :=
  tr.filterMap fun
    | .lit ledId on => some (ledId, on)
    | _ => none

/-- The last event at the buffer is a request. -/
def serves (s : Service) (tr : List Event) : Bool :=
  tr.foldl (fun b e => if e = .asked s then true else if e = .answered s then false else b) false

/-- What the client finds in its buffer after each draw: a byte that was not drawn is what was there
before, the request in the first place and the byte before it in the second. -/
def pairs (ds : List (List Byte)) : List (Byte × Byte) :=
  ds.foldl (fun ps bytes =>
    ps ++ [(bytes.getD 0 2, bytes.getD 1 (ps.getLast?.elim 0 Prod.snd))]) []

/-- The lamp that two bytes select. -/
def wanted (numberOfLeds : Byte) (p : Byte × Byte) : Byte × Bool :=
  (BitVec.ofNat 8 (p.2.toNat % numberOfLeds.toNat), decide (0x7F < p.1.toNat))

/-- What an event owes to those before it: the bytes of a buffer are touched inside the 64 shared
ones, by the service while a request of its client is not answered, else by the client. -/
def Owes (numberOfLeds : Byte) (tr : List Event) : Event → Prop
  | .touched byService s i => (i : ℤ) < sharedLen ∧ byService = serves s tr
  | .counted n => n = numberOfLeds
  | .divided => numberOfLeds = 0
  | _ => True

end Ipc.Leds
