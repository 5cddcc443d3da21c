import Libtock.Core.Bytes

/-!
# Received frames: the getters of `ieee802154.c`

A frame is the memory its pointer leads to; plain `char` is unsigned. A pointer that may be `NULL`
is an `Option`: an out-parameter is what it points to before and after the call.
-/

namespace Ieee802154

open Core.Bytes

abbrev U8 := BitVec 8

abbrev U16 := BitVec 16

abbrev Frame := ℕ → U8

/-- `addr_mode_t`, and the value 1 that a frame may hold but the type does not name. -/
inductive AddrMode
  | none
  | reserved
  | short
  | long
  deriving DecidableEq

/-- The cast of two bits to `addr_mode_t`. -/
def AddrMode.ofBits (b : U16) : AddrMode :=
  if b = 0 then .none else if b = 1 then .reserved else if b = 2 then .short else .long

def frameGetPayloadOffset : Option Frame → ℤ
  | none => 0
  | some frame => (frame 0).toNat

def frameGetPayloadLength : Option Frame → ℤ
  | none => 0
  | some frame => (frame 1).toNat

/-- The out-parameters of `ieee802154_get_addressing`. -/
structure Addressing where
  dstPanPresent : Bool
  dstMode : AddrMode
  srcPanPresent : Bool
  srcPanDropped : Bool
  srcMode : AddrMode
  deriving DecidableEq

def version2015 : U16 := 2

/-- `ieee802154_get_addressing`, with its out-parameters as the addresses they are; `none` when it
returns `false`. Where its last test fails it returns `0xff`, which is `true` as a `bool`. -/
def getAddressing (frameControl : U16)
    (dstPanPresent dstMode srcPanPresent srcPanDropped srcMode : Option ℕ) : Option Addressing :=
  if dstPanPresent = none ∨ dstMode = none ∨ srcPanPresent = none ∨ srcPanDropped = none ∨
      srcMode = none then
    none
  else
    let version := frameControl >>> 12 &&& 3
    let dstModeBits := AddrMode.ofBits (frameControl >>> 10 &&& 3)
    let srcModeBits := AddrMode.ofBits (frameControl >>> 14 &&& 3)
    let panIdCompression : Bool := frameControl >>> 6 &&& 1 ≠ 0
    -- `dst_mode != ADDR_NONE` compares the pointer, not the mode
    let dstPresent : Bool := dstMode ≠ none
    let srcPresent : Bool := srcMode ≠ none
    if version = version2015 then
      if dstPresent then
        if srcPresent then
          some ⟨true, dstModeBits, !panIdCompression, panIdCompression, srcModeBits⟩
        else
          some ⟨!panIdCompression, dstModeBits, false, false, srcModeBits⟩
      else
        if srcPresent then
          some ⟨false, dstModeBits, !panIdCompression, false, srcModeBits⟩
        else
          some ⟨panIdCompression, dstModeBits, false, false, srcModeBits⟩
    else if version = 0 ∨ version = 1 then
      -- `!src_pan_dropped` tests the pointer as well
      some ⟨dstPresent, dstModeBits, srcPresent && decide (srcPanDropped = none), panIdCompression,
        srcModeBits⟩
    else
      none

def seqSuppressed : U16 := 0x0100

def frameControl (frame : Frame) : U16 := join (frame 2) (frame 3)

/-- The call of `ieee802154_get_addressing` with the addresses of five local variables. -/
def addressing (frameControl : U16) : Option Addressing :=
  getAddressing frameControl (some 0) (some 1) (some 2) (some 3) (some 4)

/-- Where the addressing fields start; the sequence number can be omitted. -/
def fieldOffset (frameControl : U16) : ℕ := if frameControl &&& seqSuppressed ≠ 0 then 4 else 5

/-- `*p` after the call, where `p` is null or led to `old`, and the call writes `new` if `b`. -/
def write {α : Type*} (p : Option α) (b : Bool) (new : α) : Option α :=
  p.map fun old => if b then new else old

def readShort (frame : Frame) (offset : ℕ) : U16 := join (frame offset) (frame (offset + 1))

/-- The bytes of a long address stand in the frame in the opposite order. -/
def readLong (frame : Frame) (offset : ℕ) : Fin 8 → U8 := fun i => frame (offset + 7 - i)

def addrLength : AddrMode → ℕ
  | .short => 2
  | .long => 8
  | _ => 0

def frameGetDstAddr (frame : Option Frame) (shortAddr : Option U16)
    (longAddr : Option (Fin 8 → U8)) : AddrMode × Option U16 × Option (Fin 8 → U8) :=
  match frame with
  | none => (.none, shortAddr, longAddr)
  | some frame =>
    match addressing (frameControl frame) with
    | none => (.none, shortAddr, longAddr)
    | some a =>
      let addrOffset := fieldOffset (frameControl frame)
      let addrOffset := if a.dstPanPresent then addrOffset + 2 else addrOffset
      (a.dstMode, write shortAddr (a.dstMode = .short) (readShort frame addrOffset),
        write longAddr (a.dstMode = .long) (readLong frame addrOffset))

def frameGetSrcAddr (frame : Option Frame) (shortAddr : Option U16)
    (longAddr : Option (Fin 8 → U8)) : AddrMode × Option U16 × Option (Fin 8 → U8) :=
  match frame with
  | none => (.none, shortAddr, longAddr)
  | some frame =>
    match addressing (frameControl frame) with
    | none => (.none, shortAddr, longAddr)
    | some a =>
      let addrOffset := fieldOffset (frameControl frame)
      let addrOffset := if a.dstPanPresent then addrOffset + 2 else addrOffset
      let addrOffset := addrOffset + addrLength a.dstMode
      let addrOffset := if a.srcPanPresent then addrOffset + 2 else addrOffset
      (a.srcMode, write shortAddr (a.srcMode = .short) (readShort frame addrOffset),
        write longAddr (a.srcMode = .long) (readLong frame addrOffset))

def frameGetDstPan (frame : Option Frame) (pan : Option U16) : Bool × Option U16 :=
  match frame with
  | none => (false, pan)
  | some frame =>
    match addressing (frameControl frame) with
    | none => (false, pan)
    | some a =>
      let addrOffset := fieldOffset (frameControl frame)
      (a.dstPanPresent, write pan a.dstPanPresent (readShort frame addrOffset))

def frameGetSrcPan (frame : Option Frame) (pan : Option U16) : Bool × Option U16 :=
  match frame with
  | none => (false, pan)
  | some frame =>
    match addressing (frameControl frame) with
    | none => (false, pan)
    | some a =>
      let addrOffset := fieldOffset (frameControl frame)
      if a.srcPanDropped then
        -- the destination pan is taken to be present
        (a.srcPanPresent || a.srcPanDropped, write pan true (readShort frame addrOffset))
      else
        let addrOffset := if a.dstPanPresent then addrOffset + 2 else addrOffset
        let addrOffset := addrOffset + addrLength a.dstMode
        (a.srcPanPresent || a.srcPanDropped,
          write pan a.srcPanPresent (readShort frame addrOffset))

end Ieee802154
