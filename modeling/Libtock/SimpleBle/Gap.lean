import Mathlib.Algebra.Order.Group.Int
import Libtock.Core.Memory

/-!
# Advertisement data: the code of `gap.c`

The builders append structures to a buffer. A write outside the buffer is a fault, and then there
is no result. A pointer to data is the memory it leads to; one that is tested for `NULL` is an
`Option`.
-/

namespace SimpleBle

open Core

abbrev U8 := BitVec 8

abbrev U16 := BitVec 16

/-- `GapAdvertisementData_t` -/
inductive GapAdvertisementData
  | flags
  | incompleteList16bitServiceIds
  | completeList16bitServiceIds
  | incompleteList32bitServiceIds
  | completeList32bitServiceIds
  | incompleteList128bitServiceIds
  | completeList128bitServiceIds
  | shortenedLocalName
  | completeLocalName
  | txPowerLevel
  | deviceId
  | slaveConnectionIntervalRange
  | list128bitSolicitationIds
  | serviceData
  | appearance
  | advertisingInterval
  | manufacturerSpecificData
  deriving DecidableEq

def GapAdvertisementData.toByte : GapAdvertisementData → U8
  | flags => 0x01
  | incompleteList16bitServiceIds => 0x02
  | completeList16bitServiceIds => 0x03
  | incompleteList32bitServiceIds => 0x04
  | completeList32bitServiceIds => 0x05
  | incompleteList128bitServiceIds => 0x06
  | completeList128bitServiceIds => 0x07
  | shortenedLocalName => 0x08
  | completeLocalName => 0x09
  | txPowerLevel => 0x0A
  | deviceId => 0x10
  | slaveConnectionIntervalRange => 0x12
  | list128bitSolicitationIds => 0x15
  | serviceData => 0x16
  | appearance => 0x19
  | advertisingInterval => 0x1A
  | manufacturerSpecificData => 0xFF

/-- `AdvData_t`; `buf` is the memory that the pointer of this name leads to. -/
structure AdvData where
  buf : ℕ → U8
  offset : ℤ
  capacity : ℤ

namespace AdvData

/-- `adv_data->buf[i] = x` -/
def write (i : ℤ) (x : U8) (s : AdvData) : Option AdvData :=
  if 0 ≤ i ∧ i < s.capacity then some { s with buf := Function.update s.buf i.toNat x } else none

/-- `memcpy(&adv_data->buf[i], data, n)`, where `bytes` are the `n` bytes of the data. -/
def copy (i : ℤ) : List U8 → AdvData → Option AdvData
  | [], s => some s
  | x :: bytes, s => (s.write i x).bind (copy (i + 1) bytes)

end AdvData

/-- The value of a 32-bit `int` after a computation with this result. -/
def toInt32 (x : ℤ) : ℤ := x.bmod (2 ^ 32)

/-- The first `n` bytes that a pointer leads to. -/
def bytes (data : ℕ → U8) (n : U8) : List U8 := (List.range n.toNat).map data

def gapAdvDataNew (buf : ℕ → U8) (len : ℤ) : AdvData := ⟨buf, 0, len⟩

def gapAddFlags (flags : U8) (s : AdvData) : Option (ℤ × AdvData) :=
  let newLen := toInt32 (s.offset + 3)
  if newLen ≤ s.capacity then do
    let s₁ ← s.write s.offset 2
    let s₂ ← s₁.write (s.offset + 1) GapAdvertisementData.flags.toByte
    let s₃ ← s₂.write (s.offset + 2) flags
    some (3, { s₃ with offset := newLen })
  else
    some (-1, s)

/-- The new length is a `uint8_t`: the low byte of the sum. -/
def gapAddAdvDataField (type : GapAdvertisementData) (data : ℕ → U8) (dataLen : U8) (s : AdvData) :
    Option (ℤ × AdvData) :=
  let newLength : U8 := BitVec.ofInt 8 (2 + dataLen.toNat + s.offset)
  if newLength.toNat > s.capacity then some (-1, s)
  else do
    let s₁ ← s.write s.offset (dataLen + 1)
    let s₂ ← s₁.write (s.offset + 1) type.toByte
    let s₃ ← s₂.copy (s.offset + 2) (bytes data dataLen)
    some (2 + dataLen.toNat, { s₃ with offset := newLength.toNat })

/-- A builder that adds the field `type` if its pointer is not `NULL`. -/
def gapAddNonNull (type : GapAdvertisementData) (data : Option (ℕ → U8)) (len : U8) (s : AdvData) :
    Option (ℤ × AdvData) :=
  match data with
  | none => some (-1, s)
  | some data => gapAddAdvDataField type data len s

def gapAddDeviceName : Option (ℕ → U8) → U8 → AdvData → Option (ℤ × AdvData) :=
  gapAddNonNull .completeLocalName

/-- The identifiers are passed as the bytes they consist of. -/
def gapAddServiceUuid16 : Option (ℕ → U8) → U8 → AdvData → Option (ℤ × AdvData) :=
  gapAddNonNull .completeList16bitServiceIds

def gapAddServiceData (uuid16 : U16) (data : ℕ → U8) (dataLen : U8) (s : AdvData) :
    Option (ℤ × AdvData) := do
  let (err, s) ← gapAddServiceUuid16 (some (byteAt uuid16)) 2 s
  if err < 0 then some (err, s) else gapAddAdvDataField .serviceData data dataLen s

def gapAddManufacturerSpecificData : Option (ℕ → U8) → U8 → AdvData → Option (ℤ × AdvData) :=
  gapAddNonNull .manufacturerSpecificData

/-! ### Sequences of calls -/

inductive Call
  | flags (b : U8)
  | advDataField (type : GapAdvertisementData) (data : ℕ → U8) (dataLen : U8)
  | deviceName (name : Option (ℕ → U8)) (len : U8)
  | serviceUuid16 (uuid16 : Option (ℕ → U8)) (len : U8)
  | serviceData (uuid16 : U16) (data : ℕ → U8) (dataLen : U8)
  | manufacturerSpecificData (data : Option (ℕ → U8)) (len : U8)

/-- A structure of an advertisement. -/
structure Record where
  type : GapAdvertisementData
  data : List U8
  deriving DecidableEq

namespace Call

def run : Call → AdvData → Option (ℤ × AdvData)
  | flags b => gapAddFlags b
  | advDataField type data dataLen => gapAddAdvDataField type data dataLen
  | deviceName name len => gapAddDeviceName name len
  | serviceUuid16 uuid16 len => gapAddServiceUuid16 uuid16 len
  | serviceData uuid16 data dataLen => gapAddServiceData uuid16 data dataLen
  | manufacturerSpecificData data len => gapAddManufacturerSpecificData data len

/-- The structures that the call is to add. -/
def records : Call → List Record
  | flags b => [⟨.flags, [b]⟩]
  | advDataField type data dataLen => [⟨type, bytes data dataLen⟩]
  | deviceName name len => name.toList.map fun name => ⟨.completeLocalName, bytes name len⟩
  | serviceUuid16 uuid16 len =>
    uuid16.toList.map fun uuid16 => ⟨.completeList16bitServiceIds, bytes uuid16 len⟩
  | serviceData uuid16 data dataLen =>
    [⟨.completeList16bitServiceIds, [byteAt uuid16 0, byteAt uuid16 1]⟩,
      ⟨.serviceData, bytes data dataLen⟩]
  | manufacturerSpecificData data len =>
    data.toList.map fun data => ⟨.manufacturerSpecificData, bytes data len⟩

/-- A call that returns; its trace are the structures it is to add. -/
def Step (s : AdvData) (call : Call) (s' : AdvData) (rs : List Record) : Prop :=
  rs = call.records ∧ ∃ ret, call.run s = some (ret, s')

end Call

/-! ### Writing into the buffer -/

/-- The first `n` bytes of the buffer. -/
def AdvData.contents (s : AdvData) (n : ℤ) : List U8 := (List.range n.toNat).map s.buf

variable {s s' : AdvData} {i : ℤ} {l : List U8} {x : U8}

lemma write_eq (h : 0 ≤ i) (hi : i < s.capacity) :
    s.write i x = some { s with buf := Function.update s.buf i.toNat x } := if_pos ⟨h, hi⟩

lemma contents_update (h : 0 ≤ i) :
    ({ s with buf := Function.update s.buf i.toNat x } : AdvData).contents (i + 1) =
      s.contents i ++ [x] := by
  have hi : (i + 1).toNat = i.toNat + 1 := by omega
  rw [AdvData.contents, hi, List.range_succ, List.map_append]
  congr 1
  · apply List.map_congr_left
    intro j hj
    exact Function.update_of_ne (List.mem_range.mp hj).ne _ _
  · simp

/-- What fits is copied behind what is there, and only the buffer changes. -/
lemma copy_spec (h : 0 ≤ i) (hfit : i + l.length ≤ s.capacity) :
    ∃ buf, s.copy i l = some { s with buf } ∧
      ({ s with buf } : AdvData).contents (i + l.length) = s.contents i ++ l := by
  induction l generalizing s i with
  | nil => exact ⟨s.buf, rfl, by simp⟩
  | cons x l ih =>
    simp only [List.length_cons, Nat.cast_add, Nat.cast_one] at hfit
    have hwrite := write_eq (x := x) h (show i < s.capacity by omega)
    obtain ⟨buf, hcopy, hcontents⟩ :=
      ih (s := { s with buf := Function.update s.buf i.toNat x }) (i := i + 1) (by omega)
        (by simp only; omega)
    refine ⟨buf, ?_, ?_⟩
    · rw [AdvData.copy, hwrite]
      exact hcopy
    · rw [contents_update h] at hcontents
      simp only [List.length_cons, Nat.cast_add, Nat.cast_one]
      rw [show i + ((l.length : ℤ) + 1) = i + 1 + l.length by omega]
      simpa using hcontents

/-- What does not fit is a fault. -/
lemma copy_eq_none (hne : l ≠ []) (hfit : s.capacity < i + l.length) : s.copy i l = none := by
  induction l generalizing s i with
  | nil => exact absurd rfl hne
  | cons x l ih =>
    rw [AdvData.copy]
    by_cases hi : 0 ≤ i ∧ i < s.capacity
    · rw [write_eq hi.1 hi.2]
      simp only [List.length_cons, Nat.cast_add, Nat.cast_one] at hfit
      apply ih
      · rintro rfl
        simp only [List.length_nil, Nat.cast_zero] at hfit
        omega
      · simp only
        omega
    · rw [AdvData.write, if_neg hi]
      rfl

end SimpleBle
