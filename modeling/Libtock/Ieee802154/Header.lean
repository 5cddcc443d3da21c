import Mathlib.Tactic.FinCases
import Libtock.Ieee802154.Frame

/-!
# Which headers the getters read back

`Header.encode` writes a header in the format of the standard: a PAN or an address is present in
the frame as the presence table says of the addressing modes. The getters read a header back
exactly when that table gives what `ieee802154_get_addressing` assumes, which takes both addresses
for present whatever the modes are.
-/

namespace Ieee802154

open Core.Bytes

inductive Version
  | v2003
  | v2006
  | v2015
  deriving DecidableEq

def Version.bits : Version → U16
  | .v2003 => 0
  | .v2006 => 1
  | .v2015 => 2

/-- The two bits of an addressing mode. -/
def AddrMode.bits : AddrMode → U16
  | .none => 0
  | .reserved => 1
  | .short => 2
  | .long => 3

lemma AddrMode.ofBits_bits (m : AddrMode) : AddrMode.ofBits m.bits = m := by
  cases m <;> rfl

inductive Address
  | none
  | short (a : U16)
  /-- The bytes in the order in which the getters return them. -/
  | long (a : Fin 8 → U8)

namespace Address

def present : Address → Bool
  | .none => false
  | _ => true

def mode : Address → AddrMode
  | .none => .none
  | .short _ => .short
  | .long _ => .long

/-- The address in a frame, low byte first. -/
def encode : Address → List U8
  | .none => []
  | .short a => le16 a
  | .long a => [a 7, a 6, a 5, a 4, a 3, a 2, a 1, a 0]

/-- The short address, if it is one. -/
def short? : Address → Option U16
  | .short a => some a
  | _ => Option.none

def long? : Address → Option (Fin 8 → U8)
  | .long a => some a
  | _ => Option.none

end Address

/-- The bits of the frame control that the getters read. -/
def controlBits (compression seqSuppressed : Bool) (v : Version) (dst src : AddrMode) : U16 :=
  (if compression then (0x0040 : U16) else 0) ||| (if seqSuppressed then (0x0100 : U16) else 0) |||
    dst.bits <<< 10 ||| v.bits <<< 12 ||| src.bits <<< 14

/-- A header. Before the version of 2015, PAN compression needs both addresses. -/
structure Header where
  version : Version
  compression : Bool
  seqSuppressed : Bool
  seq : U8
  dst : Address
  dstPan : U16
  src : Address
  srcPan : U16
  /-- The frame type and the other bits of the frame control that the getters do not read. -/
  otherBits : U16
  compression_ok : compression = true → version ≠ .v2015 → dst.present = true ∧ src.present = true

namespace Header

variable (h : Header)

/-- The presence table for the destination PAN. -/
def dstPanPresent : Bool :=
  match h.version with
  | .v2015 =>
    match h.dst.present, h.src.present with
    | true, true => true
    | true, false => !h.compression
    | false, true => false
    | false, false => h.compression
  | _ => h.dst.present

/-- The presence table for the source PAN; its rows are the same for all versions. -/
def srcPanPresent : Bool := h.src.present && !h.compression

/-- The source PAN is left out because it is the destination PAN. -/
def srcPanDropped : Bool := h.dst.present && h.src.present && h.compression

def frameControl : U16 :=
  (h.otherBits &&& 0x02bf) |||
    controlBits h.compression h.seqSuppressed h.version h.dst.mode h.src.mode

def encode : List U8 :=
  le16 h.frameControl ++ ((if h.seqSuppressed then [] else [h.seq]) ++
    ((if h.dstPanPresent then le16 h.dstPan else []) ++ (h.dst.encode ++
      ((if h.srcPanPresent then le16 h.srcPan else []) ++ h.src.encode))))

/-- What the getters should return and write; a source PAN that is left out is the destination
PAN. Where nothing is present the out-parameter keeps its value. -/
structure ReadBack (frame : Frame) : Prop where
  dstPan : ∀ pan, frameGetDstPan (some frame) pan
    = (h.dstPanPresent, write pan h.dstPanPresent h.dstPan)
  dstAddr : ∀ shortAddr longAddr, frameGetDstAddr (some frame) shortAddr longAddr
    = (h.dst.mode, shortAddr.map h.dst.short?.getD, longAddr.map h.dst.long?.getD)
  srcPan : ∀ pan, frameGetSrcPan (some frame) pan
    = (h.srcPanPresent || h.srcPanDropped, write pan (h.srcPanPresent || h.srcPanDropped)
        (if h.srcPanDropped then h.dstPan else h.srcPan))
  srcAddr : ∀ shortAddr longAddr, frameGetSrcAddr (some frame) shortAddr longAddr
    = (h.src.mode, shortAddr.map h.src.short?.getD, longAddr.map h.src.long?.getD)

/-- The headers whose layout is the one that `ieee802154_get_addressing` assumes. -/
def Assumed : Prop :=
  h.dst.present = true ∧
    if h.version = .v2015 then h.src.present = true
    else h.src.present = true → h.compression = true

/-! ### The frame control -/

/-- A field of the frame control that has none of the other bits. -/
lemma frameControl_field (n : ℕ) (k : U16) (hk : (0x02bf : U16) >>> n &&& k = 0) :
    h.frameControl >>> n &&& k =
      controlBits h.compression h.seqSuppressed h.version h.dst.mode h.src.mode >>> n &&& k :=
  field_or _ _ _ _ _ hk

lemma controlBits_fields (c q : Bool) (v : Version) (d s : AddrMode) :
    controlBits c q v d s >>> 12 &&& 3 = v.bits ∧ controlBits c q v d s >>> 10 &&& 3 = d.bits ∧
      controlBits c q v d s >>> 14 &&& 3 = s.bits ∧
      controlBits c q v d s >>> 6 &&& 1 = (if c then 1 else 0) ∧
      controlBits c q v d s >>> 0 &&& Ieee802154.seqSuppressed = if q then 0x0100 else 0 := by
  cases c <;> cases q <;> cases v <;> cases d <;> cases s <;> decide

/-- What `ieee802154_get_addressing` makes of the header: a destination PAN is always present. -/
lemma addressing_frameControl : addressing h.frameControl = some
    ⟨true, h.dst.mode, decide (h.version = .v2015) && !h.compression, h.compression,
      h.src.mode⟩ := by
  obtain ⟨hversion, hdst, hsrc, hcomp, -⟩ :=
    controlBits_fields h.compression h.seqSuppressed h.version h.dst.mode h.src.mode
  rw [← frameControl_field _ _ _ (by decide)] at hversion hdst hsrc hcomp
  simp only [addressing, getAddressing, hversion, hdst, hsrc, hcomp, AddrMode.ofBits_bits]
  generalize h.compression = c, h.version = v
  cases c <;> cases v <;> rfl

lemma fieldOffset_frameControl :
    fieldOffset h.frameControl = if h.seqSuppressed then 4 else 5 := by
  have hseq := (controlBits_fields h.compression h.seqSuppressed h.version h.dst.mode
    h.src.mode).2.2.2.2
  rw [← frameControl_field _ _ _ (by decide), BitVec.ushiftRight_zero] at hseq
  rw [fieldOffset]
  rw [hseq]
  cases h.seqSuppressed <;> rfl

/-! ### The fields in the frame -/

variable {h} {frame : Frame}

lemma frameControl_eq (hf : Holds frame 2 h.encode) :
    Ieee802154.frameControl frame = h.frameControl :=
  (holds_append.mp hf).1.join_le16

/-- The fields after the sequence number. -/
lemma holds_fields (hf : Holds frame 2 h.encode) (hdst : h.dstPanPresent = true) :
    Holds frame (fieldOffset h.frameControl) (le16 h.dstPan ++ (h.dst.encode ++
      ((if h.srcPanPresent then le16 h.srcPan else []) ++ h.src.encode))) := by
  have hrest := (holds_append.mp (holds_append.mp hf).2).2
  rw [hdst, if_pos rfl] at hrest
  rw [fieldOffset_frameControl]
  cases hq : h.seqSuppressed with
  | true => simpa [hq, le16] using hrest
  | false => simpa [hq, le16] using hrest

lemma addrLength_mode (a : Address) : addrLength a.mode = a.encode.length := by
  cases a <;> rfl

lemma write_short {i : ℕ} {a : Address} (hf : Holds frame i a.encode) (p : Option U16) :
    write p (decide (a.mode = .short)) (readShort frame i) = p.map a.short?.getD := by
  cases p with
  | none => rfl
  | some old =>
    cases a with
    | none => rfl
    | short a => exact congrArg some hf.join_le16
    | long a => rfl

lemma write_long {i : ℕ} {a : Address} (hf : Holds frame i a.encode)
    (p : Option (Fin 8 → U8)) :
    write p (decide (a.mode = .long)) (readLong frame i) = p.map a.long?.getD := by
  cases p with
  | none => rfl
  | some old =>
    cases a with
    | none => rfl
    | short a => rfl
    | long a =>
      obtain ⟨h7, h6, h5, h4, h3, h2, h1, h0, -⟩ := hf
      have hread : readLong frame i = a := by
        funext j
        fin_cases j <;> assumption
      exact congrArg some hread

/-! ### Reading a header back -/

/-- The presence that the getters report is the one of the table for the assumed layouts only. -/
lemma assumed_iff : h.Assumed ↔ h.dstPanPresent = true ∧
    ((decide (h.version = .v2015) && !h.compression || h.compression)
      = (h.srcPanPresent || h.srcPanDropped)) := by
  have hok := h.compression_ok
  unfold Assumed dstPanPresent srcPanPresent srcPanDropped
  revert hok
  generalize h.compression = c, h.version = v, h.dst.present = d, h.src.present = s
  cases c <;> cases v <;> cases d <;> cases s <;> simp

lemma Assumed.srcPanPresent_eq (hassumed : h.Assumed) :
    (decide (h.version = .v2015) && !h.compression) = h.srcPanPresent := by
  revert hassumed
  unfold Assumed srcPanPresent
  generalize h.compression = c, h.version = v, h.dst.present = d, h.src.present = s
  cases c <;> cases v <;> cases d <;> cases s <;> simp

/-- Whatever stands in the frame behind the header, the getters read it back if and only if its
layout is the assumed one. -/
theorem header_read_back_iff (h : Header) (frame : Frame) (hf : Holds frame 2 h.encode) :
    h.ReadBack frame ↔ h.Assumed := by
  have hfc := frameControl_eq hf
  constructor
  · intro hread
    refine assumed_iff.mpr ⟨?_, ?_⟩
    · have := congrArg Prod.fst (hread.dstPan none)
      simpa [frameGetDstPan, hfc, addressing_frameControl] using this.symm
    · have := congrArg Prod.fst (hread.srcPan none)
      simp only [frameGetSrcPan, hfc, addressing_frameControl] at this
      split_ifs at this <;> exact this
  · intro hassumed
    obtain ⟨hdst, hsrc⟩ := assumed_iff.mp hassumed
    have hpresent := hassumed.srcPanPresent_eq
    obtain ⟨hpan, hrest⟩ := holds_append.mp (holds_fields hf hdst)
    obtain ⟨haddr, hrest⟩ := holds_append.mp hrest
    obtain ⟨hpan', haddr'⟩ := holds_append.mp hrest
    replace haddr : Holds frame (fieldOffset h.frameControl + 2) h.dst.encode := haddr
    have hreadDst : readShort frame (fieldOffset h.frameControl) = h.dstPan := hpan.join_le16
    refine ⟨?_, ?_, ?_, ?_⟩
    · intro pan
      simp only [frameGetDstPan, hfc, addressing_frameControl, hdst, hreadDst]
    · intro s l
      simp only [frameGetDstAddr, hfc, addressing_frameControl, if_true]
      rw [write_short haddr, write_long haddr]
    · intro pan
      simp only [frameGetSrcPan, hfc, addressing_frameControl, hpresent, addrLength_mode, if_true,
        hreadDst]
      cases hc : h.compression with
      | true =>
        have hdropped : h.srcPanDropped = true := by
          simpa [hc, srcPanPresent] using hsrc.symm
        simp [hdropped]
      | false =>
        have hdropped : h.srcPanDropped = false := by simp [srcPanDropped, hc]
        cases hp : h.srcPanPresent with
        | true =>
          rw [hp, if_pos rfl] at hpan'
          have hreadSrc : readShort frame (fieldOffset h.frameControl + 2 + h.dst.encode.length)
              = h.srcPan := hpan'.join_le16
          simp [hdropped, hreadSrc]
        | false => simp [hdropped, write]
    · intro s l
      simp only [frameGetSrcAddr, hfc, addressing_frameControl, hpresent, addrLength_mode, if_true]
      cases hp : h.srcPanPresent with
      | true =>
        rw [hp] at haddr'
        replace haddr' : Holds frame (fieldOffset h.frameControl + 2 + h.dst.encode.length + 2)
          h.src.encode := haddr'
        simp only [if_true]
        rw [write_short haddr', write_long haddr']
      | false =>
        rw [hp] at haddr'
        replace haddr' : Holds frame (fieldOffset h.frameControl + 2 + h.dst.encode.length)
          h.src.encode := haddr'
        simp only [Bool.false_eq_true, if_false]
        rw [write_short haddr', write_long haddr']

/-- A data frame inside one PAN. -/
def onePan : Header where
  version := .v2006
  compression := true
  seqSuppressed := false
  seq := 7
  dst := .short 0x0802
  dstPan := 0xabcd
  src := .long fun i => .ofNat 8 (i + 1)
  srcPan := 0xabcd
  otherBits := 1
  compression_ok := fun _ _ => ⟨rfl, rfl⟩

/-- A data frame from one PAN to another. -/
def twoPans : Header where
  version := .v2006
  compression := false
  seqSuppressed := false
  seq := 7
  dst := .short 0x0802
  dstPan := 0xabcd
  src := .short 0x1540
  srcPan := 0x1234
  otherBits := 1
  compression_ok := fun h => nomatch h

/-- The frame that holds the header and nothing else. -/
def alone (h : Header) : Frame := fun i => h.encode.getD (i - 2) 0

theorem header_read_back_one_pan : onePan.ReadBack onePan.alone :=
  (header_read_back_iff onePan onePan.alone (by decide)).mpr ⟨rfl, fun _ => rfl⟩

/-- The source PAN of a frame between two PANs is not found. -/
theorem header_not_read_back :
    Holds twoPans.alone 2 twoPans.encode ∧ twoPans.srcPanPresent = true ∧
      (frameGetSrcPan (some twoPans.alone) (some 0)).1 = false ∧
      ¬ twoPans.ReadBack twoPans.alone := by
  refine ⟨by decide, rfl, by decide, ?_⟩
  intro hread
  have := congrArg Prod.fst (hread.srcPan none)
  revert this
  decide

end Header

end Ieee802154
