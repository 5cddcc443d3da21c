import Libtock.Ieee802154.Frame

/-!
# Frames that are invalid

The getters are documented to reject a frame that is invalid in any way. They do so for an
unsupported version only: `ieee802154_get_addressing` does not look for the reserved addressing
mode, and its check that a dropped PAN has an address to come from never fails.
-/

namespace Ieee802154

/-! ### The fields of the frame control -/

section Fields

variable (frameControl : U16)

def version : U16 := frameControl >>> 12 &&& 3

def dstMode : AddrMode := .ofBits (frameControl >>> 10 &&& 3)

def srcMode : AddrMode := .ofBits (frameControl >>> 14 &&& 3)

def panIdCompression : Bool := frameControl >>> 6 &&& 1 ≠ 0

/-- The version is reserved, an addressing mode is reserved, or the source PAN is left out although
there is no destination address whose PAN it could be. -/
def Invalid : Prop :=
  version frameControl = 3 ∨ dstMode frameControl = .reserved ∨ srcMode frameControl = .reserved ∨
    (version frameControl = 0 ∨ version frameControl = 1) ∧
      panIdCompression frameControl = true ∧ dstMode frameControl = .none

instance : Decidable (Invalid frameControl) :=
  inferInstanceAs (Decidable (_ ∨ _ ∨ _ ∨ (_ ∨ _) ∧ _ ∧ _))

end Fields

variable {fc : U16}

lemma version_cases (fc : U16) :
    version fc = 0 ∨ version fc = 1 ∨ version fc = 2 ∨ version fc = 3 := by
  have hlt : (version fc).toNat < 4 := by
    rw [version, BitVec.toNat_and]
    exact Nat.and_lt_two_pow (n := 2) _ (by decide)
  simp only [← BitVec.toNat_inj]
  change _ = 0 ∨ _ = 1 ∨ _ = 2 ∨ _ = 3
  omega

/-- Both modes are reported as they stand, whatever is present, and a PAN is dropped if the frame
says so. -/
lemma addressing_eq (fc : U16) : addressing fc =
    if version fc = version2015 then
      some ⟨true, dstMode fc, !panIdCompression fc, panIdCompression fc, srcMode fc⟩
    else if version fc = 0 ∨ version fc = 1 then
      some ⟨true, dstMode fc, false, panIdCompression fc, srcMode fc⟩
    else none := rfl

lemma addressing_version3 (h : version fc = 3) : addressing fc = none := by
  rw [addressing_eq, h]
  rfl

lemma addressing_supported (h : version fc ≠ 3) :
    ∃ a, addressing fc = some a ∧ a.dstMode = dstMode fc ∧ a.srcMode = srcMode fc ∧
      a.srcPanDropped = panIdCompression fc := by
  rw [addressing_eq]
  split_ifs with h2015 h2006
  · exact ⟨_, rfl, rfl, rfl, rfl⟩
  · exact ⟨_, rfl, rfl, rfl, rfl⟩
  · have := version_cases fc
    tauto

/-! ### The getters -/

/-- What the header file says of a frame: the getters reject it if it is invalid, and return only
modes that `addr_mode_t` names. -/
structure Checked (frame : Frame) : Prop where
  rejected : Invalid (frameControl frame) → ∀ shortAddr longAddr pan,
    frameGetDstAddr (some frame) shortAddr longAddr = (.none, shortAddr, longAddr) ∧
      frameGetSrcAddr (some frame) shortAddr longAddr = (.none, shortAddr, longAddr) ∧
      frameGetDstPan (some frame) pan = (false, pan) ∧
      frameGetSrcPan (some frame) pan = (false, pan)
  named : ∀ shortAddr longAddr,
    (frameGetDstAddr (some frame) shortAddr longAddr).1 ≠ .reserved ∧
      (frameGetSrcAddr (some frame) shortAddr longAddr).1 ≠ .reserved

lemma Checked.version_eq {frame : Frame} (h : Checked frame)
    (hinv : Invalid (frameControl frame)) : version (frameControl frame) = 3 := by
  by_contra hv
  obtain ⟨a, ha, hdst, hsrc, hdropped⟩ := addressing_supported hv
  obtain ⟨hgetDst, hgetSrc, -, hgetPan⟩ := h.rejected hinv none none none
  have hdstNone : dstMode (frameControl frame) = .none := by
    rw [← hdst]
    simpa [frameGetDstAddr, ha] using congrArg Prod.fst hgetDst
  have hsrcNone : srcMode (frameControl frame) = .none := by
    rw [← hsrc]
    simpa [frameGetSrcAddr, ha] using congrArg Prod.fst hgetSrc
  rcases hinv with hv' | hres | hres | ⟨-, hcomp, -⟩
  · exact hv hv'
  · exact absurd (hdstNone.symm.trans hres) (by decide)
  · exact absurd (hsrcNone.symm.trans hres) (by decide)
  · -- the source PAN is reported as present
    have hret := congrArg Prod.fst hgetPan
    simp [frameGetSrcPan, ha, hdropped, hcomp] at hret

/-- The getters reject a frame that is invalid, write nothing for it, and return none but the named
modes, if and only if the frame is not invalid in another way than by its version. -/
theorem getters_checked_iff (frame : Frame) :
    Checked frame ↔ (Invalid (frameControl frame) → version (frameControl frame) = 3) := by
  refine ⟨fun h hinv => h.version_eq hinv, fun h => ⟨fun hinv shortAddr longAddr pan => ?_,
    fun shortAddr longAddr => ?_⟩⟩
  · have ha := addressing_version3 (h hinv)
    simp [frameGetDstAddr, frameGetSrcAddr, frameGetDstPan, frameGetSrcPan, ha]
  · by_cases hinv : Invalid (frameControl frame)
    · have ha := addressing_version3 (h hinv)
      simp [frameGetDstAddr, frameGetSrcAddr, ha]
    · obtain ⟨hv, hdstMode, hsrcMode, -⟩ : _ ∧ _ ∧ _ ∧ _ := by simpa [Invalid] using hinv
      obtain ⟨a, ha, hdst, hsrc, -⟩ := addressing_supported hv
      simp [frameGetDstAddr, frameGetSrcAddr, ha, hdst, hsrc, hdstMode, hsrcMode]

/-- PAN compression without addresses, and a reserved destination mode. -/
theorem getters_not_checked :
    ¬ Checked (fun i => if i = 2 then 0x40 else 0) ∧
      ¬ Checked (fun i => if i = 3 then 0x04 else 0) := by
  constructor
  · intro h
    have hpan := (h.rejected (by decide) none none (some 0)).2.2.2
    exact absurd (congrArg Prod.fst hpan) (by decide)
  · intro h
    exact (h.named none none).1 (by decide)

end Ieee802154
