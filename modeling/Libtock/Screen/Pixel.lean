import Libtock.Screen.Init

/-!
# Pixels: `screen_set_color`

A pixel takes two bytes, but its position is compared with the length of the buffer in bytes, less
two. So about half of the positions that are accepted lie behind the buffer, a buffer of two bytes
has no pixel at all, and below two the bound wraps around.
-/

namespace Screen

open Tock

/-- `buffer_len` is the length of the buffer, or zero while there is none. -/
def Sized (s : State) : Prop := (s.buffer.getD []).length = s.bufferLen.toNat

lemma Display.step_sized {l : Library} {d : Display} (h : Sized d.static) (c : InitCall) :
    Sized (d.step l c).static := by
  by_cases hbuffer : d.static.buffer = none
  · cases hblock : c.block with
    | none =>
      rw [Display.step, run_of_no_memory hbuffer hblock]
      exact h
    | some b =>
      rw [Display.step, run_of_block hbuffer hblock]
      exact b.length
  · rw [Display.step, run_of_published hbuffer]
    exact h

lemma Display.foldl_sized {l : Library} (calls : List InitCall) {d : Display}
    (h : Sized d.static) : Sized (calls.foldl (Display.step l) d).static :=
  calls.foldlRecOn (motive := fun d => Sized d.static) (Display.step l) h fun _ h c _ =>
    step_sized h c

/-- Both bytes of the pixel are in the buffer. -/
def Inside (position : U32) (s : State) : Prop := 2 * position.toNat + 1 < s.bufferLen.toNat

/-- The two bytes of the pixel hold the color, and nothing else has changed. -/
structure Drawn (position color : U32) (s s' : State) : Prop where
  bufferLen : s'.bufferLen = s.bufferLen
  length : (s'.buffer.getD []).length = (s.buffer.getD []).length
  high : (s'.buffer.getD [])[2 * position.toNat]? = some ((color >>> 8 &&& 0xFF).setWidth 8)
  low : (s'.buffer.getD [])[2 * position.toNat + 1]? = some ((color &&& 0xFF).setWidth 8)
  other : ∀ i, i ≠ 2 * position.toNat → i ≠ 2 * position.toNat + 1 →
    (s'.buffer.getD [])[i]? = (s.buffer.getD [])[i]?

/-- What a call that comes to return `r` owes its caller: it writes inside the buffer, and draws
the pixel if and only if the buffer has it. -/
def Draws (position color : U32) (s : State) (r : Option (ℤ × State)) : Prop :=
  ∃ ret s', r = some (ret, s') ∧ (ret = returncodeSuccess ↔ Inside position s) ∧
    (ret = returncodeSuccess → Drawn position color s s') ∧ (ret ≠ returncodeSuccess → s' = s)

/-- The positions for which the check is right. The others are those that it accepts behind the
buffer, and the only one of a buffer of two bytes. -/
def Checked (position bufferLen : ℕ) : Prop :=
  if bufferLen < 2 then 2 ^ 32 - 2 + bufferLen ≤ position
  else if bufferLen = 2 then position ≠ 0
  else position < bufferLen / 2 ∨ bufferLen - 2 ≤ position

variable {position color : U32} {s : State}

/-- The check of the function, in unsigned arithmetic. -/
lemma lt_bound_iff (position bufferLen : U32) :
    position < bufferLen - 2 ↔ position.toNat < (bufferLen.toNat + (2 ^ 32 - 2)) % 2 ^ 32 := by
  rw [BitVec.lt_def, BitVec.toNat_sub, add_comm]
  rfl

lemma checked_iff (position bufferLen : U32) :
    Checked position.toNat bufferLen.toNat ↔
      (position < bufferLen - 2 ↔ 2 * position.toNat + 1 < bufferLen.toNat) := by
  have hposition := position.isLt
  have hlen := bufferLen.isLt
  rw [lt_bound_iff, Checked]
  split_ifs with hshort htwo
  · omega
  · omega
  · omega

lemma setColor_of_inside (hs : Sized s) (hlt : position < s.bufferLen - 2)
    (hin : Inside position s) :
    ∃ s', screenSetColor position color s = some (returncodeSuccess, s') ∧
      Drawn position color s s' := by
  obtain ⟨buffer, len⟩ := s
  cases buffer with
  | none =>
    simp only [Sized, Inside, Option.getD_none, List.length_nil] at hs hin
    omega
  | some buffer =>
    simp only [Sized, Inside, Option.getD_some] at hs hin
    have hlen := len.isLt
    have hi : (position * 2).toNat = 2 * position.toNat := by bv_omega
    have hj : (position * 2 + 1).toNat = 2 * position.toNat + 1 := by bv_omega
    have hfits : 2 * position.toNat < buffer.length ∧ 2 * position.toNat + 1 < buffer.length := by
      omega
    let s' : State :=
      { buffer := some ((buffer.set (2 * position.toNat) ((color >>> 8 &&& 0xFF).setWidth 8)).set
          (2 * position.toNat + 1) ((color &&& 0xFF).setWidth 8))
        bufferLen := len }
    refine ⟨s', ?_, ⟨rfl, ?_, ?_, ?_, fun i hhigh hlow => ?_⟩⟩
    · simp only [screenSetColor, if_pos hlt, hi, hj, Option.bind_eq_bind, Option.bind_some,
        if_pos hfits]
      rfl
    · simp [s']
    · simp [s', hfits.1]
    · simp [s', hfits.2]
    · simp [s', List.getElem?_set_ne, hhigh.symm, hlow.symm]

lemma success_of_setColor {r : ℤ × State} (hlt : position < s.bufferLen - 2)
    (h : screenSetColor position color s = some r) : r.1 = returncodeSuccess := by
  rw [screenSetColor, if_pos hlt] at h
  obtain ⟨buffer, -, h⟩ := Option.bind_eq_some_iff.mp h
  dsimp only at h
  split_ifs at h
  cases h
  rfl

lemma draws_iff (hs : Sized s) :
    Draws position color s (screenSetColor position color s) ↔
      Checked position.toNat s.bufferLen.toNat := by
  rw [checked_iff]
  constructor
  · rintro ⟨ret, s', hcall, hret, -⟩
    by_cases hlt : position < s.bufferLen - 2
    · exact iff_of_true hlt (hret.mp (success_of_setColor hlt hcall))
    · rw [screenSetColor, if_neg hlt] at hcall
      cases hcall
      exact iff_of_false hlt fun hin => absurd (hret.mpr hin) (by decide)
  · intro hcheck
    by_cases hlt : position < s.bufferLen - 2
    · have hin : Inside position s := hcheck.mp hlt
      obtain ⟨s', hcall, hdrawn⟩ : ∃ s', screenSetColor position color s =
          some (returncodeSuccess, s') ∧ Drawn position color s s' := setColor_of_inside hs hlt hin
      exact ⟨_, s', hcall, iff_of_true rfl hin, fun _ => hdrawn,
        fun hne => absurd rfl hne⟩
    · refine ⟨returncodeESize, s, if_neg hlt, ?_, ?_, fun _ => rfl⟩
      · exact iff_of_false (by decide) fun hin => hlt (hcheck.mpr hin)
      · exact fun hret => absurd hret (by decide)

/-- The static variables after some calls of `screen_init`. -/
def afterInit (calls : List InitCall) : State :=
  (calls.foldl (Display.step .screen) .initial).static

/-- In every state that calls of `screen_init` lead to, the function draws a pixel if and only if
the buffer has it, exactly at the positions for which its check is right. -/
theorem screenSetColor_draws_iff (calls : List InitCall) (position color : U32) :
    Draws position color (afterInit calls) (screenSetColor position color (afterInit calls)) ↔
      Checked position.toNat (afterInit calls).bufferLen.toNat :=
  draws_iff (Display.foldl_sized calls rfl)

def fiveBytes : List InitCall :=
  [⟨5, some ⟨0x1000, [0, 0, 0, 0, 0], rfl⟩, Kernel.steady .accepted .success⟩]

/-- The third pixel of five bytes is accepted, and its second byte is not there; before any call
there is no buffer to write to. -/
theorem screenSetColor_not_draws :
    ¬ Draws 2 0xFFFF (afterInit fiveBytes) (screenSetColor 2 0xFFFF (afterInit fiveBytes)) ∧
      ¬ Draws 0 0xFFFF (afterInit []) (screenSetColor 0 0xFFFF (afterInit [])) := by
  constructor
  · rintro ⟨ret, s', hcall, -⟩
    cases hcall
  · rintro ⟨ret, s', hcall, -⟩
    cases hcall

end Screen
