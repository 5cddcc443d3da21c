import Libtock.Core.Framing
import Libtock.Core.Run
import Libtock.SimpleBle.Gap

/-!
# What the builders leave in the buffer

A call appends its structures to the contents of the buffer, if the new length fits in a byte. The
sum of offset, header and data is cut to a byte before it is compared with the capacity, so beyond
255 a call may write past the buffer or move the offset back.
-/

namespace SimpleBle

open Core

variable {s s' : AdvData} {type : GapAdvertisementData} {data : ℕ → U8} {len b : U8}

/-- A structure in the buffer: length, type, data. -/
def Record.encode (r : Record) : List U8 :=
  BitVec.ofNat 8 (r.data.length + 1) :: r.type.toByte :: r.data

@[simp] lemma length_bytes (data : ℕ → U8) (len : U8) : (bytes data len).length = len.toNat := by
  simp [bytes]

@[simp] lemma Record.length_encode (r : Record) : r.encode.length = r.data.length + 2 := by
  simp [Record.encode]

/-! ### One structure -/

/-- Adds a structure if the new length, as the code computes it, is at most the capacity. -/
def AdvData.add (newLen ret : ℤ) (r : Record) (s : AdvData) : Option (ℤ × AdvData) :=
  if s.capacity < newLen then some (-1, s)
  else (s.copy s.offset r.encode).map fun s' => (ret, { s' with offset := newLen })

/-- The length that `gap_add_adv_data_field` computes. -/
lemma toNat_ofInt_byte (x : ℤ) : ((BitVec.ofInt 8 x).toNat : ℤ) = x % 256 := by
  rw [BitVec.toNat_ofInt]
  exact Int.toNat_of_nonneg (Int.emod_nonneg _ (by decide))

lemma gapAddAdvDataField_eq (type : GapAdvertisementData) (data : ℕ → U8) (len : U8)
    (s : AdvData) :
    gapAddAdvDataField type data len s =
      s.add ((s.offset + 2 + len.toNat) % 256) (2 + len.toNat) ⟨type, bytes data len⟩ := by
  have hsum : (2 + len.toNat + s.offset : ℤ) = s.offset + 2 + len.toNat := by omega
  have hlen : BitVec.ofNat 8 ((bytes data len).length + 1) = len + 1 := by
    rw [length_bytes, BitVec.ofNat_add, BitVec.ofNat_toNat, BitVec.setWidth_eq]
    rfl
  have hnext : s.offset + 1 + 1 = s.offset + 2 := by omega
  simp only [gapAddAdvDataField, toNat_ofInt_byte, hsum, gt_iff_lt, AdvData.add, Record.encode,
    AdvData.copy, hlen, hnext]
  split_ifs with h
  · rfl
  · cases s.write s.offset (len + 1) with
    | none => rfl
    | some s₁ =>
      cases h₂ : s₁.write (s.offset + 1) type.toByte with
      | none => simp [h₂]
      | some s₂ =>
        simp only [Option.bind_eq_bind, Option.bind_some, h₂]
        cases s₂.copy (s.offset + 2) (bytes data len) <;> rfl

lemma gapAddFlags_eq (b : U8) (s : AdvData) :
    gapAddFlags b s = s.add (toInt32 (s.offset + 3)) 3 ⟨.flags, [b]⟩ := by
  have hnext : s.offset + 1 + 1 = s.offset + 2 := by omega
  have hlen : BitVec.ofNat 8 ([b].length + 1) = 2 := rfl
  simp only [gapAddFlags, AdvData.add, Record.encode, AdvData.copy, hnext, hlen]
  split_ifs with h h' h'
  · omega
  · cases s.write s.offset 2 with
    | none => rfl
    | some s₁ =>
      cases h₂ : s₁.write (s.offset + 1) GapAdvertisementData.flags.toByte with
      | none => simp [h₂]
      | some s₂ =>
        simp only [Option.bind_eq_bind, Option.bind_some, h₂]
        cases s₂.write (s.offset + 2) b <;> rfl
  · rfl
  · omega

/-- The list of services comes first, and the data after it unless that is refused. -/
lemma gapAddServiceData_eq (uuid16 : U16) (data : ℕ → U8) (len : U8) (s : AdvData) :
    gapAddServiceData uuid16 data len s =
      (s.add ((s.offset + 2 + (2 : ℕ)) % 256) (2 + (2 : ℕ))
        ⟨.completeList16bitServiceIds, bytes (byteAt uuid16) 2⟩).bind fun r =>
          if r.1 < 0 then some r else gapAddAdvDataField .serviceData data len r.2 := by
  have hrun : gapAddServiceData uuid16 data len s =
      (gapAddAdvDataField .completeList16bitServiceIds (byteAt uuid16) 2 s).bind fun r =>
        if r.1 < 0 then some r else gapAddAdvDataField .serviceData data len r.2 := rfl
  have htwo : (2 : U8).toNat = 2 := rfl
  rw [hrun, gapAddAdvDataField_eq, htwo]

section Add

variable {newLen ret : ℤ} {r : Record}

lemma add_refused (h : s.capacity < newLen) : s.add newLen ret r = some (-1, s) := if_pos h

/-- A structure that fits is appended to the contents. -/
lemma add_accepted (ret : ℤ) (r : Record) (h0 : 0 ≤ s.offset) (h : newLen ≤ s.capacity)
    (hfit : s.offset + r.encode.length ≤ s.capacity) :
    ∃ buf, s.add newLen ret r = some (ret, ⟨buf, newLen, s.capacity⟩) ∧
      AdvData.contents ⟨buf, newLen, s.capacity⟩ (s.offset + r.encode.length) =
        s.contents s.offset ++ r.encode := by
  obtain ⟨buf, hcopy, hcontents⟩ := copy_spec h0 hfit
  refine ⟨buf, ?_, hcontents⟩
  rw [AdvData.add, if_neg (not_lt.mpr h), hcopy]
  rfl

lemma add_fault (h : newLen ≤ s.capacity) (hfit : s.capacity < s.offset + r.encode.length) :
    s.add newLen ret r = none := by
  rw [AdvData.add, if_neg (not_lt.mpr h), copy_eq_none (by simp [Record.encode]) hfit]
  rfl

/-- The call returns, has written inside the buffer only and has not moved the offset back or past
the capacity. -/
def Stays (s : AdvData) (result : Option (ℤ × AdvData)) : Prop :=
  ∃ ret s', result = some (ret, s') ∧ s.offset ≤ s'.offset ∧ s'.offset ≤ s'.capacity ∧
    s'.capacity = s.capacity

lemma stays_refl (h : s.offset ≤ s.capacity) (ret : ℤ) : Stays s (some (ret, s)) :=
  ⟨ret, s, rfl, le_rfl, h, rfl⟩

lemma stays_add_iff (h0 : 0 ≤ s.offset) (hcap : s.offset ≤ s.capacity) :
    Stays s (s.add newLen ret r) ↔
      s.capacity < newLen ∨ s.offset + (r.data.length + 2) ≤ s.capacity ∧ s.offset ≤ newLen := by
  have hlen : (r.encode.length : ℤ) = r.data.length + 2 := by simp
  rcases lt_or_ge s.capacity newLen with h | h
  · rw [add_refused h]
    exact iff_of_true (stays_refl hcap _) (.inl h)
  · rcases lt_or_ge s.capacity (s.offset + r.encode.length) with hfit | hfit
    · rw [add_fault h hfit]
      apply iff_of_false
      · rintro ⟨_, _, hnone, -⟩
        cases hnone
      · omega
    · obtain ⟨buf, hadd, -⟩ := add_accepted ret r h0 h hfit
      rw [hadd]
      constructor
      · rintro ⟨_, _, hsome, hle, -⟩
        cases hsome
        exact .inr ⟨by omega, hle⟩
      · intro hor
        exact ⟨_, _, rfl, by simp only; omega, h, rfl⟩

end Add

/-! ### Which calls stay in the buffer -/

/-- The new length of a field is a byte, or it is refused, or a wrapped length still lies in the
buffer and not before the offset. -/
def FieldFits (capacity offset : ℤ) (len : ℕ) : Prop :=
  offset + 2 + len ≤ 255 ∨ capacity < (offset + 2 + len) % 256 ∨
    offset + 2 + len ≤ capacity ∧ offset + 2 + len < 512 ∧ 254 ≤ len

namespace Call

def Fits (s : AdvData) : Call → Prop
  | flags _ => s.offset + 3 < 2 ^ 31
  | advDataField _ _ len => FieldFits s.capacity s.offset len.toNat
  | deviceName name len => name = none ∨ FieldFits s.capacity s.offset len.toNat
  | serviceUuid16 uuid16 len => uuid16 = none ∨ FieldFits s.capacity s.offset len.toNat
  | serviceData _ _ len => FieldFits s.capacity s.offset 2 ∧
      (s.offset + 4 ≤ s.capacity → FieldFits s.capacity (s.offset + 4) len.toNat)
  | manufacturerSpecificData data len => data = none ∨ FieldFits s.capacity s.offset len.toNat

end Call

lemma stays_field_iff (h0 : 0 ≤ s.offset) (hcap : s.offset ≤ s.capacity) :
    Stays s (gapAddAdvDataField type data len s) ↔ FieldFits s.capacity s.offset len.toNat := by
  have hlt := len.isLt
  rw [gapAddAdvDataField_eq, stays_add_iff h0 hcap, FieldFits, length_bytes]
  omega

lemma stays_nonNull_iff (h0 : 0 ≤ s.offset) (hcap : s.offset ≤ s.capacity)
    {data : Option (ℕ → U8)} :
    Stays s (gapAddNonNull type data len s) ↔
      data = none ∨ FieldFits s.capacity s.offset len.toNat := by
  cases data with
  | none => exact iff_of_true (stays_refl hcap _) (.inl rfl)
  | some data =>
    rw [gapAddNonNull, stays_field_iff h0 hcap]
    simp

lemma stays_flags_iff (h0 : 0 ≤ s.offset) (hcap : s.offset ≤ s.capacity)
    (hmax : s.capacity < 2 ^ 31) :
    Stays s (gapAddFlags b s) ↔ s.offset + 3 < 2 ^ 31 := by
  rw [gapAddFlags_eq, stays_add_iff h0 hcap, toInt32, Int.bmod]
  simp only [List.length_singleton]
  omega

/-- The second structure is added behind the first, or not at all. -/
lemma stays_serviceData (h0 : 0 ≤ s.offset) (hcap : s.offset ≤ s.capacity) {uuid16 : U16}
    (h : Call.Fits s (.serviceData uuid16 data len)) :
    Stays s (gapAddServiceData uuid16 data len s) := by
  obtain ⟨hfirst, hsecond⟩ := h
  rw [gapAddServiceData_eq]
  rcases lt_or_ge s.capacity ((s.offset + 2 + (2 : ℕ)) % 256) with hfull | hroom
  · rw [add_refused hfull]
    exact stays_refl hcap _
  · simp only [FieldFits] at hfirst
    have hnew : (s.offset + 2 + (2 : ℕ)) % 256 = s.offset + 4 := by omega
    rw [hnew] at hroom ⊢
    obtain ⟨buf, hadd, -⟩ := add_accepted (2 + (2 : ℕ))
      ⟨.completeList16bitServiceIds, bytes (byteAt uuid16) 2⟩ h0 hroom (by simp; omega)
    rw [hadd]
    have hstays : Stays ⟨buf, s.offset + 4, s.capacity⟩
        (gapAddAdvDataField .serviceData data len ⟨buf, s.offset + 4, s.capacity⟩) :=
      (stays_field_iff (by simp only; omega) hroom).mpr (hsecond hroom)
    obtain ⟨ret, s', hs', hle, hle', heq⟩ := hstays
    exact ⟨ret, s', hs', by simp only at hle; omega, hle', heq⟩

lemma Call.stays {call : Call} (h0 : 0 ≤ s.offset) (hcap : s.offset ≤ s.capacity)
    (hmax : s.capacity < 2 ^ 31) (h : call.Fits s) : Stays s (call.run s) := by
  cases call with
  | flags b => exact (stays_flags_iff h0 hcap hmax).mpr h
  | advDataField type data len => exact (stays_field_iff h0 hcap).mpr h
  | deviceName name len => exact (stays_nonNull_iff h0 hcap).mpr h
  | serviceUuid16 uuid16 len => exact (stays_nonNull_iff h0 hcap).mpr h
  | serviceData uuid16 data len => exact stays_serviceData h0 hcap h
  | manufacturerSpecificData data len => exact (stays_nonNull_iff h0 hcap).mpr h

/-- In every run of calls that fit, the offset stays between 0 and the capacity, and the next call
that fits writes inside the buffer and does not move the offset back. For calls that add at most one
structure this holds only if they fit. -/
theorem adv_data_stays_in_buffer {buf : ℕ → U8} {capacity : ℤ} (h0 : 0 ≤ capacity)
    (hmax : capacity < 2 ^ 31) {tr : List Record}
    (hrun : Run (Guarded Call.Step fun s call => call.Fits s) (gapAdvDataNew buf capacity) tr s) :
    (0 ≤ s.offset ∧ s.offset ≤ capacity ∧ s.capacity = capacity) ∧
    (∀ call : Call, call.Fits s → Stays s (call.run s)) ∧
    ∀ call : Call, call.records.length ≤ 1 → Stays s (call.run s) → call.Fits s := by
  have hinv : 0 ≤ s.offset ∧ s.offset ≤ capacity ∧ s.capacity = capacity := by
    apply hrun.trace_invariant (fun _ s => 0 ≤ s.offset ∧ s.offset ≤ capacity ∧
      s.capacity = capacity)
    · rintro tr s call s' rs ⟨hs0, hs, rfl⟩ ⟨hfits, -, ret, hret⟩
      obtain ⟨ret', s₁, hrun', hle, hle', heq⟩ := Call.stays hs0 hs hmax hfits
      rw [hret] at hrun'
      cases hrun'
      exact ⟨hs0.trans hle, heq ▸ hle', heq⟩
    · exact ⟨le_rfl, h0, rfl⟩
  obtain ⟨hs0, hs, rfl⟩ := hinv
  refine ⟨⟨hs0, hs, rfl⟩, fun call => Call.stays hs0 hs hmax, ?_⟩
  intro call hone h
  cases call with
  | flags b => exact (stays_flags_iff hs0 hs hmax).mp h
  | advDataField type data len => exact (stays_field_iff hs0 hs).mp h
  | deviceName name len => exact (stays_nonNull_iff hs0 hs).mp h
  | serviceUuid16 uuid16 len => exact (stays_nonNull_iff hs0 hs).mp h
  | serviceData uuid16 data len => exact absurd hone (by simp [Call.records])
  | manufacturerSpecificData data len => exact (stays_nonNull_iff hs0 hs).mp h

/-- Flags and a name in an advertisement of 31 bytes. -/
theorem adv_data_stays_in_buffer_name :
    ∃ s, Run (Guarded Call.Step fun s call => call.Fits s) (gapAdvDataNew (fun _ => 0) 31)
        [⟨.flags, [6]⟩, ⟨.completeLocalName, [84, 84, 84, 84]⟩] s ∧
      0 ≤ s.offset ∧ s.offset ≤ 31 := by
  have hrun : Run (Guarded Call.Step fun s call => call.Fits s) (gapAdvDataNew (fun _ => 0) 31)
      ([⟨.flags, [6]⟩] ++ [⟨.completeLocalName, [84, 84, 84, 84]⟩]) _ :=
    (Run.single (a := Call.flags 6) ⟨by simp [Call.Fits, gapAdvDataNew], rfl, 3, rfl⟩).snoc
      (.deviceName (some fun _ => 84) 4) ⟨.inr (.inl (by decide)), rfl, 6, rfl⟩
  obtain ⟨⟨h0, hle, -⟩, -⟩ := adv_data_stays_in_buffer (by decide) (by decide) hrun
  exact ⟨_, hrun, h0, hle⟩

/-- A name of 255 bytes is written past the end of a buffer of 31 bytes: the new length is 1. And in
a buffer of 300 bytes, after a name of 253 bytes, another one moves the offset from 255 to 11. -/
theorem adv_data_leaves_buffer :
    gapAddDeviceName (some fun _ => 84) 255 (gapAdvDataNew (fun _ => 0) 31) = none ∧
    ∃ s, gapAddDeviceName (some fun _ => 84) 253 (gapAdvDataNew (fun _ => 0) 300) = some (255, s) ∧
      s.offset = 255 ∧
      (gapAddDeviceName (some fun _ => 84) 10 s).map (fun r => r.2.offset) = some 11 := by
  have hfield : ∀ (len : U8) (s : AdvData), gapAddDeviceName (some fun _ => 84) len s =
      s.add ((s.offset + 2 + len.toNat) % 256) (2 + len.toNat)
        ⟨.completeLocalName, bytes (fun _ => 84) len⟩ := fun len s =>
    gapAddAdvDataField_eq .completeLocalName (fun _ => 84) len s
  constructor
  · rw [hfield, add_fault (by decide) (by simp [gapAdvDataNew])]
  · obtain ⟨buf, hadd, -⟩ := add_accepted (s := gapAdvDataNew (fun _ => 0) 300) 255
      ⟨.completeLocalName, bytes (fun _ => 84) 253⟩ (by decide) (show (255 : ℤ) ≤ 300 by decide)
      (by simp [gapAdvDataNew])
    refine ⟨_, (hfield 253 _).trans hadd, rfl, ?_⟩
    rw [hfield]
    obtain ⟨buf', hadd', -⟩ := add_accepted (s := ⟨buf, 255, 300⟩) 12
      ⟨.completeLocalName, bytes (fun _ => 84) 10⟩ (by simp) (show (11 : ℤ) ≤ 300 by decide)
      (by simp)
    exact congrArg (Option.map fun r => r.2.offset) hadd'

/-! ### Reading the structures back -/

/-- One byte of length. -/
def lengthByte : Framing.Header U8 := ⟨1, fun l => (l.headD 0).toNat⟩

/-- The chain of structures in a list of bytes, each as type and data, and what is left. -/
def decode (l : List U8) : List (U8 × List U8) × List U8 :=
  let r := Framing.split lengthByte l
  (r.1.map fun payload => (payload.headD 0, payload.tail), r.2)

lemma decode_flatMap_encode (rs : List Record) (h : ∀ r ∈ rs, r.data.length < 255) :
    decode (rs.flatMap Record.encode) = (rs.map fun r => (r.type.toByte, r.data), []) := by
  have hsplit := Framing.split_flatMap lengthByte
    (fun r : Record => [BitVec.ofNat 8 (r.data.length + 1)])
    (fun r : Record => r.type.toByte :: r.data) (fun _ => rfl) (fun _ => by simp) rs
    (fun r hr => by
      have := h r hr
      simp [lengthByte]
      omega) (by decide)
  have hencode : (rs.flatMap Record.encode) = rs.flatMap fun r : Record =>
      [BitVec.ofNat 8 (r.data.length + 1)] ++ r.type.toByte :: r.data := rfl
  rw [decode, hencode, hsplit]
  simp

/-- The number of bytes that the structures of a call take. -/
def Call.size (call : Call) : ℕ := (call.records.flatMap Record.encode).length

/-- A call whose structures end within the capacity and within the range of a byte. -/
def Call.Room (s : AdvData) (call : Call) : Prop :=
  s.offset + call.size ≤ s.capacity ∧ s.offset + call.size ≤ 255

instance (s : AdvData) (call : Call) : Decidable (call.Room s) :=
  inferInstanceAs (Decidable (_ ∧ _))

/-- The call has returned `ret` and appended these structures, and nothing else has changed. -/
def Appends (s : AdvData) (ret : ℤ) (result : Option (ℤ × AdvData)) (rs : List Record) : Prop :=
  ∃ s', result = some (ret, s') ∧ s'.offset = s.offset + (rs.flatMap Record.encode).length ∧
    s'.capacity = s.capacity ∧
    s'.contents s'.offset = s.contents s.offset ++ rs.flatMap Record.encode

lemma appends_nil (ret : ℤ) : Appends s ret (some (ret, s)) [] := ⟨s, rfl, by simp, rfl, by simp⟩

lemma Appends.trans {ret ret' : ℤ} {result : Option (ℤ × AdvData)} {rs rs' : List Record}
    (h : Appends s ret (some (ret, s')) rs) (h' : Appends s' ret' result rs') :
    Appends s ret' result (rs ++ rs') := by
  obtain ⟨s₁, hs₁, hoffset, hcap, hcontents⟩ := h
  cases hs₁
  obtain ⟨s₂, hs₂, hoffset', hcap', hcontents'⟩ := h'
  refine ⟨s₂, hs₂, ?_, hcap'.trans hcap, ?_⟩
  · rw [hoffset', hoffset, List.flatMap_append, List.length_append, Nat.cast_add, add_assoc]
  · rw [hcontents', hcontents, List.flatMap_append, List.append_assoc]

lemma appends_add {newLen ret : ℤ} {r : Record} (h0 : 0 ≤ s.offset)
    (hlen : newLen = s.offset + r.encode.length) (hroom : newLen ≤ s.capacity) :
    Appends s ret (s.add newLen ret r) [r] := by
  obtain ⟨buf, hadd, hcontents⟩ := add_accepted ret r h0 hroom (hlen ▸ hroom)
  subst hlen
  exact ⟨_, hadd, by simp, rfl, by simpa using hcontents⟩

lemma appends_field (type : GapAdvertisementData) (data : ℕ → U8) (len : U8)
    (h0 : 0 ≤ s.offset) (hcap : s.offset + 2 + len.toNat ≤ s.capacity)
    (hbyte : s.offset + 2 + len.toNat ≤ 255) :
    Appends s (2 + len.toNat) (gapAddAdvDataField type data len s) [⟨type, bytes data len⟩] := by
  rw [gapAddAdvDataField_eq]
  apply appends_add h0
  · simp only [Record.length_encode, length_bytes, Nat.cast_add, Nat.cast_ofNat]
    omega
  · omega

lemma appends_nonNull {data : Option (ℕ → U8)} (h0 : 0 ≤ s.offset) {rs : List Record}
    (hrs : rs = data.toList.map fun data => ⟨type, bytes data len⟩)
    (hcap : s.offset + (rs.flatMap Record.encode).length ≤ s.capacity)
    (hbyte : s.offset + (rs.flatMap Record.encode).length ≤ 255) :
    ∃ ret, Appends s ret (gapAddNonNull type data len s) rs := by
  subst hrs
  cases data with
  | none => exact ⟨-1, appends_nil _⟩
  | some d =>
    simp only [Option.toList_some, List.map_singleton, List.flatMap_singleton,
      Record.length_encode, length_bytes, Nat.cast_add, Nat.cast_ofNat] at hcap hbyte
    exact ⟨_, appends_field _ _ _ h0 (by omega) (by omega)⟩

lemma Call.appends {call : Call} (h0 : 0 ≤ s.offset) (hroom : call.Room s) :
    ∃ ret, Appends s ret (call.run s) call.records := by
  obtain ⟨hcap, hbyte⟩ := hroom
  cases call with
  | flags b =>
    simp only [Call.size, Call.records, List.flatMap_singleton, Record.length_encode,
      List.length_singleton, Nat.reduceAdd, Nat.cast_ofNat] at hcap hbyte
    have hnew : toInt32 (s.offset + 3) = s.offset + 3 := by
      rw [toInt32, Int.bmod]
      omega
    refine ⟨3, ?_⟩
    rw [Call.run, gapAddFlags_eq, hnew]
    exact appends_add h0 rfl hcap
  | advDataField type data len =>
    simp only [Call.size, Call.records, List.flatMap_singleton, Record.length_encode,
      length_bytes, Nat.cast_add, Nat.cast_ofNat] at hcap hbyte
    exact ⟨_, appends_field _ _ _ h0 (by omega) (by omega)⟩
  | deviceName name len => exact appends_nonNull h0 rfl hcap hbyte
  | serviceUuid16 uuid16 len => exact appends_nonNull h0 rfl hcap hbyte
  | serviceData uuid16 data len =>
    have htwo : (2 : U8).toNat = 2 := rfl
    simp only [size, records, List.flatMap_cons, List.flatMap_nil, List.append_nil,
      List.length_append, Record.length_encode, List.length_cons, List.length_nil, length_bytes,
      Nat.cast_add, Nat.cast_ofNat] at hcap hbyte
    have hfirst := appends_field .completeList16bitServiceIds (byteAt uuid16) 2 h0 (by omega)
      (by omega)
    obtain ⟨s₁, hs₁, hoffset, hcapacity, hcontents⟩ := hfirst
    have hrun : (Call.serviceData uuid16 data len).run s =
        gapAddAdvDataField .serviceData data len s₁ := by
      show (gapAddAdvDataField .completeList16bitServiceIds (byteAt uuid16) 2 s).bind _ = _
      rw [hs₁]
      rfl
    simp only [List.flatMap_singleton, Record.length_encode, length_bytes, htwo] at hoffset
    have hsecond := appends_field (s := s₁) .serviceData data len (by omega)
      (by omega) (by omega)
    rw [hrun]
    have hfirst : Appends s (2 + (2 : ℕ)) (some (2 + (2 : ℕ), s₁))
        [⟨.completeList16bitServiceIds, bytes (byteAt uuid16) 2⟩] :=
      ⟨s₁, rfl, by simp [hoffset], hcapacity, hcontents⟩
    exact ⟨_, hfirst.trans hsecond⟩
  | manufacturerSpecificData data len => exact appends_nonNull h0 rfl hcap hbyte

/-- In every run of calls that have room, the buffer up to the offset is a chain of structures, and
reading it gives back those that were added, in the order of the calls; each further call that has
room returns. -/
theorem adv_data_read_back {buf : ℕ → U8} {capacity : ℤ} {tr : List Record}
    (hrun : Run (Guarded Call.Step fun s call => call.Room s) (gapAdvDataNew buf capacity) tr s) :
    decode (s.contents s.offset) = (tr.map fun r => (r.type.toByte, r.data), []) ∧
    (s.contents s.offset).length = s.offset ∧
    ∀ call : Call, call.Room s → ∃ ret s', call.run s = some (ret, s') := by
  have hinv : 0 ≤ s.offset ∧ s.offset ≤ 255 ∧
      s.contents s.offset = tr.flatMap Record.encode := by
    apply hrun.trace_invariant (fun tr s => 0 ≤ s.offset ∧ s.offset ≤ 255 ∧
      s.contents s.offset = tr.flatMap Record.encode)
    · rintro tr s call s' rs ⟨h0, hle, hcontents⟩ ⟨hroom, rfl, ret, hret⟩
      obtain ⟨ret', s₁, hs₁, hoffset, -, hcontents'⟩ := Call.appends h0 hroom
      rw [hret] at hs₁
      cases hs₁
      have hbyte : s.offset + call.size ≤ 255 := hroom.2
      rw [Call.size] at hbyte
      refine ⟨by omega, by omega, ?_⟩
      rw [hcontents', hcontents, List.flatMap_append]
    · exact ⟨le_rfl, by simp [gapAdvDataNew], rfl⟩
  obtain ⟨h0, hle, hcontents⟩ := hinv
  have hlength : (s.contents s.offset).length = s.offset := by
    simpa [AdvData.contents] using h0
  refine ⟨?_, hlength, ?_⟩
  · rw [hcontents] at hlength ⊢
    apply decode_flatMap_encode
    intro r hr
    have hsub :=
      (List.sublist_flatten_of_mem (List.mem_map_of_mem (f := Record.encode) hr)).length_le
    rw [← List.flatMap_def, Record.length_encode] at hsub
    omega
  · intro call hroom
    obtain ⟨ret, s', hs', -⟩ := Call.appends h0 hroom
    exact ⟨ret, s', hs'⟩

/-- Flags, the identifier of a service and its data. -/
theorem adv_data_read_back_service : ∃ s,
    Run (Guarded Call.Step fun s call => call.Room s) (gapAdvDataNew (fun _ => 0) 31)
      [⟨.flags, [6]⟩, ⟨.completeList16bitServiceIds, [0x01, 0x18]⟩, ⟨.serviceData, [7, 7, 7]⟩] s ∧
    decode (s.contents s.offset) =
      ([(0x01, [6]), (0x03, [0x01, 0x18]), (0x16, [7, 7, 7])], []) := by
  have hrun : Run (Guarded Call.Step fun s call => call.Room s) (gapAdvDataNew (fun _ => 0) 31)
      ([⟨.flags, [6]⟩] ++ [⟨.completeList16bitServiceIds, [0x01, 0x18]⟩, ⟨.serviceData, [7, 7, 7]⟩])
      _ :=
    (Run.single (a := Call.flags 6) ⟨by decide, rfl, 3, rfl⟩).snoc
      (.serviceData 0x1801 (fun _ => 7) 3) ⟨by decide, rfl, 5, rfl⟩
  exact ⟨_, hrun, (adv_data_read_back hrun).1⟩

end SimpleBle
