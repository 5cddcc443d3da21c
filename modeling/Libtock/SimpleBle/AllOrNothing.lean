import Libtock.SimpleBle.Advertisement

/-!
# What a builder reports

A builder that appends one structure either refuses it, or reports the bytes it has written.
`gap_add_service_data` appends two structures: it reports the size of the second only, and when that
one is refused the first is left in the buffer.
-/

namespace SimpleBle

open Core

variable {s : AdvData} {newLen ret : ℤ} {r : Record} {call : Call}

/-- A negative result, and nothing has changed; or a result that is the increase of the offset. -/
def AllOrNothing (s : AdvData) (result : Option (ℤ × AdvData)) : Prop :=
  ∃ ret s', result = some (ret, s') ∧
    (ret < 0 ∧ s'.offset = s.offset ∧ s'.contents s.capacity = s.contents s.capacity ∨
      0 ≤ ret ∧ s'.offset = s.offset + ret)

lemma not_allOrNothing_none : ¬ AllOrNothing s none := by
  rintro ⟨ret, s', h, -⟩
  cases h

lemma allOrNothing_refused (s : AdvData) : AllOrNothing s (some (-1, s)) :=
  ⟨-1, s, rfl, .inl ⟨by decide, rfl, rfl⟩⟩

/-! ### One structure -/

/-- A write before the buffer is a fault. -/
lemma add_before (h : newLen ≤ s.capacity) (h0 : s.offset < 0) : s.add newLen ret r = none := by
  have hwrite : ∀ x, s.write s.offset x = none := fun x => if_neg fun hi => by omega
  rw [AdvData.add, if_neg (not_lt.mpr h), Record.encode, AdvData.copy, hwrite]
  rfl

/-- A new length that is computed without overflow is enough. -/
lemma allOrNothing_add_iff (hret : ret = r.encode.length)
    (hlen : 0 ≤ s.offset → newLen = s.offset + r.encode.length) :
    AllOrNothing s (s.add newLen ret r) ↔ s.capacity < newLen ∨ 0 ≤ s.offset := by
  rcases lt_or_ge s.capacity newLen with hfull | hroom
  · rw [add_refused hfull]
    exact iff_of_true (allOrNothing_refused s) (.inl hfull)
  rcases lt_or_ge s.offset 0 with hneg | hpos
  · rw [add_before hroom hneg]
    exact iff_of_false not_allOrNothing_none (by omega)
  · have hnew := hlen hpos
    obtain ⟨buf, hadd, -⟩ := add_accepted ret r hpos hroom (hnew ▸ hroom)
    rw [hadd]
    refine iff_of_true ⟨ret, _, rfl, .inr ⟨?_, ?_⟩⟩ (.inr hpos)
    · omega
    · simp only [hnew, hret]

/-! ### The builders -/

/-- `gap_add_adv_data_field` refuses a field of this length. -/
def FieldRefused (s : AdvData) (len : ℕ) : Prop := s.capacity < (s.offset + 2 + len) % 256

instance (s : AdvData) (len : ℕ) : Decidable (FieldRefused s len) :=
  inferInstanceAs (Decidable (_ < _))

/-- The call is refused before it has written anything: its pointer is `NULL`, or the new length of
the first structure exceeds the capacity. -/
def Call.Refused (s : AdvData) : Call → Prop
  | flags _ => s.capacity < toInt32 (s.offset + 3)
  | advDataField _ _ len => FieldRefused s len.toNat
  | deviceName name len => name = none ∨ FieldRefused s len.toNat
  | serviceUuid16 uuid16 len => uuid16 = none ∨ FieldRefused s len.toNat
  | serviceData _ _ _ => FieldRefused s 2
  | manufacturerSpecificData data len => data = none ∨ FieldRefused s len.toNat

lemma allOrNothing_field_iff {type : GapAdvertisementData} {data : ℕ → U8} {len : U8}
    (h : s.offset + (len.toNat + 2) < 256) :
    AllOrNothing s (gapAddAdvDataField type data len s) ↔
      FieldRefused s len.toNat ∨ 0 ≤ s.offset := by
  have hlen : ((⟨type, bytes data len⟩ : Record).encode.length : ℤ) = len.toNat + 2 := by simp
  rw [gapAddAdvDataField_eq, allOrNothing_add_iff (by omega) (by omega), FieldRefused]

lemma allOrNothing_nonNull_iff {type : GapAdvertisementData} {data : Option (ℕ → U8)} {len : U8}
    (h : data ≠ none → s.offset + (len.toNat + 2) < 256) :
    AllOrNothing s (gapAddNonNull type data len s) ↔
      (data = none ∨ FieldRefused s len.toNat) ∨ 0 ≤ s.offset := by
  cases data with
  | none => exact iff_of_true (allOrNothing_refused s) (.inl (.inl rfl))
  | some data =>
    rw [gapAddNonNull, allOrNothing_field_iff (h (by simp))]
    simp

lemma allOrNothing_flags_iff {b : U8} (h : s.offset + 3 < 256) :
    AllOrNothing s (gapAddFlags b s) ↔
      s.capacity < toInt32 (s.offset + 3) ∨ 0 ≤ s.offset := by
  rw [gapAddFlags_eq]
  refine allOrNothing_add_iff rfl fun hpos => ?_
  have hlen : ((⟨.flags, [b]⟩ : Record).encode.length : ℤ) = 3 := rfl
  rw [toInt32, Int.bmod, hlen]
  omega

/-- Once the first structure is in the buffer, neither result is right. -/
lemma allOrNothing_serviceData_iff {uuid16 : U16} {data : ℕ → U8} {len : U8}
    (h : s.offset + (4 + (len.toNat + 2)) < 256) :
    AllOrNothing s (gapAddServiceData uuid16 data len s) ↔ FieldRefused s 2 := by
  rw [gapAddServiceData_eq]
  rcases lt_or_ge s.capacity ((s.offset + 2 + (2 : ℕ)) % 256) with hfull | hroom
  · rw [add_refused hfull]
    exact iff_of_true (allOrNothing_refused s) hfull
  refine iff_of_false ?_ (not_lt.mpr hroom)
  rcases lt_or_ge s.offset 0 with hneg | hpos
  · rw [add_before hroom hneg]
    exact not_allOrNothing_none
  have hnew : (s.offset + 2 + (2 : ℕ)) % 256 = s.offset + 4 := by omega
  rw [hnew] at hroom ⊢
  obtain ⟨buf, hadd, -⟩ := add_accepted (2 + (2 : ℕ))
    ⟨.completeList16bitServiceIds, bytes (byteAt uuid16) 2⟩ hpos hroom (by simp; omega)
  rw [hadd]
  show ¬ AllOrNothing s (gapAddAdvDataField .serviceData data len ⟨buf, s.offset + 4, s.capacity⟩)
  rw [gapAddAdvDataField_eq]
  rintro ⟨ret, s', hsecond, hor⟩
  rw [AdvData.add] at hsecond
  split_ifs at hsecond with hfull
  · cases hsecond
    simp only at hor
    omega
  · obtain ⟨s₁, -, hs₁⟩ := Option.map_eq_some_iff.mp hsecond
    cases hs₁
    simp only at hor
    omega

/-- A call whose structures end before byte 256 is all-or-nothing and reports what it wrote, if and
only if it is refused before it writes, or adds at most one structure (and the offset is one that
the builders can leave). -/
theorem builder_allOrNothing_iff (h : s.offset + call.size < 256) :
    AllOrNothing s (call.run s) ↔
      call.Refused s ∨ 0 ≤ s.offset ∧ call.records.length ≤ 1 := by
  have hone : ∀ {P : Prop} {c : Call}, c.records.length ≤ 1 →
      (P ∨ 0 ≤ s.offset ↔ P ∨ 0 ≤ s.offset ∧ c.records.length ≤ 1) :=
    fun hc => or_congr_right (and_iff_left hc).symm
  have hnonNull : ∀ {β : Type} {data : Option β} {f : β → Record},
      (data.toList.map f).length ≤ 1 := by
    intro β data f
    cases data <;> simp
  cases call with
  | flags b =>
    rw [Call.run, allOrNothing_flags_iff (by simpa [Call.size, Call.records] using h)]
    exact hone le_rfl
  | advDataField type data len =>
    rw [Call.run, allOrNothing_field_iff (by simpa [Call.size, Call.records] using h)]
    exact hone le_rfl
  | deviceName name len =>
    rw [Call.run, gapAddDeviceName, allOrNothing_nonNull_iff]
    · exact hone hnonNull
    · intro hne
      obtain ⟨name, rfl⟩ := Option.ne_none_iff_exists'.mp hne
      simpa [Call.size, Call.records] using h
  | serviceUuid16 uuid16 len =>
    rw [Call.run, gapAddServiceUuid16, allOrNothing_nonNull_iff]
    · exact hone hnonNull
    · intro hne
      obtain ⟨uuid16, rfl⟩ := Option.ne_none_iff_exists'.mp hne
      simpa [Call.size, Call.records] using h
  | serviceData uuid16 data len =>
    rw [Call.run, allOrNothing_serviceData_iff (by simpa [Call.size, Call.records] using h)]
    simp [Call.Refused, Call.records]
  | manufacturerSpecificData data len =>
    rw [Call.run, gapAddManufacturerSpecificData, allOrNothing_nonNull_iff]
    · exact hone hnonNull
    · intro hne
      obtain ⟨data, rfl⟩ := Option.ne_none_iff_exists'.mp hne
      simpa [Call.size, Call.records] using h

/-- A name that fits, and one that does not. -/
theorem builder_allOrNothing_iff_name :
    (AllOrNothing (gapAdvDataNew (fun _ => 0) 31)
        ((Call.deviceName (some fun _ => 84) 29).run (gapAdvDataNew (fun _ => 0) 31)) ↔
      (Call.deviceName (some fun _ => 84) 29).Refused (gapAdvDataNew (fun _ => 0) 31) ∨
        (0 : ℤ) ≤ 0 ∧ (Call.deviceName (some fun _ => 84) 29).records.length ≤ 1) ∧
    (AllOrNothing (gapAdvDataNew (fun _ => 0) 31)
        ((Call.deviceName (some fun _ => 84) 30).run (gapAdvDataNew (fun _ => 0) 31)) ↔
      (Call.deviceName (some fun _ => 84) 30).Refused (gapAdvDataNew (fun _ => 0) 31) ∨
        (0 : ℤ) ≤ 0 ∧ (Call.deviceName (some fun _ => 84) 30).records.length ≤ 1) :=
  ⟨builder_allOrNothing_iff (by decide), builder_allOrNothing_iff (by decide)⟩

/-- In an empty buffer of 31 bytes: with 26 bytes of data the first structure is left behind, with 3
bytes the result is 5 although the offset is 9. -/
theorem serviceData_not_allOrNothing :
    ¬ AllOrNothing (gapAdvDataNew (fun _ => 0) 31)
        ((Call.serviceData 0x1801 (fun _ => 84) 26).run (gapAdvDataNew (fun _ => 0) 31)) ∧
      ¬ AllOrNothing (gapAdvDataNew (fun _ => 0) 31)
        ((Call.serviceData 0x1801 (fun _ => 84) 3).run (gapAdvDataNew (fun _ => 0) 31)) := by
  constructor <;>
    exact fun h => absurd ((allOrNothing_serviceData_iff (by decide)).mp h) (by decide)

end SimpleBle
