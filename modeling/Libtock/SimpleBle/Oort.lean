import Libtock.SimpleBle.Advertisement

/-!
# Looking for a service in an advertisement

`witenergy` walks over the structures of the advertisements it hears until one of them is the
identifier of the service of the meter. It trusts the length of each structure, and reads its type
before it knows that the report goes that far.

The codes of the two structures that hold identifiers of 16 bytes are those of a header of the
Nordic SDK: `moreAvailable` and `complete` stand for them.
-/

namespace SimpleBle

open Core

/-- `OORT_BASE_UUID` -/
def oortBaseUuid : List U8 :=
  [0x00, 0x00, 0x48, 0x43, 0x45, 0x54, 0x43, 0x49, 0x47, 0x4f, 0x4c, 0x49, 0xe0, 0xfe, 0x00, 0x00]

section Code

variable (moreAvailable complete : U8) (data : ℕ → U8)

/-- The body of the loop: whether the structure at `index` is the one, and what was read. -/
def oortStructure (index : ℕ) : Bool × List ℕ :=
  let fieldLength := data index
  let fieldType := data (index + 1)
  let compared := List.range' (index + 2) 16
  if (fieldType = moreAvailable ∨ fieldType = complete) ∧ (fieldLength.toNat : ℤ) - 1 = 16 then
    (decide (compared.map data = oortBaseUuid), index :: (index + 1) :: compared)
  else (false, [index, index + 1])

def oortLoop (dlen index : ℕ) : Bool × List ℕ :=
  if index < dlen then
    let here := oortStructure moreAvailable complete data index
    if here.1 then here
    else
      let rest := oortLoop dlen (index + (data index).toNat + 1)
      (rest.1, here.2 ++ rest.2)
  else (false, [])
termination_by dlen - index

/-- `__is_oort_service_present`: the result, and the bytes of the report that were read. -/
def isOortServicePresent (dlen : U8) : Bool × List ℕ :=
  oortLoop moreAvailable complete data dlen.toNat 0

end Code

/-- The structure holds the identifier of the service. -/
def IsOort (moreAvailable complete : U8) (f : U8 × List U8) : Prop :=
  (f.1 = moreAvailable ∨ f.1 = complete) ∧ f.2 = oortBaseUuid

/-- A structure as it is sent: length, type, data. -/
def encodeStructure (f : U8 × List U8) : List U8 := BitVec.ofNat 8 (f.2.length + 1) :: f.1 :: f.2

variable (moreAvailable complete : U8) {data : ℕ → U8} {f : U8 × List U8}
  {fs : List (U8 × List U8)} {rest : List U8} {start dlen k : ℕ}

/-! ### One structure -/

/-- What lies in memory from `start` on, if a structure and then `rest` do. -/
lemma structure_in_memory
    (h : (List.range' start ((encodeStructure f ++ rest).length)).map data =
      encodeStructure f ++ rest) :
    data start = BitVec.ofNat 8 (f.2.length + 1) ∧ data (start + 1) = f.1 ∧
      (List.range' (start + 2) f.2.length).map data = f.2 ∧
      (List.range' (start + (f.2.length + 2)) rest.length).map data = rest := by
  have hlen : (encodeStructure f ++ rest).length = f.2.length + rest.length + 1 + 1 := by
    simp [encodeStructure]
  rw [hlen, List.range'_succ, List.range'_succ, List.map_cons, List.map_cons, encodeStructure,
    List.cons_append, List.cons_append, List.cons.injEq, List.cons.injEq,
    ← List.range'_append_1, List.map_append] at h
  obtain ⟨hlength, htype, htail⟩ := h
  obtain ⟨hdata, hrest⟩ := List.append_inj htail (by simp)
  have hnext : start + 1 + 1 + f.2.length = start + (f.2.length + 2) := by omega
  exact ⟨hlength, htype, hdata, hnext ▸ hrest⟩

/-- The body of the loop recognises the structure, and reads nothing behind it. -/
lemma oortStructure_eq (hlen : f.2.length < 255)
    (hlength : data start = BitVec.ofNat 8 (f.2.length + 1)) (htype : data (start + 1) = f.1)
    (hdata : (List.range' (start + 2) f.2.length).map data = f.2) :
    ((oortStructure moreAvailable complete data start).1 = true ↔
        IsOort moreAvailable complete f) ∧
      ∀ i ∈ (oortStructure moreAvailable complete data start).2,
        i < start + (f.2.length + 2) := by
  have htoNat : (data start).toNat = f.2.length + 1 := by
    rw [hlength, BitVec.toNat_ofNat]
    omega
  by_cases hsize : f.2.length = 16
  · rw [hsize] at hdata htoNat
    have hcond : ((data start).toNat : ℤ) - 1 = 16 := by omega
    simp only [oortStructure, htype, hcond, and_true, hdata, IsOort]
    split_ifs with hor
    · refine ⟨by simp [hor], fun i hi => ?_⟩
      simp only [List.mem_cons, List.mem_range'_1] at hi
      omega
    · refine ⟨by simp [hor], fun i hi => ?_⟩
      simp only [List.mem_cons, List.not_mem_nil, or_false] at hi
      omega
  · have hcond : ((data start).toNat : ℤ) - 1 ≠ 16 := by omega
    have hnot : ¬ IsOort moreAvailable complete f := fun h => hsize (by simp [h.2, oortBaseUuid])
    simp only [oortStructure, hcond, and_false, if_false]
    refine ⟨by simp [hnot], fun i hi => ?_⟩
    simp only [List.mem_cons, List.not_mem_nil, or_false] at hi
    omega

/-! ### The loop -/

lemma oortLoop_of_le (h : dlen ≤ start) :
    oortLoop moreAvailable complete data dlen start = (false, []) := by
  rw [oortLoop, if_neg (not_lt.mpr h)]

/-- Zeros behind the last structure count as structures without a type; the type of the last zero
is read behind the report. -/
lemma oortLoop_zeros (h : (List.range' start k).map data = List.replicate k 0) :
    (oortLoop moreAvailable complete data (start + k) start).1 = false ∧
      ((∀ i ∈ (oortLoop moreAvailable complete data (start + k) start).2, i < start + k) ↔
        k = 0) := by
  induction k generalizing start with
  | zero => simp [oortLoop_of_le]
  | succ k ih =>
    rw [List.range'_succ, List.map_cons, List.replicate_succ, List.cons.injEq] at h
    obtain ⟨hzero, hzeros⟩ := h
    have hhere : oortStructure moreAvailable complete data start = (false, [start, start + 1]) := by
      rw [oortStructure, hzero]
      exact if_neg fun h => absurd h.2 (by decide)
    have hnext : start + (data start).toNat + 1 = start + 1 := by
      rw [hzero]
      rfl
    have hend : start + (k + 1) = start + 1 + k := by omega
    rw [oortLoop, if_pos (by omega), hnext]
    simp only [hhere, Bool.false_eq_true, if_false]
    rw [hend]
    obtain ⟨hfound, hreads⟩ := ih hzeros
    refine ⟨hfound, ?_⟩
    simp only [Nat.add_eq_zero_iff, Nat.one_ne_zero, and_false, iff_false]
    intro hall
    have hk : k = 0 := hreads.mp fun i hi => hall i (List.mem_append_right _ hi)
    have hlt := hall (start + 1) (by simp)
    omega

/-- Over a chain of structures and zeros behind it, the loop finds the service exactly if one of the
structures is it, and reads only bytes of the report unless it comes to a zero. -/
lemma oortLoop_chain (hlen : ∀ f ∈ fs, f.2.length < 255)
    (h : (List.range' start (fs.flatMap encodeStructure ++ List.replicate k 0).length).map data =
      fs.flatMap encodeStructure ++ List.replicate k 0)
    (hend : dlen = start + (fs.flatMap encodeStructure ++ List.replicate k 0).length) :
    ((oortLoop moreAvailable complete data dlen start).1 = true ↔
        ∃ f ∈ fs, IsOort moreAvailable complete f) ∧
      ((∀ i ∈ (oortLoop moreAvailable complete data dlen start).2, i < dlen) ↔
        k = 0 ∨ ∃ f ∈ fs, IsOort moreAvailable complete f) := by
  induction fs generalizing start with
  | nil =>
    rw [List.flatMap_nil, List.nil_append, List.length_replicate] at h hend
    subst hend
    obtain ⟨hfound, hreads⟩ := oortLoop_zeros moreAvailable complete h
    simp [hfound, hreads]
  | cons f fs ih =>
    rw [List.flatMap_cons, List.append_assoc] at h hend
    obtain ⟨hlength, htype, hdata, hrest⟩ := structure_in_memory h
    have hlenf := hlen f List.mem_cons_self
    obtain ⟨hhere, hreads⟩ :=
      oortStructure_eq moreAvailable complete hlenf hlength htype hdata
    have hsize : (encodeStructure f).length = f.2.length + 2 := by simp [encodeStructure]
    rw [List.length_append, hsize, ← Nat.add_assoc] at hend
    have hnext : start + (data start).toNat + 1 = start + (f.2.length + 2) := by
      rw [hlength, BitVec.toNat_ofNat]
      omega
    obtain ⟨hfound', hreads'⟩ := ih (fun f hf => hlen f (List.mem_cons_of_mem _ hf)) hrest hend
    rw [oortLoop, if_pos (by omega), hnext]
    by_cases hf : IsOort moreAvailable complete f
    · simp only [hhere.mpr hf, if_true, List.exists_mem_cons_iff, hf, true_or, or_true, iff_true,
        true_and]
      intro i hi
      have hlt := hreads i hi
      omega
    · have hfalse : (oortStructure moreAvailable complete data start).1 = false :=
        Bool.eq_false_of_not_eq_true (mt hhere.mp hf)
      simp only [hfalse, Bool.false_eq_true, if_false, List.exists_mem_cons_iff, hf, false_or]
      refine ⟨hfound', ?_⟩
      rw [← hreads']
      constructor
      · intro hall i hi
        exact hall i (List.mem_append_right _ hi)
      · intro hall i hi
        rcases List.mem_append.mp hi with hi | hi
        · have hlt := hreads i hi
          omega
        · exact hall i hi

/-! ### Together with the builders -/

/-- A report of what any run of the builders has put into the buffer, filled up with zeros: the
service is found exactly if a call has added its identifier, and the bytes that are read lie in the
report exactly if it is found or there are no zeros. -/
theorem oort_finds_what_was_built {buf : ℕ → U8} {capacity : ℤ} {tr : List Record} {s : AdvData}
    (hrun : Run (Guarded Call.Step fun s call => call.Room s) (gapAdvDataNew buf capacity) tr s)
    (moreAvailable complete dlen : U8) (data : ℕ → U8) (k : ℕ)
    (hdata : (List.range dlen.toNat).map data = s.contents s.offset ++ List.replicate k 0) :
    ((isOortServicePresent moreAvailable complete data dlen).1 = true ↔
        ∃ r ∈ tr, IsOort moreAvailable complete (r.type.toByte, r.data)) ∧
      ((∀ i ∈ (isOortServicePresent moreAvailable complete data dlen).2, i < dlen.toNat) ↔
        k = 0 ∨ ∃ r ∈ tr, IsOort moreAvailable complete (r.type.toByte, r.data)) := by
  have hcontents : s.contents s.offset = tr.flatMap Record.encode := by
    have hinv : 0 ≤ s.offset ∧ s.contents s.offset = tr.flatMap Record.encode := by
      apply hrun.trace_invariant (fun tr s => 0 ≤ s.offset ∧
        s.contents s.offset = tr.flatMap Record.encode)
      · rintro tr s call s' rs ⟨h0, hcontents⟩ ⟨hroom, rfl, ret, hret⟩
        obtain ⟨ret', s₁, hs₁, hoffset, -, hcontents'⟩ := Call.appends h0 hroom
        rw [hret] at hs₁
        cases hs₁
        exact ⟨by omega, by rw [hcontents', hcontents, List.flatMap_append]⟩
      · exact ⟨le_rfl, rfl⟩
    exact hinv.2
  have hflat : tr.flatMap Record.encode =
      (tr.map fun r => (r.type.toByte, r.data)).flatMap encodeStructure := by
    rw [List.flatMap_map]
    rfl
  rw [hcontents, hflat] at hdata
  have hlength := congrArg List.length hdata
  rw [List.length_map, List.length_range] at hlength
  have hlen : ∀ f ∈ tr.map (fun r => (r.type.toByte, r.data)), f.2.length < 255 := by
    intro f hf
    have hmem : encodeStructure f ∈
        (tr.map fun r => (r.type.toByte, r.data)).map encodeStructure := List.mem_map_of_mem hf
    have hsub := (List.sublist_flatten_of_mem hmem).length_le
    rw [← List.flatMap_def] at hsub
    have hbyte := dlen.isLt
    simp only [encodeStructure, List.length_cons, List.length_append] at hsub hlength
    omega
  rw [List.range_eq_range', hlength] at hdata
  have hchain := oortLoop_chain moreAvailable complete hlen hdata
    (show dlen.toNat = 0 + _ by rw [Nat.zero_add, hlength])
  simpa [isOortServicePresent] using hchain

/-- Flags and the identifier of the meter, filled up to 31 bytes. -/
def meterReport : List U8 := [2, 1, 6, 17, 7] ++ oortBaseUuid ++ List.replicate 10 0

theorem oort_finds_what_was_built_meter : ∃ tr s,
    Run (Guarded Call.Step fun s call => call.Room s) (gapAdvDataNew (fun _ => 0) 31) tr s ∧
      (isOortServicePresent 6 7 (fun i => meterReport.getD i 0) 31).1 = true ∧
      ∀ i ∈ (isOortServicePresent 6 7 (fun i => meterReport.getD i 0) 31).2, i < 31 := by
  have hrun : Run (Guarded Call.Step fun s call => call.Room s) (gapAdvDataNew (fun _ => 0) 31)
      ([⟨.flags, [6]⟩] ++ [⟨.completeList128bitServiceIds, oortBaseUuid⟩]) _ :=
    (Run.single (a := Call.flags 6) ⟨by decide, rfl, 3, rfl⟩).snoc
      (.advDataField .completeList128bitServiceIds (fun i => oortBaseUuid.getD i 0) 16)
      ⟨by decide, rfl, 18, rfl⟩
  have hspec := oort_finds_what_was_built hrun 6 7 31 (fun i => meterReport.getD i 0) 10 (by decide)
  have hfound : ∃ r ∈ [(⟨.flags, [6]⟩ : Record)] ++ [⟨.completeList128bitServiceIds, oortBaseUuid⟩],
      IsOort 6 7 (r.type.toByte, r.data) :=
    ⟨⟨.completeList128bitServiceIds, oortBaseUuid⟩, by simp, .inr rfl, rfl⟩
  exact ⟨_, _, hrun, hspec.1.mpr hfound, hspec.2.mpr (.inr hfound)⟩

end SimpleBle
