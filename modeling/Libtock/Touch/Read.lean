import Libtock.Touch.MultiTouch

/-!
# Reading touches

`num_touches` is a truncated copy of the number of records that were allocated, so it never exceeds
it while there is a buffer. `read_touch` and `read_touch_full` compare an `int` index with it from
above only.
-/

namespace Touch

open Tock

/-- `touch_t` -/
structure TouchT where
  id : BitVec 8
  status : BitVec 8
  x : BitVec 16
  y : BitVec 16
  size : BitVec 8
  pressure : BitVec 8

/-- What `read_touch` stores through its out-pointers. -/
structure Reading where
  id : BitVec 8
  status : BitVec 8
  x : BitVec 16
  y : BitVec 16

/-- What `read_touch_full` stores. -/
structure FullReading extends Reading where
  size : BitVec 8
  pressure : BitVec 8

def TouchT.reading (t : TouchT) : Reading := ⟨t.id, t.status, t.x, t.y⟩

/-- The number of records in the buffer. -/
def State.records (s : State) : ℕ :=
  match s.multiTouchBuffer with
  | some buffer => (buffer.size / sizeofTouch).toNat
  | none => 0

/-- `multi_touch_buffer[index]`. There is no result outside the buffer. -/
def multiTouchBufferAt (touches : ℕ → TouchT) (index : ℤ) (s : State) : Option TouchT :=
  if 0 ≤ index ∧ index < s.records then some (touches index.toNat) else none

/-- The kernel has filled the records with `touches`. -/
def readTouch (touches : ℕ → TouchT) (index : ℤ) (s : State) : Option (ℤ × Option Reading) :=
  if index < s.numTouches.toNat then
    match s.multiTouchBuffer with
    | some _ => do
      let touch ← multiTouchBufferAt touches index s
      some (returncodeSuccess, some touch.reading)
    | none => some (returncodeENomem, none)
  else some (returncodeEInval, none)

def readTouchFull (touches : ℕ → TouchT) (index : ℤ) (s : State) :
    Option (ℤ × Option FullReading) :=
  match s.multiTouchBuffer with
  | some _ => do
    let (err, reading) ← readTouch touches index s
    if err = returncodeSuccess then
      let touch ← multiTouchBufferAt touches index s
      some (err, reading.map fun r => ⟨r, touch.size, touch.pressure⟩)
    else some (err, none)
  | none => some (returncodeENomem, none)

/-! ### The number of touches and the buffer -/

/-- While there is a buffer, it has a record for every touch. -/
def Backed (s : State) : Prop := s.multiTouchBuffer.isSome → s.numTouches.toNat ≤ s.records

lemma setWidth_le_records (maxTouches : U32) :
    (maxTouches.setWidth 8).toNat ≤ (maxTouches * sizeofTouch / sizeofTouch).toNat := by
  have hsize : sizeofTouch.toNat = 8 := rfl
  rw [BitVec.toNat_udiv, BitVec.toNat_mul, BitVec.toNat_setWidth, hsize]
  omega

lemma Call.backed_run {s : State} (hs : Backed s) (c : Call) : Backed (c.run s) := by
  obtain ⟨block, allow, subscribe, cb, ud, maxTouches⟩ := c
  obtain ⟨buffer, numTouches, allowed, subscription⟩ := s
  cases cb with
  | none => cases buffer <;> simp [Call.run, multiTouchSetCallback, Backed]
  | some cb =>
    cases buffer with
    | some buffer => exact hs
    | none =>
      cases block with
      | none => exact hs
      | some p =>
        have hle := setWidth_le_records maxTouches
        cases allow <;> cases subscribe <;>
          simp_all [Call.run, multiTouchSetCallback, touchAllow, touchSubscribe, Backed,
            State.records]

lemma backed_foldl (calls : List Call) {s : State} (hs : Backed s) :
    Backed (calls.foldl Call.run s) :=
  calls.foldlRecOn Call.run hs fun _ h c _ => c.backed_run h

/-! ### Where a read accesses the buffer -/

/-- A read that comes to return `r` stays inside the records, and succeeds at those that
`num_touches` counts. -/
def Promised (s : State) (index : ℤ) (r : Option ℤ) : Prop :=
  ∃ err, r = some err ∧
    (err = returncodeSuccess ↔ 0 ≤ index ∧ index < s.records ∧ index < s.numTouches.toNat)

section

variable {s : State} {touches : ℕ → TouchT} {index : ℤ} {buffer : Region}

lemma readTouch_of_neg (hbuffer : s.multiTouchBuffer = some buffer) (h : index < 0) :
    readTouch touches index s = none := by
  have hlt : index < s.numTouches.toNat := by omega
  have hat : multiTouchBufferAt touches index s = none :=
    if_neg fun hin => absurd hin.1 (not_le.mpr h)
  simp [readTouch, hbuffer, hlt, hat]

lemma promised_of_failure {r : Option ℤ} (err : ℤ) (hr : r = some err)
    (herr : err ≠ returncodeSuccess)
    (hout : ¬ (0 ≤ index ∧ index < s.records ∧ index < s.numTouches.toNat)) :
    Promised s index r :=
  ⟨err, hr, iff_of_false herr hout⟩

/-- Without a buffer there are no records. -/
lemma out_of_none (hbuffer : s.multiTouchBuffer = none) :
    ¬ (0 ≤ index ∧ index < s.records ∧ index < s.numTouches.toNat) := by
  simp only [State.records, hbuffer]
  omega

lemma promised_readTouch_of_none (hbuffer : s.multiTouchBuffer = none) :
    Promised s index ((readTouch touches index s).map Prod.fst) := by
  by_cases hlt : index < s.numTouches.toNat
  · exact promised_of_failure returncodeENomem (by simp [readTouch, hlt, hbuffer])
      (by decide) (out_of_none hbuffer)
  · exact promised_of_failure returncodeEInval (by simp [readTouch, hlt])
      (by decide) (out_of_none hbuffer)

lemma promised_readTouch_of_nonneg (hs : Backed s) (hbuffer : s.multiTouchBuffer = some buffer)
    (h : 0 ≤ index) : Promised s index ((readTouch touches index s).map Prod.fst) := by
  by_cases hlt : index < s.numTouches.toNat
  · have hle := hs (by simp [hbuffer])
    have hin : 0 ≤ index ∧ index < s.records := ⟨h, by omega⟩
    refine ⟨returncodeSuccess, ?_, iff_of_true rfl ⟨hin.1, hin.2, hlt⟩⟩
    simp [readTouch, hlt, hbuffer, multiTouchBufferAt, hin]
  · exact promised_of_failure returncodeEInval (by simp [readTouch, hlt])
      (by decide) fun hin => hlt hin.2.2

lemma promised_readTouch_iff (hs : Backed s) :
    Promised s index ((readTouch touches index s).map Prod.fst) ↔
      s.multiTouchBuffer = none ∨ 0 ≤ index := by
  cases hbuffer : s.multiTouchBuffer with
  | none => exact iff_of_true (promised_readTouch_of_none hbuffer) (.inl rfl)
  | some buffer =>
    constructor
    · rintro ⟨err, hread, -⟩
      by_contra hneg
      rw [readTouch_of_neg hbuffer (by simpa using hneg)] at hread
      cases hread
    · rintro (hnone | hnonneg)
      · cases hnone
      · exact promised_readTouch_of_nonneg hs hbuffer hnonneg

/-- Where `read_touch` succeeds, `read_touch_full` reads the same record once more. -/
lemma readTouchFull_fst (hbuffer : s.multiTouchBuffer = some buffer) :
    (readTouchFull touches index s).map Prod.fst = (readTouch touches index s).map Prod.fst := by
  have hne : returncodeEInval ≠ returncodeSuccess := by decide
  simp only [readTouchFull, readTouch, hbuffer]
  by_cases hlt : index < s.numTouches.toNat
  · cases hat : multiTouchBufferAt touches index s <;> simp [hlt]
  · simp [hlt, hne]

lemma promised_readTouchFull_iff (hs : Backed s) :
    Promised s index ((readTouchFull touches index s).map Prod.fst) ↔
      s.multiTouchBuffer = none ∨ 0 ≤ index := by
  cases hbuffer : s.multiTouchBuffer with
  | none =>
    refine iff_of_true ?_ (.inl rfl)
    exact promised_of_failure returncodeENomem (by simp [readTouchFull, hbuffer]) (by decide)
      (out_of_none hbuffer)
  | some buffer => rw [readTouchFull_fst hbuffer, promised_readTouch_iff hs, hbuffer]

end

/-- After every sequence of registrations, a read is as promised exactly at an index that is not
negative, or while there is no buffer. -/
theorem reads_promised_iff (subscription : Subscription (Option Ptr) Ptr) (calls : List Call)
    (touches : ℕ → TouchT) (index : ℤ) :
    let s := calls.foldl Call.run (initial subscription)
    (Promised s index ((readTouch touches index s).map Prod.fst) ↔
        s.multiTouchBuffer = none ∨ 0 ≤ index) ∧
      (Promised s index ((readTouchFull touches index s).map Prod.fst) ↔
        s.multiTouchBuffer = none ∨ 0 ≤ index) := by
  have hs : Backed (calls.foldl Call.run (initial subscription)) :=
    backed_foldl calls fun h => absurd h Bool.false_ne_true
  exact ⟨promised_readTouch_iff hs, promised_readTouchFull_iff hs⟩

/-- The record before the first one. -/
theorem reads_not_promised :
    ¬ ∀ (calls : List Call) (touches : ℕ → TouchT) (index : ℤ),
      let s := calls.foldl Call.run (initial ⟨none, 0⟩)
      Promised s index ((readTouch touches index s).map Prod.fst) ∧
        Promised s index ((readTouchFull touches index s).map Prod.fst) := by
  intro h
  obtain ⟨⟨err, hread, -⟩, -⟩ :=
    h [⟨some 0x1000, .accepted, .accepted, some 7, 0, 2⟩] (fun _ => ⟨0, 0, 0, 0, 0, 0⟩) (-1)
  cases hread

end Touch
