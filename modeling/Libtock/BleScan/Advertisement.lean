import Mathlib.Data.Fintype.Pi
import Mathlib.Data.Int.Notation

/-!
# A received advertisement

What the passive scanner keeps of an advertisement, and how it prints it. The constructor copies as
many bytes of data as were received, but `print` shows as many as the header of the advertisement
announces.
-/

namespace BleScan

abbrev U8 := BitVec 8

def advMinSize : ℤ := 8

def advMaxSize : ℤ := 39

/-- The buffer `scan`. -/
abbrev Buffer := Fin 39 → U8

/-- The class `Advertisement`; a byte of `data` is `none` if it was never written. -/
structure Advertisement where
  header : Fin 2 → U8
  address : Fin 6 → U8
  data : Fin 31 → Option U8
  deriving DecidableEq

/-- A byte of data that is printed. -/
inductive Shown
  | byte (b : U8)
  | indeterminate
  /-- It lies behind the object. -/
  | outside
  deriving DecidableEq

/-- What one `printf` writes. -/
inductive Line
  | listBegin
  | pduType (type : U8) (str : String)
  | pduTxAdd (set : Bool)
  | pduRxAdd (set : Bool)
  | pduLength (length : U8)
  | address (bytes : List U8)
  | data
  | shown (byte : Shown)
  | blank
  | listEnd
  deriving DecidableEq

namespace Advertisement

/-- The default constructor. -/
def zero : Advertisement := ⟨fun _ => 0, fun _ => 0, fun _ => some 0⟩

/-- The `data_len` of the constructor. -/
def dataLen (len : ℤ) : ℕ := min (BitVec.ofInt 8 (len - 2 - 6)).toNat 31

/-- The constructor. -/
def ofBuf (buf : Buffer) (len : ℤ) : Advertisement where
  header i := buf ⟨i, by omega⟩
  address i := buf ⟨2 + i, by omega⟩
  data i := if i < dataLen len then some (buf ⟨8 + i, by omega⟩) else none

variable (a : Advertisement)

def deviceDetected (other : Advertisement) : Bool := a.address = other.address

def pduLength : U8 := a.header 1 &&& 0x3F

def pduType : U8 := a.header 0 &&& 0xF

def pduTxAddSet : Bool := a.header 0 &&& 0x40 ≠ 0

def pduRxAddSet : Bool := a.header 0 &&& 0x80 ≠ 0

def pduTypeStr : String :=
  match a.pduType.toNat with
  | 0 => "ADV_IND"
  | 1 => "ADV_DIRECT_IND"
  | 2 => "NON_CONNECT_IND"
  | 3 => "SCAN_REQ"
  | 4 => "SCAN_RSP"
  | 5 => "CONNECT_REQ"
  | 6 => "ADV_SCAN_IND"
  | _ => "INVALID ADVERTISEMENT TYPE"

/-- `data_[i]` -/
def dataAt (i : ℕ) : Shown :=
  if h : i < 31 then
    match a.data ⟨i, h⟩ with
    | some b => .byte b
    | none => .indeterminate
  else .outside

/-- What `print` writes after its first line. -/
def printRest : List Line :=
  [.pduTxAdd a.pduTxAddSet, .pduRxAdd a.pduRxAddSet, .pduLength a.pduLength,
    .address ((List.ofFn a.address).reverse), .data] ++
  (List.range (a.pduLength.toNat - 6)).map (fun i => .shown (a.dataAt i)) ++ [.blank]

def print : List Line := .pduType a.pduType a.pduTypeStr :: a.printRest

end Advertisement

/-- A scan result whose length has been checked. -/
structure ScanResult where
  buf : Buffer
  len : ℤ
  min_le : advMinSize ≤ len
  le_max : len ≤ advMaxSize
  deriving DecidableEq

/-- `checkScanResult` prints why a scan result is malformed. -/
def checkScanResult (buf : Option Buffer) (len : ℤ) : Except String ScanResult :=
  match buf with
  | none => .error "Malformed scan result: Buffer was null!"
  | some buf =>
    if hmin : len < advMinSize then .error "Malformed scan result: Result too small!"
    else if hmax : len > advMaxSize then .error "Malformed scan result: Result too large!"
    else .ok ⟨buf, len, not_lt.mp hmin, not_lt.mp hmax⟩

def ScanResult.advertisement (r : ScanResult) : Advertisement := .ofBuf r.buf r.len

/-- All the data that the header announces has been received. -/
def ScanResult.Complete (r : ScanResult) : Prop :=
  r.advertisement.pduLength.toNat ≤ 6 ∨ (r.advertisement.pduLength.toNat : ℤ) + 2 ≤ r.len

instance (r : ScanResult) : Decidable r.Complete := inferInstanceAs (Decidable (_ ∨ _))

def ScanResult.address (r : ScanResult) : Fin 6 → U8 := r.advertisement.address

/-! ### Which bytes of data are printed -/

namespace Advertisement

variable {a : Advertisement}

lemma mem_print_shown {s : Shown} :
    .shown s ∈ a.print ↔ ∃ i < a.pduLength.toNat - 6, a.dataAt i = s := by
  simp [print, printRest]

lemma dataLen_of_le {len : ℤ} (hmin : advMinSize ≤ len) (hmax : len ≤ advMaxSize) :
    (dataLen len : ℤ) = len - 8 := by
  rw [advMinSize] at hmin
  rw [advMaxSize] at hmax
  rw [dataLen, BitVec.toNat_ofInt]
  omega

lemma print_received_iff (r : ScanResult) :
    (∀ s, .shown s ∈ r.advertisement.print → ∃ b, s = .byte b) ↔ r.Complete := by
  rw [ScanResult.Complete]
  have hlen := dataLen_of_le r.min_le r.le_max
  have hmax := r.le_max
  rw [advMaxSize] at hmax
  have hdata : ∀ i, (∃ b, r.advertisement.dataAt i = .byte b) ↔ i < dataLen r.len := by
    intro i
    rw [dataAt]
    split_ifs with hi
    · by_cases hlt : i < dataLen r.len
      · simp [ScanResult.advertisement, ofBuf, hlt]
      · simp [ScanResult.advertisement, ofBuf, hlt]
    · exact iff_of_false (by simp) (by omega)
  constructor
  · intro h
    rcases Nat.le_total r.advertisement.pduLength.toNat 6 with hle | hle
    · exact .inl hle
    · by_contra hnot
      obtain ⟨b, hb⟩ := h (r.advertisement.dataAt (dataLen r.len))
        (mem_print_shown.mpr ⟨_, by omega, rfl⟩)
      exact absurd ((hdata _).mp ⟨b, hb⟩) (lt_irrefl _)
  · intro h s hs
    obtain ⟨i, hi, rfl⟩ := mem_print_shown.mp hs
    exact (hdata i).mpr (by omega)

lemma zero_print_received : ∀ s, .shown s ∈ zero.print → ∃ b, s = .byte b := by
  intro s hs
  obtain ⟨i, hi, -⟩ := mem_print_shown.mp hs
  simp [pduLength, zero] at hi

end Advertisement

end BleScan
