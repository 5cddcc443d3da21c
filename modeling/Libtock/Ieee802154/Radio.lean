import Libtock.Tock.Syscall
import Libtock.Ieee802154.Frame

/-!
# Attributes of the radio: the scalar getters of `ieee802154.c`

The driver answers a command with the value of an attribute and 1 more, so that it is positive. The
getters let `tock_command_return_u32_to_returncode` store the answer where their out-pointer leads
and take the 1 away again there. `*p -= 1` wraps around; plain `char` is unsigned, and the size of
an enumeration is a parameter: 1 byte on ARM, 4 bytes on RISC-V.
-/

namespace Ieee802154

open Core Tock

abbrev U32 := BitVec 32

abbrev Addr := BitVec 32

/-- The answers of the driver `RADIO_DRIVER`. -/
structure Driver where
  /-- To `command(RADIO_DRIVER, command, arg1, arg2)`. -/
  command : ℕ → U32 → U32 → SyscallReturn
  /-- To `allow_readwrite(RADIO_DRIVER, allow, ptr, size)`. -/
  allowReadwrite : ℕ → ℕ → Except StatusCode Unit

def allowCfg : ℕ := 1

def commandGetAddr : ℕ := 8
def commandGetPan : ℕ := 10
def commandGetChannel : ℕ := 11
def commandGetPower : ℕ := 12
def commandMaxNeighbors : ℕ := 13
def commandNumNeighbors : ℕ := 14
def commandGetNeighborAddr : ℕ := 15
def commandAddNeighbor : ℕ := 17
def commandMaxKeys : ℕ := 19
def commandNumKeys : ℕ := 20
def commandGetKeyLevel : ℕ := 21
def commandAddKey : ℕ := 24

/-- The cast of an integer to a pointer. -/
def toPointer (x : U32) : Option Addr := if x = 0 then none else some x

/-- The end of a getter of `n` bytes: the answer is stored through the cast pointer, and then
`*p -= 1`. There is no result where a null pointer is used. -/
def getScalar (n : ℕ) (com : SyscallReturn) (p : Option Addr) (m : Memory 32) :
    Option (ℤ × Memory 32) := do
  let (ret, m) ← tockCommandReturnU32ToReturncode com p m
  let p ← p
  some (ret, m.store n p (m.load n p - 1))

/-- A getter that tests its pointer first. -/
def getScalarChecked (n : ℕ) (com : SyscallReturn) (p : Option Addr) (m : Memory 32) :
    Option (ℤ × Memory 32) :=
  if p = none then some (returncodeEInval, m) else getScalar n com p m

section Getters

variable (drv : Driver)

def getAddress : Option Addr → Memory 32 → Option (ℤ × Memory 32) :=
  getScalarChecked 2 (drv.command commandGetAddr 0 0)

def getPan : Option Addr → Memory 32 → Option (ℤ × Memory 32) :=
  getScalarChecked 2 (drv.command commandGetPan 0 0)

/-- It sends `COMMAND_GET_PAN`. -/
def getChannel : Option Addr → Memory 32 → Option (ℤ × Memory 32) :=
  getScalarChecked 1 (drv.command commandGetPan 0 0)

def getPower : Option Addr → Memory 32 → Option (ℤ × Memory 32) :=
  getScalarChecked 1 (drv.command commandGetPower 0 0)

def maxNeighbors : Option Addr → Memory 32 → Option (ℤ × Memory 32) :=
  getScalar 4 (drv.command commandMaxNeighbors 0 0)

def numNeighbors : Option Addr → Memory 32 → Option (ℤ × Memory 32) :=
  getScalar 4 (drv.command commandNumNeighbors 0 0)

def getNeighborAddress (index : U32) : Option Addr → Memory 32 → Option (ℤ × Memory 32) :=
  getScalarChecked 2 (drv.command commandGetNeighborAddr index 0)

def maxKeys : Option Addr → Memory 32 → Option (ℤ × Memory 32) :=
  getScalar 4 (drv.command commandMaxKeys 0 0)

def numKeys : Option Addr → Memory 32 → Option (ℤ × Memory 32) :=
  getScalar 4 (drv.command commandNumKeys 0 0)

def getKeySecurityLevel (sizeofEnum : ℕ) (index : U32) (level : Option Addr) (m : Memory 32) :
    Option (ℤ × Memory 32) :=
  match level with
  | none => some (returncodeEInval, m)
  | some level => do
    let com := drv.command commandGetKeyLevel index 0
    let storeU32 : U32 := 0
    -- the value of `store_u32` is cast to a pointer, not its address
    let (ret, m) ← tockCommandReturnU32ToReturncode com (toPointer storeU32) m
    if ret = returncodeSuccess then
      let storeU32 := storeU32 - 1
      some (ret, m.store sizeofEnum level (storeU32.setWidth (8 * sizeofEnum)))
    else
      some (ret, m)

def addNeighbor (addr : U16) (addrLong index : Option Addr) (m : Memory 32) :
    Option (ℤ × Memory 32) :=
  if addrLong = none then some (returncodeEInval, m)
  else
    match drv.allowReadwrite allowCfg 8 with
    | .error status => some (tockStatusToReturncode status, m)
    | .ok () => getScalar 4 (drv.command commandAddNeighbor (addr.setWidth 32) 0) index m

def keyIdBytes (keyIdMode : U32) : ℕ :=
  if keyIdMode = 1 then 1 else if keyIdMode = 2 then 5 else if keyIdMode = 3 then 9 else 0

/-- The memory of the caller, and the static buffer `BUF_CFG`. -/
structure Storage where
  mem : Memory 32
  bufCfg : ℕ → U8

/-- `memcpy(BUF_CFG + i, src, n)`; with no bytes to copy the pointer is not used. -/
def Storage.copyToCfg (i : ℕ) (src : Option Addr) (n : ℕ) (s : Storage) : Option Storage :=
  if n = 0 then some s
  else
    src.map fun src => { s with
      bufCfg := fun j => if i ≤ j ∧ j < i + n then s.mem (src + BitVec.ofNat 32 (j - i))
        else s.bufCfg j }

def addKey (level keyIdMode : U32) (keyId key index : Option Addr) (s : Storage) :
    Option (ℤ × Storage) :=
  if key = none then some (returncodeEInval, s)
  else
    match drv.allowReadwrite allowCfg 27 with
    | .error status => some (tockStatusToReturncode status, s)
    | .ok () => do
      let cfg := Function.update s.bufCfg 0 (level.setWidth 8)
      let s := { s with bufCfg := Function.update cfg 1 (keyIdMode.setWidth 8) }
      let s ← s.copyToCfg 2 keyId (keyIdBytes keyIdMode)
      let s ← s.copyToCfg 11 key 16
      let (ret, mem) ← getScalar 4 (drv.command commandAddKey 0 0) index s.mem
      some (ret, { s with mem })

end Getters

/-! ### The attributes -/

inductive Attribute
  | address
  | pan
  | channel
  | power
  | maxNeighbors
  | numNeighbors
  | neighborAddress (index : U32)
  | maxKeys
  | numKeys
  | keySecurityLevel (index : U32)
  deriving DecidableEq

namespace Attribute

/-- The size of the type its getter is declared for. -/
def size (sizeofEnum : ℕ) : Attribute → ℕ
  | address => 2
  | pan => 2
  | channel => 1
  | power => 1
  | neighborAddress _ => 2
  | keySecurityLevel _ => sizeofEnum
  | _ => 4

/-- The command that the driver has for it. -/
def command : Attribute → ℕ
  | address => commandGetAddr
  | pan => commandGetPan
  | channel => commandGetChannel
  | power => commandGetPower
  | maxNeighbors => commandMaxNeighbors
  | numNeighbors => commandNumNeighbors
  | neighborAddress _ => commandGetNeighborAddr
  | maxKeys => commandMaxKeys
  | numKeys => commandNumKeys
  | keySecurityLevel _ => commandGetKeyLevel

/-- The first argument of the command. -/
def index : Attribute → U32
  | neighborAddress i => i
  | keySecurityLevel i => i
  | _ => 0

/-- Its getter. -/
def get (sizeofEnum : ℕ) (drv : Driver) : Attribute → Option Addr → Memory 32 →
    Option (ℤ × Memory 32)
  | address => getAddress drv
  | pan => getPan drv
  | channel => getChannel drv
  | power => getPower drv
  | maxNeighbors => Ieee802154.maxNeighbors drv
  | numNeighbors => Ieee802154.numNeighbors drv
  | neighborAddress i => getNeighborAddress drv i
  | maxKeys => Ieee802154.maxKeys drv
  | numKeys => Ieee802154.numKeys drv
  | keySecurityLevel i => getKeySecurityLevel drv sizeofEnum i

/-- The attribute that the getter asks the driver for. -/
def asked : Attribute → Attribute
  | channel => pan
  | a => a

end Attribute

/-- The driver answers the command of each attribute with its value and 1 more. -/
def Driver.Answers (drv : Driver) {sizeofEnum : ℕ}
    (values : (a : Attribute) → BitVec (8 * a.size sizeofEnum)) : Prop :=
  ∀ a : Attribute, drv.command a.command a.index 0 = .successU32 ((values a).setWidth 32 + 1)

variable {drv : Driver} {m m' : Memory 32} {p : Addr} {n sizeofEnum : ℕ}

/-! ### What a getter leaves in memory -/

/-- The word goes where the value belongs, and its bytes beyond the value go behind it. -/
lemma getScalar_success (hn : n ≤ 4) (x : U32) :
    getScalar n (.successU32 (x + 1)) (some p) m =
      some (returncodeSuccess, (m.store 4 p (x + 1)).store n p (x.setWidth (8 * n))) := by
  have hload : (m.store 4 p (x + 1)).load n p - 1 = x.setWidth (8 * n) := by
    rw [Memory.load_store_of_le hn (by decide)]
    have hone : (1 : U32).setWidth (8 * n) = 1 := by
      apply BitVec.eq_of_toNat_eq
      simp
    have hadd : (x + 1).setWidth (8 * n) = x.setWidth (8 * n) + 1 := by
      rw [BitVec.setWidth_add _ _ (by omega), hone]
    rw [hadd, BitVec.add_sub_cancel]
  show some (returncodeSuccess, (m.store 4 p (x + 1)).store n p _) = _
  rw [hload]

lemma store_word_eq_iff (hn : n ≤ 4) (x : U32) (u v : BitVec (8 * n)) :
    (m.store 4 p x).store n p u = m.store n p v ↔
      u = v ∧ ∀ i, n ≤ i → i < 4 → m (p + BitVec.ofNat 32 i) = byteAt x i := by
  have hpow : n ≤ 2 ^ 32 := hn.trans (by decide)
  constructor
  · intro h
    have hload := congrArg (Memory.load n p) h
    rw [Memory.load_store hpow, Memory.load_store hpow] at hload
    rw [hload] at h
    exact ⟨hload, (Memory.store_store_eq_iff (k := 4) (by decide)).mp h⟩
  · rintro ⟨rfl, h⟩
    exact (Memory.store_store_eq_iff (k := 4) (by decide)).mpr h

/-- All getters but one are `getScalar` on the answer to their command. -/
lemma Attribute.get_eq {a : Attribute} (ha : ∀ i, a ≠ keySecurityLevel i) :
    a.get sizeofEnum drv (some p) m =
      getScalar (a.size sizeofEnum) (drv.command a.asked.command a.asked.index 0) (some p) m := by
  cases a with
  | keySecurityLevel i => exact absurd rfl (ha i)
  | _ => rfl

lemma Attribute.size_le (sizeofEnum : ℕ) {a : Attribute} (ha : ∀ i, a ≠ keySecurityLevel i) :
    0 < a.size sizeofEnum ∧ a.size sizeofEnum ≤ 4 := by
  cases a with
  | keySecurityLevel i => exact absurd rfl (ha i)
  | _ => simp [size]

/-- A getter stores the value of its attribute and nothing else if and only if it asks for that
attribute, passes its pointer on, and the bytes behind the value, up to four, are already those of
the word that the driver answers. -/
theorem getter_stores_only_value_iff {values : (a : Attribute) → BitVec (8 * a.size sizeofEnum)}
    (h : drv.Answers values) (a : Attribute) (p : Addr) (m : Memory 32) :
    a.get sizeofEnum drv (some p) m =
        some (returncodeSuccess, m.store (a.size sizeofEnum) p (values a)) ↔
      (∀ i, a ≠ .keySecurityLevel i) ∧
      (values a.asked).setWidth (8 * a.size sizeofEnum) = values a ∧
      ∀ i, a.size sizeofEnum ≤ i → i < 4 →
        m (p + BitVec.ofNat 32 i) = byteAt ((values a.asked).setWidth 32 + 1) i := by
  by_cases ha : ∀ i, a ≠ .keySecurityLevel i
  · have hsize := (Attribute.size_le sizeofEnum ha).2
    rw [Attribute.get_eq ha, h a.asked, getScalar_success hsize,
      BitVec.setWidth_setWidth_of_le _ (by omega)]
    simp only [Option.some.injEq, Prod.mk.injEq, true_and]
    rw [store_word_eq_iff hsize]
    exact ⟨fun hmem => ⟨ha, hmem⟩, fun hmem => hmem.2⟩
  · constructor
    · intro hget
      push Not at ha
      obtain ⟨i, rfl⟩ := ha
      -- the answer is stored through a null pointer
      have hnone : getKeySecurityLevel drv sizeofEnum i (some p) m = none := by
        have hcom := h (.keySecurityLevel i)
        simp only [Attribute.command, Attribute.index] at hcom
        simp only [getKeySecurityLevel, hcom, toPointer, if_true]
        rfl
      exact absurd (hnone.symm.trans hget) (by simp)
    · rintro ⟨ha', -⟩
      exact absurd ha' ha

/-- A driver whose attributes are all zero, except that the channel is 11. -/
def quietDriver : Driver where
  command := fun command _ _ => .successU32 (if command = commandGetChannel then 12 else 1)
  allowReadwrite := fun _ _ => .ok ()

def quietValues (a : Attribute) : BitVec (8 * a.size 1) := if a = .channel then 11 else 0

lemma quietDriver_answers : quietDriver.Answers quietValues := by
  intro a
  cases a <;> rfl

/-- The number of neighbours is stored as it is. -/
theorem getter_stores_only_value_int :
    Attribute.numNeighbors.get 1 quietDriver (some 8) (fun _ => 0xff) =
      some (returncodeSuccess, Memory.store 4 8 (quietValues .numNeighbors) fun _ => 0xff) := by
  apply (getter_stores_only_value_iff quietDriver_answers .numNeighbors 8 fun _ => 0xff).mpr
  refine ⟨fun i => by simp, ?_, ?_⟩
  · show (quietValues .numNeighbors).setWidth 32 = _
    exact BitVec.setWidth_eq _
  · intro i h h'
    exact absurd h (not_le.mpr h')

/-- A PAN overwrites the byte at distance 2 of its address, and the channel is not asked for. -/
theorem getter_stores_more :
    quietDriver.Answers quietValues ∧
    (getPan quietDriver (some 8) fun _ => 0xff).map (fun r => (r.1, r.2 10)) = some (0, 0) ∧
    (getChannel quietDriver (some 8) fun _ => 0xff).map (fun r => (r.1, r.2 8)) = some (0, 0) ∧
    getKeySecurityLevel quietDriver 1 0 (some 8) (fun _ => 0xff) = none ∧
    ¬ ∀ (a : Attribute) (p : Addr) (m : Memory 32), a.get 1 quietDriver (some p) m =
      some (returncodeSuccess, m.store (a.size 1) p (quietValues a)) := by
  have hpan : (getPan quietDriver (some 8) fun _ => 0xff).map (fun r => (r.1, r.2 10)) =
      some (0, 0) := by decide
  refine ⟨quietDriver_answers, hpan, by decide, rfl, ?_⟩
  intro h
  have hclaim : getPan quietDriver (some 8) (fun _ => 0xff) = _ := h .pan 8 fun _ => 0xff
  rw [hclaim] at hpan
  revert hpan
  decide

/-! ### Calls that fail -/

/-- The functions with a scalar out-pointer, with their other arguments. -/
inductive ScalarCall
  | get (a : Attribute)
  | addNeighbor (addr : U16) (addrLong : Option Addr)
  | addKey (level keyIdMode : U32) (keyId key : Option Addr)

namespace ScalarCall

/-- The size of the object behind the out-pointer. -/
def size (sizeofEnum : ℕ) : ScalarCall → ℕ
  | get a => a.size sizeofEnum
  | _ => 4

def run (sizeofEnum : ℕ) (drv : Driver) (p : Option Addr) (s : Storage) :
    ScalarCall → Option (ℤ × Storage)
  | get a => (a.get sizeofEnum drv p s.mem).map fun r => (r.1, { s with mem := r.2 })
  | addNeighbor addr addrLong =>
    (Ieee802154.addNeighbor drv addr addrLong p s.mem).map fun r => (r.1, { s with mem := r.2 })
  | addKey level keyIdMode keyId key => Ieee802154.addKey drv level keyIdMode keyId key p s

/-- The call does not reach `*p -= 1`: it asks for the security level of a key, has no second
pointer, or may not share its buffer with the kernel. -/
def KeepsObject (drv : Driver) : ScalarCall → Prop
  | get (.keySecurityLevel _) => True
  | get _ => False
  | addNeighbor _ addrLong => addrLong = none ∨ drv.allowReadwrite allowCfg 8 ≠ .ok ()
  | addKey _ _ _ key => key = none ∨ drv.allowReadwrite allowCfg 27 ≠ .ok ()

end ScalarCall

variable {com : SyscallReturn} {ret : ℤ}

lemma sub_one_ne (hn : 0 < n) (x : BitVec (8 * n)) : x - 1 ≠ x := by
  intro h
  have hone : (1 : BitVec (8 * n)) = 0 := sub_eq_self.mp h
  have hnat := congrArg BitVec.toNat hone
  have hpow : 1 < 2 ^ (8 * n) := Nat.one_lt_two_pow (by omega)
  simp [Nat.mod_eq_of_lt hpow] at hnat

/-- A failure is not stored, but the 1 is taken away all the same. -/
lemma getScalar_failure (hn : 0 < n) (hn' : n ≤ 4)
    (h : getScalar n com (some p) m = some (ret, m')) (hneg : ret < 0) :
    m'.load n p ≠ m.load n p := by
  obtain ⟨⟨ret', m₁⟩, hcom, hrest⟩ := Option.bind_eq_some_iff.mp h
  simp only [Option.bind_eq_bind, Option.bind_some, Option.some.injEq, Prod.mk.injEq] at hrest
  obtain ⟨rfl, rfl⟩ := hrest
  obtain rfl := tockCommandReturnU32ToReturncode_neg hcom hneg
  rw [Memory.load_store (hn'.trans (by decide))]
  exact sub_one_ne hn _

lemma getKeySecurityLevel_failure {index : U32}
    (h : getKeySecurityLevel drv sizeofEnum index (some p) m = some (ret, m')) (hneg : ret < 0) :
    m' = m := by
  obtain ⟨⟨ret', m₁⟩, hcom, hrest⟩ := Option.bind_eq_some_iff.mp h
  simp only at hrest
  split_ifs at hrest with hret
  · cases hrest
    exact absurd (hret ▸ hneg) (lt_irrefl _)
  · cases hrest
    exact tockCommandReturnU32ToReturncode_neg hcom hneg

lemma addNeighbor_failure {addr : U16} {addrLong : Option Addr}
    (h : addNeighbor drv addr addrLong (some p) m = some (ret, m')) (hneg : ret < 0) :
    m'.load 4 p = m.load 4 p ↔ addrLong = none ∨ drv.allowReadwrite allowCfg 8 ≠ .ok () := by
  rw [addNeighbor] at h
  split_ifs at h with hlong
  · cases h
    simp [hlong]
  · cases hallow : drv.allowReadwrite allowCfg 8 with
    | error status =>
      rw [hallow] at h
      cases h
      simp
    | ok =>
      rw [hallow] at h
      simp [hlong, getScalar_failure (by decide) le_rfl h hneg]

lemma Storage.copyToCfg_mem {i k : ℕ} {src : Option Addr} {s s' : Storage}
    (h : s.copyToCfg i src k = some s') : s'.mem = s.mem := by
  rw [Storage.copyToCfg] at h
  split_ifs at h with hk
  · cases h
    rfl
  · obtain ⟨_, -, rfl⟩ := Option.map_eq_some_iff.mp h
    rfl

lemma addKey_failure {level keyIdMode : U32} {keyId key : Option Addr} {s s' : Storage}
    (h : addKey drv level keyIdMode keyId key (some p) s = some (ret, s')) (hneg : ret < 0) :
    s'.mem.load 4 p = s.mem.load 4 p ↔ key = none ∨ drv.allowReadwrite allowCfg 27 ≠ .ok () := by
  rw [addKey] at h
  split_ifs at h with hkey
  · cases h
    simp [hkey]
  · cases hallow : drv.allowReadwrite allowCfg 27 with
    | error status =>
      rw [hallow] at h
      cases h
      simp
    | ok =>
      rw [hallow] at h
      obtain ⟨s₁, hs₁, h⟩ := Option.bind_eq_some_iff.mp h
      obtain ⟨s₂, hs₂, h⟩ := Option.bind_eq_some_iff.mp h
      obtain ⟨⟨ret', mem⟩, hget, hrest⟩ := Option.bind_eq_some_iff.mp h
      cases hrest
      have hmem : s₁.mem = s.mem := (Storage.copyToCfg_mem hs₁).trans rfl
      rw [Storage.copyToCfg_mem hs₂, hmem] at hget
      simp [hkey, getScalar_failure (by decide) le_rfl hget hneg]

/-- A call that fails leaves the object behind its out-pointer as it was if and only if it does not
get as far as taking the 1 away. -/
theorem failed_call_keeps_object_iff {c : ScalarCall} {s s' : Storage}
    (h : c.run sizeofEnum drv (some p) s = some (ret, s')) (hneg : ret < 0) :
    s'.mem.load (c.size sizeofEnum) p = s.mem.load (c.size sizeofEnum) p ↔ c.KeepsObject drv := by
  cases c with
  | get a =>
    obtain ⟨⟨ret', m'⟩, hget, hrest⟩ := Option.map_eq_some_iff.mp h
    cases hrest
    by_cases ha : ∀ i, a ≠ .keySecurityLevel i
    · rw [Attribute.get_eq ha] at hget
      have hsize := Attribute.size_le sizeofEnum ha
      have hne := getScalar_failure hsize.1 hsize.2 hget hneg
      refine ⟨fun heq => absurd heq hne, fun hkeeps => ?_⟩
      cases a with
      | keySecurityLevel i => exact absurd rfl (ha i)
      | _ => cases hkeeps
    · push Not at ha
      obtain ⟨i, rfl⟩ := ha
      obtain rfl := getKeySecurityLevel_failure hget hneg
      exact iff_of_true rfl trivial
  | addNeighbor addr addrLong =>
    obtain ⟨⟨ret', m'⟩, hadd, hrest⟩ := Option.map_eq_some_iff.mp h
    cases hrest
    exact addNeighbor_failure hadd hneg
  | addKey level keyIdMode keyId key => exact addKey_failure h hneg

/-- The kernel refuses to read the number of a key; the buffer may not be shared either. -/
def refusingDriver : Driver where
  command := fun _ _ _ => .failure .inval
  allowReadwrite := fun _ _ => .error .nomem

theorem failed_call_keeps_object_refused :
    ∃ s',
      (ScalarCall.addNeighbor 7 (some 64)).run 1 refusingDriver (some 8) ⟨fun _ => 5, fun _ => 0⟩
        = some (-9, s') ∧ s'.mem.load 4 8 = Memory.load 4 (8 : Addr) fun _ => 5 := by
  refine ⟨⟨fun _ => 5, fun _ => 0⟩, rfl, ?_⟩
  have h : (ScalarCall.addNeighbor 7 (some 64)).run 1 refusingDriver (some 8)
      ⟨fun _ => 5, fun _ => 0⟩ = some (-9, ⟨fun _ => 5, fun _ => 0⟩) := rfl
  exact (failed_call_keeps_object_iff h (by decide)).mpr (.inr (by simp [refusingDriver]))

/-- The address 0x0505 becomes 0x0504 when the driver refuses the command. -/
theorem failed_call_changes_object :
    (getAddress refusingDriver (some 8) fun _ => 5).map (fun r => (r.1, r.2.load 2 8)) =
        some (-6, 0x0504) ∧
    ¬ ∀ (c : ScalarCall) (p : Addr) (s s' : Storage) (ret : ℤ),
      c.run 1 refusingDriver (some p) s = some (ret, s') → ret < 0 →
        s'.mem.load (c.size 1) p = s.mem.load (c.size 1) p := by
  constructor
  · decide
  · intro h
    have hload := h (.get .address) 8 ⟨fun _ => 5, fun _ => 0⟩ _ _ rfl (by decide)
    revert hload
    decide

end Ieee802154
