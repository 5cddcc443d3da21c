import Libtock.Core.Memory

/-!
# Start-up: the code of `crt0.c`

Flash and RAM are one memory of 32-bit addresses. The two start-up routines are modelled up to
their call of `main`: what they leave in memory. The bounds of the loops are read again in each
round, as in the source; `none` says that the fuel was not enough for a loop.
-/

namespace Crt0

open Core

abbrev U32 := BitVec 32

abbrev Mem := Memory 32

/-- `*(uint32_t*) p` -/
def word (m : Mem) (p : U32) : U32 := m.load 4 p

/-- `((uint32_t*) p) + i` -/
def index (p i : U32) : U32 := p + 4 * i

/-! ### `struct hdr` -/

section Hdr

variable (app : U32) (m : Mem)

def gotSymStart : U32 := word m app
def gotStart : U32 := word m (app + 4)
def gotSize : U32 := word m (app + 8)
def dataSymStart : U32 := word m (app + 12)
def dataStart : U32 := word m (app + 16)
def dataSize : U32 := word m (app + 20)
def bssStart : U32 := word m (app + 24)
def bssSize : U32 := word m (app + 28)
def reldataStart : U32 := word m (app + 32)

end Hdr

/-- The correction of an address that the linker has written: with its highest bit clear it is one
in RAM, else one in flash. -/
def reloc (app mem v : U32) : U32 :=
  if v &&& 0x80000000 = 0 then v + mem else (v ^^^ 0x80000000) + app

/-- The loop over the entries of the global offset table. -/
def gotLoop (app mem dst src : U32) : ℕ → U32 → Mem → Option Mem
  | 0, _, _ => none
  | fuel + 1, i, m =>
    if i < gotSize app m / 4 then
      gotLoop app mem dst src fuel (i + 1)
        (m.store 4 (index dst i) (reloc app mem (word m (index src i))))
    else
      some m

/-- The loop over the table of `struct reldata` at `rd`; each entry has two words. -/
def reldataLoop (app mem rd : U32) : ℕ → U32 → Mem → Option Mem
  | 0, _, _ => none
  | fuel + 1, i, m =>
    if i < word m rd / 4 then
      let target := word m (index (rd + 4) i) + mem
      reldataLoop app mem rd fuel (i + 2) (m.store 4 target (reloc app mem (word m target)))
    else
      some m

/-- `memcpy` of the data section and `memset` of the BSS section. -/
def loadSections (app mem : U32) (m : Mem) : Mem :=
  let m := m.copy (dataStart app m + mem) (dataSymStart app m + app) (dataSize app m).toNat
  m.fill (bssStart app m + mem) 0 (bssSize app m).toNat

/-- `_c_start_pic` -/
def cStartPic (fuel : ℕ) (app mem : U32) (m : Mem) : Option Mem := do
  let m ← gotLoop app mem (gotStart app m + mem) (gotSymStart app m + app) fuel 0 m
  let m := loadSections app mem m
  reldataLoop app mem (reldataStart app m + app) fuel 0 m

/-- `_c_start_nopic` -/
def cStartNopic (app mem : U32) (m : Mem) : Mem :=
  let m := m.copy (gotStart app m + mem) (gotSymStart app m + app) (gotSize app m).toNat
  loadSections app mem m

end Crt0
