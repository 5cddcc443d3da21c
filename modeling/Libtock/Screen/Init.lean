import Libtock.Core.Along
import Libtock.Screen.State

/-!
# Setting up the buffer: `screen_init` and `text_screen_init`

Both publish the block that they have allocated before they share it with the kernel, and keep it
when the kernel refuses. From then on every call returns `RETURNCODE_EALREADY`, although the kernel
holds nothing.
-/

namespace Screen

open Core Tock

/-- What `malloc (len)` returns, if not `NULL`. -/
structure Block (len : U32) where
  address : Ptr
  content : List (BitVec 8)
  length : content.length = len.toNat

/-- The body that the two functions share. -/
def init (driver len : U32) (block : Option (Block len)) (s : State) : Calls Unit (ℤ × State) :=
  match s.buffer, block with
  | some _, _ => pure (returncodeEAlready, s)
  | none, some b => do
    let s : State := { buffer := some b.content, bufferLen := len }
    let aval ← Sys.allowReadonly driver 0 ⟨some b.address, len⟩
    return (aval.toReturncode, s)
  | none, none => pure (returncodeFail, s)

def screenInit : (len : U32) → Option (Block len) → State → Calls Unit (ℤ × State) :=
  init driverNumScreen

def textScreenInit : (len : U32) → Option (Block len) → State → Calls Unit (ℤ × State) :=
  init driverNumTextScreen

/-! ### Sequences of calls -/

inductive Library
  | screen
  | textScreen

namespace Library

def driver : Library → U32
  | screen => driverNumScreen
  | textScreen => driverNumTextScreen

def init : Library → (len : U32) → Option (Block len) → State → Calls Unit (ℤ × State)
  | screen => screenInit
  | textScreen => textScreenInit

lemma init_eq (l : Library) : l.init = Screen.init l.driver := by
  cases l <;> rfl

end Library

/-- A call, with what the heap and the kernel answer. -/
structure InitCall where
  len : U32
  block : Option (Block len)
  kernel : Kernel

/-- The region that the call asks the kernel to hold. -/
def InitCall.region (c : InitCall) : Region := ⟨c.block.map Block.address, c.len⟩

/-- The static variables of a library, what the kernel holds, and what the calls so far have
returned. -/
structure Display where
  static : State
  slots : Slots Unit Region
  returned : List (InitCall × ℤ)

namespace Display

def initial : Display := ⟨⟨none, 0⟩, .empty, []⟩

def run (l : Library) (d : Display) (c : InitCall) : (ℤ × State) × List (Issued Unit Region) :=
  (l.init c.len c.block d.static).run c.kernel

def step (l : Library) (d : Display) (c : InitCall) : Display where
  static := (d.run l c).1.2
  slots := (d.run l c).2.foldl Slots.issue d.slots
  returned := d.returned ++ [(c, (d.run l c).1.1)]

variable {l : Library} {d : Display} {c : InitCall}

lemma run_of_published (h : d.static.buffer ≠ none) :
    d.run l c = ((returncodeEAlready, d.static), []) := by
  obtain ⟨buffer, hbuffer⟩ := Option.ne_none_iff_exists'.mp h
  simp [run, Library.init_eq, Screen.init, hbuffer]

lemma run_of_no_memory (h : d.static.buffer = none) (hblock : c.block = none) :
    d.run l c = ((returncodeFail, d.static), []) := by
  simp [run, Library.init_eq, Screen.init, h, hblock]

lemma run_of_block {b : Block c.len} (h : d.static.buffer = none) (hblock : c.block = some b) :
    d.run l c = (((c.kernel.allowReadonly l.driver 0).toReturncode, ⟨some b.content, c.len⟩),
      [.allowReadonly l.driver 0 c.region (c.kernel.allowReadonly l.driver 0)]) := by
  simp [run, Library.init_eq, Screen.init, h, hblock, InitCall.region]

/-! ### What a call owes its caller -/

/-- A call has returned `RETURNCODE_SUCCESS`, and the kernel holds the buffer that it has set up. -/
def Held (l : Library) (d : Display) : Prop :=
  ∃ c, (c, returncodeSuccess) ∈ d.returned ∧ d.slots.readonly (l.driver, 0) = some c.region ∧
    c.len = d.static.bufferLen

/-- A call that fails leaves the static variables as they were, and one that returns
`RETURNCODE_EALREADY` finds the buffer with the kernel. -/
structure Retriable (l : Library) (d : Display) (c : InitCall) : Prop where
  unchanged : (d.run l c).1.1 ≠ returncodeSuccess → (d.step l c).static = d.static
  already : (d.run l c).1.1 = returncodeEAlready → d.Held l

/-- If the call gets to the kernel, the kernel accepts the buffer. -/
def Accepted (l : Library) (d : Display) (c : InitCall) : Prop :=
  d.static.buffer = none → c.block ≠ none → c.kernel.allowReadonly l.driver 0 = .accepted

/-- A buffer that has been published is with the kernel. -/
def Lent (l : Library) (d : Display) : Prop := d.static.buffer ≠ none → d.Held l

lemma Lent.step (h : d.Lent l) (hacc : d.Accepted l c) : (d.step l c).Lent l := by
  by_cases hbuffer : d.static.buffer = none
  · cases hblock : c.block with
    | none =>
      have hrun := run_of_no_memory (l := l) hbuffer hblock
      simp [Lent, Display.step, hrun, hbuffer]
    | some b =>
      have haccepted := hacc hbuffer (by simp [hblock])
      have hrun := run_of_block (l := l) hbuffer hblock
      rw [haccepted] at hrun
      refine fun _ => ⟨c, ?_, ?_, ?_⟩
      · simp [Display.step, hrun, Answer.toReturncode]
      · simp [Display.step, hrun, Slots.issue]
      · simp [Display.step, hrun]
  · obtain ⟨c', hc', hslot, hlen⟩ := h hbuffer
    have hrun := run_of_published (l := l) (c := c) hbuffer
    refine fun _ => ⟨c', ?_, ?_, ?_⟩
    · simp [Display.step, hc']
    · simpa [Display.step, hrun] using hslot
    · simpa [Display.step, hrun] using hlen

lemma Lent.retriable_iff (h : d.Lent l) : d.Retriable l c ↔ d.Accepted l c := by
  by_cases hbuffer : d.static.buffer = none
  · cases hblock : c.block with
    | none =>
      have hrun := run_of_no_memory (l := l) hbuffer hblock
      refine iff_of_true ⟨fun _ => ?_, fun hret => ?_⟩ fun _ hne => absurd hblock hne
      · simp [Display.step, hrun]
      · rw [hrun] at hret
        exact absurd hret (show returncodeFail ≠ returncodeEAlready by decide)
    | some b =>
      have hrun := run_of_block (l := l) hbuffer hblock
      constructor
      · -- the block stays in `buffer`, so a call that has changed nothing has not failed
        intro hret _ _
        by_contra hrefused
        have hunchanged := hret.unchanged (by simpa [hrun] using hrefused)
        rw [Display.step, hrun] at hunchanged
        rw [← hunchanged] at hbuffer
        cases hbuffer
      · intro hacc
        have haccepted := hacc hbuffer (by simp [hblock])
        have hsuccess : (d.run l c).1.1 = returncodeSuccess := by
          rw [hrun, haccepted]
          rfl
        refine ⟨fun hne => absurd hsuccess hne, fun hret => ?_⟩
        rw [hsuccess] at hret
        exact absurd hret (show returncodeSuccess ≠ returncodeEAlready by decide)
  · have hrun := run_of_published (l := l) (c := c) hbuffer
    refine iff_of_true ⟨fun _ => ?_, fun _ => h hbuffer⟩ fun hnone => absurd hnone hbuffer
    simp [Display.step, hrun]

end Display

/-- Every call of a sequence can be retried, exactly when the kernel accepts the buffer of each one
that gets to it. -/
theorem init_retriable_iff (l : Library) (calls : List InitCall) :
    Along (Display.step l) (Display.Retriable l) .initial calls ↔
      Along (Display.step l) (Display.Accepted l) .initial calls :=
  along_congr (I := Display.Lent l) (fun _ _ h hacc => h.step hacc) (fun _ _ h => h.retriable_iff)
    (fun h => absurd rfl h) calls

/-- A call that the kernel refuses, and one more. -/
def refusedTwice : List InitCall :=
  let kernel := Kernel.steady (.refused ⟨.busy, by decide⟩) .success
  let call : InitCall := ⟨2, some ⟨0x1000, [0, 0], rfl⟩, kernel⟩
  [call, call]

/-- The second call is told that there is a buffer already, the kernel holds none. -/
theorem init_not_retriable :
    ¬ Along (Display.step .screen) (Display.Retriable .screen) .initial refusedTwice ∧
      ¬ Along (Display.step .textScreen) (Display.Retriable .textScreen) .initial refusedTwice := by
  constructor
  · rintro ⟨-, hsecond, -⟩
    obtain ⟨c, -, hslot, -⟩ := hsecond.already rfl
    cases hslot
  · rintro ⟨-, hsecond, -⟩
    obtain ⟨c, -, hslot, -⟩ := hsecond.already rfl
    cases hslot

end Screen
