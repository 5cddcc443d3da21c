import Libtock.Core.Run
import Libtock.Console.Queue

/-!
# Reading from the console

`getnstr` waits for the kernel to fill its buffer. All calls share the static variable
`getnstr_data`, whose field `called` is cleared before the system calls and set by
`getnstr_upcall`. When one of the system calls fails there is no upcall to come, the field stays
cleared, and no later call is attempted.
-/

namespace Console

open Core Tock

namespace Read

/-! ### The code of `console.c` -/

/-- `getnstr_data_t` -/
structure GetnstrData where
  called : Bool
  result : ℤ

/-- The functions that are subscribed to lines read. -/
inductive SubscribeUpcall
  | getnstrUpcall
  /-- A function of the application. -/
  | app (f : ℕ)

structure State where
  getnstrData : GetnstrData
  /-- What the console driver may write to. -/
  allowed : Region
  subscribed : Option (SubscribeUpcall × Option Ptr)
  /-- The reads the kernel has accepted and not answered yet. -/
  reads : List Region

def getnstrAsync (ans : Answers) (buf : Option Ptr) (len : U32) (cb : SubscribeUpcall)
    (userdata : Option Ptr) (s : State) : ℤ × State :=
  match ans.allow with
  | .error e => (tockStatusToReturncode e.status, s)
  | .ok () =>
    let s := { s with allowed := ⟨buf, len⟩ }
    match ans.subscribe with
    | .error e => (tockStatusToReturncode e.status, s)
    | .ok () =>
      let s := { s with subscribed := some (cb, userdata) }
      match ans.command with
      -- the kernel has accepted the read
      | .success => (returncodeSuccess, { s with reads := s.reads ++ [s.allowed] })
      | com => (tockCommandReturnNovalueToReturncode com, s)

def getnstrUpcall (result : U32) (s : State) : State :=
  { s with getnstrData := ⟨true, result.toInt⟩ }

/-- `getnstr_data.called = false;` -/
def State.clear (s : State) : State :=
  { s with getnstrData := { s.getnstrData with called := false } }

/-- `getnstr` up to its `yield_for`, with its result if it returns before. -/
def getnstr (ans : Answers) (str : Option Ptr) (len : U32) (s : State) : Option ℤ × State :=
  if !s.getnstrData.called then (some returncodeEAlready, s)
  else
    let (ret, s) := getnstrAsync ans str len .getnstrUpcall none s.clear
    if ret < 0 then (some ret, s) else (none, s)

/-- What `getch` returns when its `getnstr` has returned `r` and `buf[0]` is `c`. -/
def getch (r : ℤ) (c : U8) : ℤ := if r = returncodeSuccess then c.toNat else returncodeFail

/-! ### Runs -/

/-- A call of `getnstr`, or of `getch`, which calls it with its local variable `buf`. -/
inductive Call
  | getnstr (str : Option Ptr) (len : U32)
  | getch (buf : Ptr)

/-- What the call shares with the kernel. -/
def Call.region : Call → Region
  | getnstr str len => ⟨str, len⟩
  | getch buf => ⟨some buf, 1⟩

/-- A call inside its `yield_for`. -/
structure Frame where
  call : ℕ
  kind : Call

structure World where
  st : State
  mem : Ptr → U8
  /-- The calls that have not returned, innermost first. -/
  stack : List Frame
  /-- The number of calls so far. -/
  calls : ℕ

inductive Action
  | call (c : Call) (ans : Answers)
  /-- The kernel has finished a read with these bytes, and runs the upcall. -/
  | upcall (result : U32) (bytes : List U8)
  /-- The innermost `yield_for` tests its condition; if it holds, its function returns. -/
  | test

/-- A function has returned. -/
inductive Event
  | getnstr (call : ℕ) (ret : ℤ)
  | getch (call : ℕ) (ret : ℤ)
  deriving DecidableEq

/-- The driver writes the bytes into the region. -/
def fill (r : Region) (bytes : List U8) (mem : Ptr → U8) (q : Ptr) : U8 :=
  match r.ptr with
  | none => mem q
  | some p => if p ≤ q ∧ q < p + r.size.toNat then bytes.getD (q - p) (mem q) else mem q

namespace World

/-- What is reported when the `getnstr` of a call returns `ret`. -/
def returned (w : World) (call : ℕ) (ret : ℤ) : Call → List Event
  | .getnstr _ _ => [.getnstr call ret]
  | .getch buf => [.getnstr call ret, .getch call (getch ret (w.mem buf))]

def step (w : World) : Action → Option (World × List Event)
  | .call c ans =>
    let (ret, st) := getnstr ans c.region.ptr c.region.size w.st
    match ret with
    | some ret => some ({ w with st, calls := w.calls + 1 }, w.returned w.calls ret c)
    | none => some ({ w with st, stack := ⟨w.calls, c⟩ :: w.stack, calls := w.calls + 1 }, [])
  | .upcall result bytes =>
    match w.st.reads with
    | [] => none
    | _ :: reads =>
      let st := { w.st with reads }
      let mem := fill st.allowed bytes w.mem
      match st.subscribed with
      | some (.getnstrUpcall, _) => some ({ w with st := getnstrUpcall result st, mem }, [])
      | _ => some ({ w with st, mem }, [])
  | .test =>
    match w.stack with
    | [] => none
    | f :: stack =>
      if w.st.getnstrData.called then
        some ({ w with stack }, w.returned f.call w.st.getnstrData.result f.kind)
      else none

def Step (w : World) (a : Action) (w' : World) (es : List Event) : Prop :=
  w.step a = some (w', es)

/-- At program start. -/
def boot : World where
  st :=
    { getnstrData := ⟨true, 0⟩
      allowed := ⟨none, 0⟩
      subscribed := none
      reads := [] }
  mem := fun _ => 0
  stack := []
  calls := 0

/-- A `getnstr` waits for its upcall: the kernel has accepted its read and not answered it. -/
def Waiting (w : World) : Prop := ∃ f ∈ w.stack, f.kind.region ∈ w.st.reads

/-- The condition on a step: when a `getnstr` gets to its system calls, these succeed. -/
def Accepted (w : World) : Action → Prop
  | .call _ ans => w.st.getnstrData.called = true → ans.accept = true
  | _ => True

end World

/-! ### One call -/

variable {ans : Answers} {s : State}

lemma getnstrAsync_accepted (h : ans.accept = true) (buf : Option Ptr) (len : U32)
    (cb : SubscribeUpcall) (userdata : Option Ptr) (s : State) :
    getnstrAsync ans buf len cb userdata s = (returncodeSuccess,
      { s with
        allowed := ⟨buf, len⟩
        subscribed := some (cb, userdata)
        reads := s.reads ++ [⟨buf, len⟩] }) := by
  obtain ⟨allow, sub, com⟩ := ans
  cases allow <;> cases sub <;> cases com <;> first
    | rfl
    | cases h

lemma getnstrAsync_refused (h : ans.accept = false) (buf : Option Ptr) (len : U32)
    (cb : SubscribeUpcall) (userdata : Option Ptr) (s : State) :
    (getnstrAsync ans buf len cb userdata s).1 < 0 ∧
      ∃ allowed subscribed,
        (getnstrAsync ans buf len cb userdata s).2 = { s with allowed, subscribed } := by
  obtain ⟨allow, sub, com⟩ := ans
  cases allow with
  | error e => exact ⟨tockStatusToReturncode_neg e, s.allowed, s.subscribed, rfl⟩
  | ok =>
    cases sub with
    | error e => exact ⟨tockStatusToReturncode_neg e, ⟨buf, len⟩, s.subscribed, rfl⟩
    | ok =>
      cases com with
      | success => cases h
      | failure e =>
        exact ⟨tockCommandReturnNovalueToReturncode_neg (r := .failure e) (by simp), ⟨buf, len⟩,
          some (cb, userdata), rfl⟩
      | other =>
        exact ⟨tockCommandReturnNovalueToReturncode_neg (r := .other) (by simp), ⟨buf, len⟩,
          some (cb, userdata), rfl⟩

lemma getnstr_busy (h : s.getnstrData.called = false) (ans : Answers) (str : Option Ptr)
    (len : U32) : getnstr ans str len s = (some returncodeEAlready, s) := by
  simp [getnstr, h]

lemma getnstr_accepted (h : s.getnstrData.called = true) (hacc : ans.accept = true)
    (str : Option Ptr) (len : U32) :
    getnstr ans str len s = (none,
      { s.clear with
        allowed := ⟨str, len⟩
        subscribed := some (.getnstrUpcall, none)
        reads := s.reads ++ [⟨str, len⟩] }) := by
  simp only [getnstr, h, getnstrAsync_accepted hacc, returncodeSuccess, lt_irrefl]
  rfl

lemma getnstr_refused (h : s.getnstrData.called = true) (hacc : ans.accept = false)
    (str : Option Ptr) (len : U32) :
    ∃ ret allowed subscribed,
      getnstr ans str len s = (some ret, { s.clear with allowed, subscribed }) := by
  obtain ⟨hneg, allowed, subscribed, hs⟩ :=
    getnstrAsync_refused hacc str len .getnstrUpcall none s.clear
  refine ⟨(getnstrAsync ans str len .getnstrUpcall none s.clear).1, allowed, subscribed, ?_⟩
  simp only [getnstr, h, hneg, if_true, hs]
  rfl

/-! ### Either every call was accepted, or none is attempted any more -/

namespace World

variable {w w' : World} {a : Action} {es tr : List Event}

structure Good (w : World) : Prop where
  idle : w.st.getnstrData.called = true → w.st.reads = []
  waiting : w.st.getnstrData.called = false → ∃ f ∈ w.stack, w.st.reads = [f.kind.region]
  subscribed : w.st.reads ≠ [] → w.st.subscribed = some (.getnstrUpcall, none)

/-- No upcall will set `called` again. -/
structure Stuck (w : World) : Prop where
  called : w.st.getnstrData.called = false
  reads : w.st.reads = []

lemma step_call_busy (h : w.st.getnstrData.called = false) (c : Call) (ans : Answers) :
    w.step (.call c ans) =
      some ({ w with calls := w.calls + 1 }, w.returned w.calls returncodeEAlready c) := by
  simp [step, getnstr_busy h]

lemma Good.step (h : Good w) (hacc : w.Accepted a) (hstep : Step w a w' es) : Good w' := by
  cases a with
  | call c ans =>
    cases hcalled : w.st.getnstrData.called with
    | false =>
      rw [Step, step_call_busy hcalled] at hstep
      cases hstep
      exact ⟨h.idle, h.waiting, h.subscribed⟩
    | true =>
      simp only [Step, World.step, getnstr_accepted hcalled (hacc hcalled)] at hstep
      cases hstep
      refine ⟨by simp [State.clear], fun _ => ⟨_, List.mem_cons_self, ?_⟩, fun _ => rfl⟩
      simp [h.idle hcalled, Call.region]
  | upcall result bytes =>
    cases hreads : w.st.reads with
    | nil => simp [Step, World.step, hreads] at hstep
    | cons r reads =>
      -- the flag is cleared, so the only read is the one of a call that waits
      have hcalled : w.st.getnstrData.called = false := by
        by_contra hc
        exact absurd (h.idle (by simpa using hc)) (by simp [hreads])
      obtain ⟨f, -, hf⟩ := h.waiting hcalled
      have hnil : reads = [] := by simpa [hreads] using congrArg List.tail hf
      have hsub := h.subscribed (by simp [hreads])
      simp only [Step, World.step, hreads, hsub] at hstep
      cases hstep
      exact ⟨fun _ => hnil, by simp [getnstrUpcall], fun hne => absurd hnil hne⟩
  | test =>
    cases hstack : w.stack with
    | nil => simp [Step, World.step, hstack] at hstep
    | cons f stack =>
      cases hcalled : w.st.getnstrData.called with
      | false => simp [Step, World.step, hstack, hcalled] at hstep
      | true =>
        simp only [Step, World.step, hstack, hcalled, if_true] at hstep
        cases hstep
        exact ⟨h.idle, fun hc => absurd (hcalled.symm.trans hc) (by simp), h.subscribed⟩

lemma Stuck.step (h : Stuck w) (hstep : Step w a w' es) : Stuck w' := by
  cases a with
  | call c ans =>
    rw [Step, step_call_busy h.called] at hstep
    cases hstep
    exact ⟨h.called, h.reads⟩
  | upcall result bytes => simp [Step, World.step, h.reads] at hstep
  | test =>
    cases hstack : w.stack with
    | nil => simp [Step, World.step, hstack] at hstep
    | cons f stack => simp [Step, World.step, hstack, h.called] at hstep

/-- A call that is refused leaves nothing to wait for. -/
lemma Good.stuck (h : Good w) (hacc : ¬ w.Accepted a) (hstep : Step w a w' es) : Stuck w' := by
  cases a with
  | call c ans =>
    obtain ⟨hcalled, hans⟩ := Classical.not_imp.mp hacc
    obtain ⟨ret, allowed, subscribed, hget⟩ :=
      getnstr_refused hcalled (Bool.eq_false_iff.mpr hans) c.region.ptr c.region.size
    simp only [Step, World.step, hget] at hstep
    cases hstep
    exact ⟨rfl, h.idle hcalled⟩
  | upcall result bytes => exact absurd trivial hacc
  | test => exact absurd trivial hacc

lemma boot_good : Good boot := ⟨fun _ => rfl, by simp [boot], by simp [boot]⟩

lemma run_good (hrun : Run (Guarded Step Accepted) boot tr w) : Good w :=
  hrun.trace_invariant (fun _ w => Good w)
    (fun _ _ _ _ _ h hstep => h.step hstep.1 hstep.2) boot_good

lemma run_cases (hrun : Run Step boot tr w) :
    Run (Guarded Step Accepted) boot tr w ∨ Stuck w := by
  refine hrun.trace_invariant
    (fun tr w => Run (Guarded Step Accepted) boot tr w ∨ Stuck w) ?_ (.inl .nil)
  intro tr w a w' es h hstep
  rcases h with h | h
  · by_cases hacc : w.Accepted a
    · exact .inl (h.snoc a ⟨hacc, hstep⟩)
    · exact .inr ((run_good h).stuck hacc hstep)
  · exact .inr (h.step hstep)

/-- In every run, nested or not, the next `getnstr` returns `RETURNCODE_EALREADY` only while an
earlier one waits for its upcall, if and only if the system calls of every `getnstr` that got to
them have succeeded. -/
theorem getnstr_already_iff (hrun : Run Step boot tr w) :
    (∀ c ans w' es, w.Accepted (.call c ans) → Step w (.call c ans) w' es →
        .getnstr w.calls returncodeEAlready ∈ es → w.Waiting) ↔
      Run (Guarded Step Accepted) boot tr w := by
  constructor
  · intro h
    refine (run_cases hrun).resolve_right fun hstuck => ?_
    have hstep := step_call_busy hstuck.called (.getnstr none 0) ⟨.ok (), .ok (), .success⟩
    obtain ⟨f, -, hf⟩ := h _ _ _ _ (fun _ => rfl) hstep (by simp [returned])
    simp [hstuck.reads] at hf
  · intro hrun' c ans w' es hacc hstep hmem
    cases hcalled : w.st.getnstrData.called with
    | false =>
      obtain ⟨f, hf, hreads⟩ := (run_good hrun').waiting hcalled
      exact ⟨f, hf, by simp [hreads]⟩
    | true =>
      simp only [Step, step, getnstr_accepted hcalled (hacc hcalled)] at hstep
      cases hstep
      simp at hmem

/-- A `getch` inside the `yield_for` of a `getnstr`. -/
theorem getnstr_already_iff_nested :
    ∃ w, Run Step boot [.getnstr 1 (-3), .getch 1 (-1)] w ∧
      ((∀ c ans w' es, w.Accepted (.call c ans) → Step w (.call c ans) w' es →
          .getnstr w.calls returncodeEAlready ∈ es → w.Waiting) ↔
        Run (Guarded Step Accepted) boot [.getnstr 1 (-3), .getch 1 (-1)] w) := by
  let accepted : Answers := ⟨.ok (), .ok (), .success⟩
  have hrun : Run Step boot [.getnstr 1 (-3), .getch 1 (-1)] _ :=
    .of_play (f := step) (fun _ _ _ _ h => h)
      [.call (.getnstr (some 0x100) 80) accepted, .call (.getch 0x200) accepted] rfl
  exact ⟨_, hrun, getnstr_already_iff hrun⟩

/-- When the command of the first `getnstr` fails, the second is refused though nobody waits. -/
theorem getnstr_already_not :
    ¬ ∀ tr w, Run Step boot tr w → ∀ c ans w' es, Step w (.call c ans) w' es →
      .getnstr w.calls returncodeEAlready ∈ es → w.Waiting := by
  intro h
  let refused : Answers := ⟨.ok (), .ok (), .failure ⟨.busy, by decide⟩⟩
  have hrun : Run Step boot [.getnstr 0 (-2)] _ :=
    .of_play (f := step) (fun _ _ _ _ h => h) [.call (.getnstr (some 0x100) 80) refused] rfl
  obtain ⟨f, hf, -⟩ := h _ _ hrun (.getnstr (some 0x100) 80) ⟨.ok (), .ok (), .success⟩ _ _ rfl
    List.mem_cons_self
  cases hf

end World

end Read

end Console
