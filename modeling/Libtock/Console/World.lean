import Libtock.Core.Run
import Libtock.Console.Memory

/-!
# Runs of an application that writes to the console

A `World` is the memory of `console.c` with the calls of `putnstr` that have not returned. Such a
call is inside its `yield_for`; the tasks and upcalls that run there may call `putnstr` again, so
the calls are nested. The calls are numbered in the order in which they were made, and `call` gives
the number of the call an entry belongs to.

The kernel answers each write it has accepted with one upcall, which it delivers in any yield.
-/

namespace Console

open Core Tock

/-- A call of `putnstr` inside its `yield_for`. -/
structure Frame where
  data : Ptr
  ret : ℤ

structure World where
  st : State
  /-- The calls that have not returned, innermost first. -/
  stack : List Frame
  /-- The number of calls so far. -/
  calls : ℕ
  call : Ptr → ℕ

inductive Action
  | putnstr (alloc : Allocation) (ans : Answers) (str : ℕ → U8) (len : U32)
  /-- The kernel has finished a write and runs the upcall. -/
  | upcall (ans : ℕ → Answers)
  /-- The innermost `yield_for` tests its condition; if it holds, `putnstr` returns. -/
  | test

inductive Event
  /-- A call has made an entry for the bytes `str[0]`, …, `str[len-1]`. -/
  | entered (call : ℕ) (bytes : List U8)
  | submitted (call : ℕ) (bytes : Option (List U8)) (ret : ℤ)
  | returned (call : ℕ) (ret : ℤ)
  deriving DecidableEq

def Submission.event (call : Ptr → ℕ) (sub : Submission) : Event :=
  .submitted (call sub.entry) sub.bytes sub.ret

namespace World

/-- What a call with these bytes leads to when it waits or returns, the memory being `st`. -/
def started (w : World) (bytes : List U8) (st : State) (r : Started) : World × List Event :=
  let ret := (r.submission.map Submission.ret).getD returncodeSuccess
  let call := match r.entry with
    | some data => Function.update w.call data w.calls
    | none => w.call
  let stack := match r.entry, r.returned with
    | some data, none => ⟨data, ret⟩ :: w.stack
    | _, _ => w.stack
  ({ st, stack, calls := w.calls + 1, call },
    r.entry.toList.map (fun _ => .entered w.calls bytes) ++
      r.submission.toList.map (Submission.event call) ++ r.returned.toList.map (.returned w.calls))

def step (fuel : ℕ) (w : World) : Action → Result (World × List Event)
  | .putnstr alloc ans str len =>
    (putnstr alloc ans str len w.st).map fun r =>
      w.started ((List.range len.toNat).map str) r.1 r.2
  | .upcall ans =>
    match w.st.writes with
    | [] => .ok (w, [])
    | _ :: writes =>
      let st := { w.st with writes }
      match st.subscribed with
      | some (.putstrUpcall, _) =>
        (putstrUpcall fuel ans st).map fun r =>
          ({ w with st := r.1 }, r.2.map (Submission.event w.call))
      | _ => .ok ({ w with st }, [])
  | .test =>
    match w.stack with
    | [] => .ok (w, [])
    | f :: stack => do
      let d ← w.st.load (some f.data)
      if d.called then
        let st ← putnstrEnd f.data w.st
        .ok ({ w with st, stack }, [.returned (w.call f.data) f.ret])
      else
        .ok (w, [])

/-- A step of the code: with enough fuel it returns, and this is what it gives. -/
def Step (w : World) (a : Action) (w' : World) (es : List Event) : Prop :=
  ∃ fuel, w.step fuel a = .ok (w', es)

/-- `malloc` does not hand out memory that is in use. -/
def Fresh (w : World) : Action → Prop
  | .putnstr alloc _ _ _ => alloc.Fresh w.st
  | _ => True

instance (w : World) : (a : Action) → Decidable (w.Fresh a)
  | .putnstr alloc _ _ _ => inferInstanceAs (Decidable (alloc.Fresh w.st))
  | .upcall _ => .isTrue trivial
  | .test => .isTrue trivial

structure Initial (w : World) : Prop where
  nodes : ∀ p, w.st.nodes p = none
  head : w.st.putstrHead = none
  tail : w.st.putstrTail = none
  writes : w.st.writes = []
  stack : w.stack = []

/-- The world at program start. -/
def boot : World where
  st :=
    { nodes := fun _ => none
      bufs := fun _ => none
      putstrHead := none
      putstrTail := none
      allowed := ⟨none, 0⟩
      subscribed := none
      writes := [] }
  stack := []
  calls := 0
  call := fun _ => 0

lemma boot_initial : Initial boot := ⟨fun _ => rfl, rfl, rfl, rfl, rfl⟩

/-- Performs the actions one after the other. -/
def exec (w : World) (as : List Action) : Option (World × List Event) :=
  play (fun w a => if w.Fresh a then (w.step 32 a).toOption else none) w as

lemma run_of_exec {w w' : World} (as : List Action) {es : List Event}
    (h : exec w as = some (w', es)) : Run (Guarded Step Fresh) w es w' := by
  refine Run.of_play (?_) as h
  intro w a w' es hstep
  split_ifs at hstep with hfresh
  refine ⟨hfresh, 32, ?_⟩
  generalize w.step 32 a = r at hstep
  cases r with
  | error e => cases hstep
  | ok r => exact congrArg Except.ok (Option.some.inj hstep)

/-! ### What a trace says about the order -/

lemma eq_of_filterMap_nodup {β : Type} {f : Event → Option β} {tr : List Event}
    (h : (tr.filterMap f).Nodup) {e e' : Event} (he : e ∈ tr) (he' : e' ∈ tr) {b : β}
    (hb : f e = some b) (hb' : f e' = some b) : e = e' := by
  by_contra hne
  have hpair : tr.Pairwise fun x y => ∀ b, f x = some b → ∀ b', f y = some b' → b ≠ b' :=
    List.pairwise_filterMap.mp h
  have hsymm : Std.Symm fun x y : Event => ∀ b, f x = some b → ∀ b', f y = some b' → b ≠ b' :=
    ⟨fun _ _ h b hb b' hb' => (h b' hb' b hb).symm⟩
  exact hpair.forall he he' hne b hb b hb' rfl

/-- The calls that made an entry, in the order of the calls. -/
def entered (tr : List Event) : List ℕ :=
  tr.filterMap fun
    | .entered call _ => some call
    | _ => none

/-- The calls whose entry was submitted, in the order of the submissions. -/
def submitted (tr : List Event) : List ℕ :=
  tr.filterMap fun
    | .submitted call _ _ => some call
    | _ => none

@[simp] lemma entered_append (tr tr' : List Event) :
    entered (tr ++ tr') = entered tr ++ entered tr' := List.filterMap_append

@[simp] lemma submitted_append (tr tr' : List Event) :
    submitted (tr ++ tr') = submitted tr ++ submitted tr' := List.filterMap_append

@[simp] lemma entered_returned (call : ℕ) (ret : Option ℤ) :
    entered (ret.toList.map (.returned call)) = [] := by
  cases ret <;> rfl

@[simp] lemma submitted_returned (call : ℕ) (ret : Option ℤ) :
    submitted (ret.toList.map (.returned call)) = [] := by
  cases ret <;> rfl

@[simp] lemma entered_log (call : Ptr → ℕ) (log : List Submission) :
    entered (log.map (Submission.event call)) = [] := by
  induction log with
  | nil => rfl
  | cons sub log ih => exact ih

@[simp] lemma submitted_log (call : Ptr → ℕ) (log : List Submission) :
    submitted (log.map (Submission.event call)) = (log.map Submission.entry).map call := by
  induction log with
  | nil => rfl
  | cons sub log ih => exact congrArg (call sub.entry :: ·) ih

end World

end Console
