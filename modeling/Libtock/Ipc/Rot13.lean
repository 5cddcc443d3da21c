import Libtock.Core.History
import Libtock.Core.Run
import Libtock.Ipc.Discover
import Mathlib.Data.List.GetD
import Mathlib.Logic.Function.Iterate

/-!
# A service that works in place on the buffers of its clients

The clients of `rot13_service` share 64 bytes with it. The service rotates the text in there and
notifies the client, which prints it and, half a second later, notifies the service again. The
processes preempt each other between any two bytes, and nothing but the order of the notifications
keeps the service and a client apart.

The kernel accepts `ipc_register_client_callback` and `ipc_share`; a notification may get lost.
-/

namespace Ipc.Rot13

open Core

abbrev Byte := BitVec 8

/-! ### The code of the service and of a client -/

/-- One pass of the loop of the service. -/
def rot13 (c : Byte) : Byte :=
  let n := c.toNat
  if 97 ≤ n ∧ n ≤ 122 then BitVec.ofNat 8 ((n - 97 + 13) % 26 + 97)
  else if 65 ≤ n ∧ n ≤ 90 then BitVec.ofNat 8 ((n - 65 + 13) % 26 + 65)
  else c

/-- The bytes that are shared. -/
def sharedLen : ℤ := 64

/-- The number of characters that the service rotates. -/
def callbackLength (len : ℤ) (buf : ℕ → Byte) : ℤ :=
  let length := (buf 0).toInt
  if length > len - 1 then len - 1 else length

/-- The buffer that `main` of a client fills, with `snprintf` for 31 bytes. -/
def fill (text : List Byte) : ℕ → Byte
  | 0 => BitVec.ofNat 8 text.length
  | i + 1 => (text.take 30).getD i 0

/-- A `rot13_callback` of a client. -/
inductive Phase
  /-- In `printf`, with the precision of `%.*s` and what is printed so far; writing yields. -/
  | printing (precision : ℤ) (shown : List Byte)
  /-- In the `yield_for` of `delay_ms`. -/
  | delaying

structure Client where
  started : Bool
  buf : ℕ → Byte
  /-- The notifications that wait for it. -/
  due : ℕ
  /-- The callbacks in progress, the innermost one first. -/
  callbacks : List Phase

/-- `%.*s` is done: a negative precision counts for nothing. -/
def printfEnds (buf : ℕ → Byte) (precision : ℤ) (shown : List Byte) : Prop :=
  0 ≤ precision ∧ precision ≤ shown.length ∨ buf (1 + shown.length) = 0

instance (buf : ℕ → Byte) (precision : ℤ) (shown : List Byte) :
    Decidable (printfEnds buf precision shown) :=
  inferInstanceAs (Decidable (_ ∨ _))

/-! ### Runs -/

variable {ι : Type} [DecidableEq ι]

/-- The `rot13_callback` of the service, before the `i`-th pass of its loop. -/
structure Handler (ι : Type) where
  client : ι
  length : ℤ
  i : ℕ

structure World (ι : Type) where
  client : ι → Client
  /-- The notifications that wait for the service. -/
  due : List ι
  handler : Option (Handler ι)

inductive Action (ι : Type)
  | main (c : ι) (accepted : Bool)
  /-- The callback of the service is called. -/
  | serve
  | rotate
  /-- `ipc_notify_client` -/
  | reply (accepted : Bool)
  /-- The callback of a client is called. -/
  | called (c : ι)
  | read (c : ι)
  | printed (c : ι)
  /-- The delay is over: `ipc_notify_service`. -/
  | again (c : ι) (accepted : Bool)

inductive Note
  /-- The byte at this offset of the buffer is read or written. -/
  | touched (offset : ℕ)
  | printed (length : ℤ) (shown : List Byte)
  deriving DecidableEq

/-- An event at the buffer of a client. -/
abbrev Event (ι : Type) := ι × Note

def World.set (w : World ι) (c : ι) (cl : Client) : World ι :=
  { w with client := Function.update w.client c cl }

/-- A notification for the service. -/
def World.notify (w : World ι) (c : ι) (accepted : Bool) : World ι :=
  { w with due := if accepted then w.due ++ [c] else w.due }

def exec (text : ι → List Byte) (w : World ι) : Action ι → Option (World ι × List (Event ι))
  | .main c accepted =>
    let cl := w.client c
    if cl.started then none
    else some ((w.set c { cl with started := true, buf := fill (text c) }).notify c accepted, [])
  | .serve =>
    match w.handler, w.due with
    | none, c :: due =>
      let length := callbackLength sharedLen (w.client c).buf
      some ({ w with due, handler := some ⟨c, length, 0⟩ }, [(c, .touched 0)])
    | _, _ => none
  | .rotate =>
    match w.handler with
    | some ⟨c, length, i⟩ =>
      let cl := w.client c
      let buf := Function.update cl.buf (1 + i) (rot13 (cl.buf (1 + i)))
      if (i : ℤ) < length then
        some ({ w.set c { cl with buf } with handler := some ⟨c, length, i + 1⟩ },
          [(c, .touched (1 + i))])
      else none
    | none => none
  | .reply accepted =>
    match w.handler with
    | some ⟨c, length, i⟩ =>
      let cl := w.client c
      let due := cl.due + accepted.toNat
      if (i : ℤ) < length then none
      else some ({ w.set c { cl with due } with handler := none }, [])
    | none => none
  | .called c =>
    let cl := w.client c
    match cl.due with
    | 0 => none
    | due + 1 =>
      let callbacks := .printing (cl.buf 0).toInt [] :: cl.callbacks
      if cl.started then some (w.set c { cl with due, callbacks }, [(c, .touched 0)]) else none
  | .read c =>
    let cl := w.client c
    match cl.callbacks with
    | .printing precision shown :: callbacks =>
      let shown' := shown ++ [cl.buf (1 + shown.length)]
      if printfEnds cl.buf precision shown then none
      else some (w.set c { cl with callbacks := .printing precision shown' :: callbacks },
        [(c, .touched (1 + shown.length))])
    | _ => none
  | .printed c =>
    let cl := w.client c
    match cl.callbacks with
    | .printing precision shown :: callbacks =>
      if printfEnds cl.buf precision shown then
        some (w.set c { cl with callbacks := .delaying :: callbacks },
          [(c, .printed precision shown)])
      else none
    | _ => none
  | .again c accepted =>
    let cl := w.client c
    match cl.callbacks with
    | .delaying :: callbacks => some ((w.set c { cl with callbacks }).notify c accepted, [])
    | _ => none

def Step (text : ι → List Byte) (w : World ι) (a : Action ι) (w' : World ι)
    (es : List (Event ι)) : Prop :=
  exec text w a = some (w', es)

/-- Nobody has started. -/
structure Initial (w : World ι) : Prop where
  due : w.due = []
  handler : w.handler = none
  client : ∀ c, (w.client c).started = false ∧ (w.client c).due = 0 ∧ (w.client c).callbacks = []

/-! ### The view of one client -/

/-- What concerns a client: itself, its notifications that wait for the service, and how far the
service is with its buffer. -/
structure View where
  client : Client
  queued : ℕ
  handler : Option (ℤ × ℕ)

/-- The handler, if it works for `c`. -/
def Handler.at (c : ι) (h : Handler ι) : Option (ℤ × ℕ) :=
  if h.client = c then some (h.length, h.i) else none

def World.view (w : World ι) (c : ι) : View :=
  ⟨w.client c, w.due.count c, w.handler.bind (Handler.at c)⟩

/-- The steps of a client and of the service on its behalf. -/
inductive View.Step (text : List Byte) (l : View) : View → List Note → Prop
  | main (accepted : Bool) (hstarted : l.client.started = false) :
      Step text l
        { l with
          client := { l.client with started := true, buf := fill text }
          queued := l.queued + accepted.toNat } []
  | serve {queued : ℕ} (hqueued : l.queued = queued + 1) (hhandler : l.handler = none) :
      Step text l
        { l with queued, handler := some (callbackLength sharedLen l.client.buf, 0) } [.touched 0]
  | rotate {length : ℤ} {i : ℕ} (hhandler : l.handler = some (length, i)) (hi : (i : ℤ) < length) :
      Step text l
        { l with
          client.buf := Function.update l.client.buf (1 + i) (rot13 (l.client.buf (1 + i)))
          handler := some (length, i + 1) } [.touched (1 + i)]
  | reply {length : ℤ} {i : ℕ} (accepted : Bool) (hhandler : l.handler = some (length, i))
      (hi : ¬ (i : ℤ) < length) :
      Step text l { l with client.due := l.client.due + accepted.toNat, handler := none } []
  | called {due : ℕ} (hdue : l.client.due = due + 1) (hstarted : l.client.started = true) :
      Step text l
        { l with
          client.due := due
          client.callbacks := .printing (l.client.buf 0).toInt [] :: l.client.callbacks }
        [.touched 0]
  | read {precision : ℤ} {shown : List Byte} {callbacks : List Phase}
      (hcallbacks : l.client.callbacks = .printing precision shown :: callbacks)
      (hends : ¬ printfEnds l.client.buf precision shown) :
      Step text l
        { l with
          client.callbacks :=
            .printing precision (shown ++ [l.client.buf (1 + shown.length)]) :: callbacks }
        [.touched (1 + shown.length)]
  | printed {precision : ℤ} {shown : List Byte} {callbacks : List Phase}
      (hcallbacks : l.client.callbacks = .printing precision shown :: callbacks)
      (hends : printfEnds l.client.buf precision shown) :
      Step text l { l with client.callbacks := .delaying :: callbacks } [.printed precision shown]
  | again {callbacks : List Phase} (accepted : Bool)
      (hcallbacks : l.client.callbacks = .delaying :: callbacks) :
      Step text l
        { l with client.callbacks := callbacks, queued := l.queued + accepted.toNat } []

variable {text : ι → List Byte} {w w' : World ι} {a : Action ι} {es : List (Event ι)}
  {c c' : ι} {length : ℤ} {i : ℕ}

@[simp] lemma view_set_self (cl : Client) :
    (w.set c cl).view c = { w.view c with client := cl } := by
  simp [World.view, World.set]

@[simp] lemma view_set_of_ne (cl : Client) (h : c' ≠ c) : (w.set c cl).view c' = w.view c' := by
  simp [World.view, World.set, h]

@[simp] lemma view_notify_self (accepted : Bool) :
    (w.notify c accepted).view c =
      { w.view c with queued := (w.view c).queued + accepted.toNat } := by
  cases accepted <;> simp [World.view, World.notify]

@[simp] lemma view_notify_of_ne (accepted : Bool) (h : c' ≠ c) :
    (w.notify c accepted).view c' = w.view c' := by
  cases accepted <;> simp [World.view, World.notify, h.symm]

lemma view_handler (h : w.handler = some ⟨c, length, i⟩) :
    (w.view c).handler = some (length, i) := by
  simp [World.view, h, Handler.at]

/-- A step is one of a client, and no other client sees it. -/
lemma Step.view (h : Step text w a w' es) :
    ∃ c ns, View.Step (text c) (w.view c) (w'.view c) ns ∧ es = ns.map (Prod.mk c) ∧
      ∀ c' ≠ c, w'.view c' = w.view c' := by
  rw [Step] at h
  cases a with
  | main c accepted =>
    simp only [exec] at h
    split_ifs at h with hstarted
    cases h
    refine ⟨c, [], ?_, rfl, fun c' hc' => by simp [hc']⟩
    simp only [view_notify_self, view_set_self]
    exact .main accepted (Bool.eq_false_of_not_eq_true hstarted)
  | serve =>
    simp only [exec] at h
    split at h
    · next c due hhandler hdue =>
      cases h
      refine ⟨c, [.touched 0], ?_, rfl, fun c' hc' => ?_⟩
      · have hqueued : (w.view c).queued = due.count c + 1 := by simp [World.view, hdue]
        have hnone : (w.view c).handler = none := by simp [World.view, hhandler]
        have hview := @View.Step.serve (text c) (w.view c) _ hqueued hnone
        simpa [World.view, Handler.at] using hview
      · simp [World.view, hdue, hhandler, Handler.at, hc'.symm]
    · cases h
  | rotate =>
    simp only [exec] at h
    split at h
    · next c length i hhandler =>
      split_ifs at h with hi
      cases h
      refine ⟨c, [.touched (1 + i)], ?_, rfl, fun c' hc' => ?_⟩
      · have hview := @View.Step.rotate (text c) (w.view c) _ _ (view_handler hhandler) hi
        simpa [World.view, World.set, Handler.at] using hview
      · simp [World.view, World.set, hhandler, Handler.at, hc', hc'.symm]
    · cases h
  | reply accepted =>
    simp only [exec] at h
    split at h
    · next c length i hhandler =>
      split_ifs at h with hi
      cases h
      refine ⟨c, [], ?_, rfl, fun c' hc' => ?_⟩
      · have hview := @View.Step.reply (text c) (w.view c) _ _ accepted (view_handler hhandler) hi
        simpa [World.view, World.set, Handler.at] using hview
      · simp [World.view, World.set, hhandler, Handler.at, hc', hc'.symm]
    · cases h
  | called c =>
    simp only [exec] at h
    split at h
    · cases h
    · next due hdue =>
      split_ifs at h with hstarted
      cases h
      refine ⟨c, [.touched 0], ?_, rfl, fun c' hc' => by simp [hc']⟩
      rw [view_set_self]
      exact .called hdue hstarted
  | read c =>
    simp only [exec] at h
    split at h
    · next precision shown callbacks hcallbacks =>
      split_ifs at h with hends
      cases h
      refine ⟨c, [.touched (1 + shown.length)], ?_, rfl, fun c' hc' => by simp [hc']⟩
      rw [view_set_self]
      exact .read hcallbacks hends
    · cases h
  | printed c =>
    simp only [exec] at h
    split at h
    · next precision shown callbacks hcallbacks =>
      split_ifs at h with hends
      cases h
      refine ⟨c, [.printed precision shown], ?_, rfl, fun c' hc' => by simp [hc']⟩
      rw [view_set_self]
      exact .printed hcallbacks hends
    · cases h
  | again c accepted =>
    simp only [exec] at h
    split at h
    · next callbacks hcallbacks =>
      cases h
      refine ⟨c, [], ?_, rfl, fun c' hc' => by simp [hc']⟩
      simp only [view_notify_self, view_set_self]
      exact .again accepted hcallbacks
    · cases h

end Ipc.Rot13
