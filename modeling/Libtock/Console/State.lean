import Libtock.Core.Chain
import Libtock.Tock.Syscall
import Libtock.Tock.TaskQueue

/-!
# Writing to the console: the code of `console.c`

`State` holds the memory that `putnstr` works on: the entries and buffers it has allocated, the
static variables `putstr_head` and `putstr_tail`, and what the kernel's console driver has been
told. An object that is not allocated is `none`, and to use one is a fault. A system call that
comes back with an unexpected variant ends the process and is left out.
-/

namespace Console

open Core Tock

abbrev U8 := BitVec 8

/-- `putstr_data_t` -/
structure PutstrData where
  buf : Option Ptr
  len : U32
  called : Bool
  next : Option Ptr
  deriving DecidableEq

/-- The functions that are subscribed to written lines. -/
inductive SubscribeUpcall
  | putstrUpcall
  /-- A function of the application. -/
  | app (f : ℕ)
  deriving DecidableEq

/-- A pointer and a size, as passed to `allow_readonly`. -/
structure Region where
  ptr : Option Ptr
  size : U32
  deriving DecidableEq

structure State where
  nodes : Ptr → Option PutstrData
  bufs : Ptr → Option (List U8)
  putstrHead : Option Ptr
  putstrTail : Option Ptr
  /-- What the console driver may read. -/
  allowed : Region
  /-- The upcall for writes and its `userdata`. -/
  subscribed : Option (SubscribeUpcall × Option Ptr)
  /-- The writes the kernel has accepted and not answered yet. -/
  writes : List Region

inductive Fault
  | outOfFuel
  | nullPointer
  | notAllocated
  deriving DecidableEq

abbrev Result := Except Fault

namespace State

def setNode (p : Ptr) (d : PutstrData) (s : State) : State :=
  { s with nodes := Function.update s.nodes p (some d) }

def setBuf (b : Ptr) (bytes : List U8) (s : State) : State :=
  { s with bufs := Function.update s.bufs b (some bytes) }

/-- `*p` -/
def load (p : Option Ptr) (s : State) : Result PutstrData :=
  match p with
  | none => .error .nullPointer
  | some p =>
    match s.nodes p with
    | none => .error .notAllocated
    | some d => .ok d

/-- `data->called = true; putstr_head = data->next;`, where `data` points to `d`. -/
def pop (data : Ptr) (d : PutstrData) (s : State) : State :=
  { s.setNode data { d with called := true } with putstrHead := d.next }

/-- `putstr_tail->next = data; putstr_tail = data;`, where `putstr_tail` is `tail` and points to
`t`. -/
def push (tail : Ptr) (t : PutstrData) (data : Ptr) (s : State) : State :=
  { s.setNode tail { t with next := some data } with putstrTail := some data }

/-- `free(p)` for an entry. -/
def freeNode (p : Ptr) (s : State) : Result State :=
  match s.nodes p with
  | none => .error .notAllocated
  | some _ => .ok { s with nodes := Function.update s.nodes p none }

/-- `free(b)` for a buffer; freeing a null pointer does nothing. -/
def freeBuf (b : Option Ptr) (s : State) : Result State :=
  match b with
  | none => .ok s
  | some b =>
    match s.bufs b with
    | none => .error .notAllocated
    | some _ => .ok { s with bufs := Function.update s.bufs b none }

/-- The bytes the kernel finds in a region, if the memory is allocated. -/
def read (r : Region) (s : State) : Option (List U8) :=
  (r.ptr.bind s.bufs).map (·.take r.size.toNat)

end State

/-- What `strncpy` leaves in the first `n` bytes of its destination: it stops at a zero byte and
fills the rest with zeros. -/
def strncpy (str : ℕ → U8) : ℕ → List U8
  | 0 => []
  | n + 1 =>
    if str 0 = 0 then List.replicate (n + 1) 0 else str 0 :: strncpy (fun i => str (i + 1)) n

/-- The kernel's answers to the system calls of one `putnstr_async`. -/
structure Answers where
  allow : Except Failure Unit
  subscribe : Except Failure Unit
  command : CommandReturn

def putnstrAsync (ans : Answers) (str : Option Ptr) (len : U32) (cb : SubscribeUpcall)
    (userdata : Option Ptr) (s : State) : ℤ × State :=
  match ans.allow with
  | .error e => (tockStatusToReturncode e.status, s)
  | .ok () =>
    let s := { s with allowed := ⟨str, len⟩ }
    match ans.subscribe with
    | .error e => (tockStatusToReturncode e.status, s)
    | .ok () =>
      let s := { s with subscribed := some (cb, userdata) }
      match ans.command with
      -- the kernel has accepted the write
      | .success => (returncodeSuccess, { s with writes := s.writes ++ [s.allowed] })
      | com => (tockCommandReturnNovalueToReturncode com, s)

/-- A call of `putnstr_async` for an entry: what its buffer holds, and the result. -/
structure Submission where
  entry : Ptr
  bytes : Option (List U8)
  ret : ℤ
  deriving DecidableEq

/-- `putnstr_async(data->buf, data->len, putstr_upcall, NULL)` -/
def submit (ans : Answers) (data : Ptr) (d : PutstrData) (s : State) : Submission × State :=
  let bytes := s.read ⟨d.buf, d.len⟩
  let (ret, s) := putnstrAsync ans d.buf d.len .putstrUpcall none s
  (⟨data, bytes, ret⟩, s)

/-- `putstr_upcall`, where `ans k` are the answers to its `k`-th `putnstr_async`; it takes at most
`fuel` calls of itself. -/
def putstrUpcall : ℕ → (ℕ → Answers) → State → Result (State × List Submission)
  | 0, _, _ => .error .outOfFuel
  | fuel + 1, ans, s =>
    match s.putstrHead with
    | none => .error .nullPointer
    | some data => do
      let d ← s.load (some data)
      let s := s.pop data d
      match s.putstrHead with
      | none => .ok ({ s with putstrTail := none }, [])
      | some head =>
        let h ← s.load (some head)
        let (sub, s) := submit (ans 0) head h s
        if sub.ret < 0 then
          let (s, log) ← putstrUpcall fuel (fun k => ans (k + 1)) s
          .ok (s, sub :: log)
        else
          .ok (s, [sub])

/-- The results of the two calls of `malloc` in `putnstr`. -/
structure Allocation where
  data : Option Ptr
  buf : Option Ptr

/-- What `putnstr` has done when it reaches its `yield_for` or returns before. -/
structure Started where
  /-- The entry it made, if there was memory for it. -/
  entry : Option Ptr
  submission : Option Submission
  /-- Its result, if it has returned. -/
  returned : Option ℤ

/-- `putnstr` up to its `yield_for`. Each field of a new entry is written before it is read. -/
def putnstr (alloc : Allocation) (ans : Answers) (str : ℕ → U8) (len : U32) (s : State) :
    Result (State × Started) :=
  match alloc.data with
  | none => .ok (s, ⟨none, none, some returncodeENomem⟩)
  | some data => do
    let d : PutstrData := ⟨alloc.buf, len, false, none⟩
    let s := s.setNode data d
    match alloc.buf with
    | none => do
      let s ← s.freeNode data
      .ok (s, ⟨none, none, some returncodeENomem⟩)
    | some buf =>
      let s := s.setBuf buf (strncpy str len.toNat)
      match s.putstrTail with
      | none =>
        let (sub, s) := submit ans data d s
        if sub.ret < 0 then
          let s ← s.freeBuf d.buf
          let s ← s.freeNode data
          .ok (s, ⟨some data, some sub, some sub.ret⟩)
        else
          .ok ({ s with putstrHead := some data, putstrTail := some data },
            ⟨some data, some sub, none⟩)
      | some tail =>
        let t ← s.load (some tail)
        .ok (s.push tail t data, ⟨some data, none, none⟩)

/-- `putnstr` after its `yield_for`. -/
def putnstrEnd (data : Ptr) (s : State) : Result State := do
  let d ← s.load (some data)
  let s ← s.freeBuf d.buf
  s.freeNode data

end Console
