import Libtock.BleScan.Advertisement
import Libtock.Core.Run

/-!
# The passive scanner

The kernel writes scan results to the buffer `scan` and schedules `callback` for each. The callback
adds a device that it has not seen to the list and prints the list. While a `printf` waits for the
console the next callback runs, so that devices are added to a list that is being printed, also
between its first line and the beginning of the loop.
-/

namespace BleScan

def maxSize : ℕ := 10

/-- The class `AdvertisementList`; `list_` is a `std::forward_list`. -/
structure AdvertisementList where
  currentSize : ℕ
  list : List Advertisement

namespace AdvertisementList

/-- The constructor fills the list with default advertisements. -/
def new : AdvertisementList := ⟨0, List.replicate maxSize .zero⟩

def containsDevice (l : AdvertisementList) (a : Advertisement) : Bool :=
  l.list.any fun b => b.deviceDetected a

def tryAdd (l : AdvertisementList) (a : Advertisement) : Bool × AdvertisementList :=
  if l.currentSize < maxSize ∧ l.containsDevice a = false then
    (true, ⟨l.currentSize + 1, a :: l.list⟩)
  else (false, l)

/-- Everything that `printList` writes. -/
def printList (l : List Advertisement) : List Line :=
  .listBegin :: l.flatMap Advertisement.print ++ [.listEnd]

end AdvertisementList

/-- A call of `printList`, the `id`-th one, that waits in a `printf`. -/
inductive Printing
  /-- In the first one, before `list_.begin()`. -/
  | begins (id : ℕ)
  /-- In the loop: the nodes behind the iterator, and what is left of the entry that is printed. -/
  | lists (id : ℕ) (entries : List Advertisement) (lines : List Line)

namespace Printing

def id : Printing → ℕ
  | begins id | lists id _ _ => id

/-- The next line, and the rest of the call unless that was its last line. -/
def advance (id : ℕ) : List Advertisement → List Line → Line × Option Printing
  | entries, line :: lines => (line, some (.lists id entries lines))
  | a :: entries, [] => (.pduType a.pduType a.pduTypeStr, some (.lists id entries a.printRest))
  | [], [] => (.listEnd, none)

/-- It goes on, and looks at the list only when it begins the loop. -/
def next (l : List Advertisement) : Printing → Line × Option Printing
  | begins id => advance id l []
  | lists id entries lines => advance id entries lines

end Printing

structure World where
  scan : Buffer
  list : AdvertisementList
  /-- The upcalls that are scheduled: `result` and `len`. -/
  due : List (ℤ × ℤ)
  /-- The calls of `printList`, innermost first. -/
  stack : List Printing

inductive Action
  /-- The kernel writes to the buffer and schedules an upcall. -/
  | receive (buf : Buffer) (result len : ℤ)
  /-- The process waits, in `yield` or in a `printf`, and the next upcall runs. -/
  | upcall
  /-- The innermost `printList` writes a line. -/
  | print

inductive Event
  | malformed (message : String)
  /-- The callback has looked at a scan result. -/
  | heard (r : ScanResult)
  /-- The `id`-th call of `printList` writes a line. -/
  | line (id : ℕ) (line : Line)
  deriving DecidableEq

namespace World

/-- After `main`. -/
def boot : World := ⟨fun _ => 0, .new, [], []⟩

def callback (w : World) (result len : ℤ) : World × List Event :=
  if result = 0 then
    match checkScanResult (some w.scan) len with
    | .error message => (w, [.malformed message])
    | .ok r =>
      match w.list.tryAdd r.advertisement with
      | (true, list) =>
        ({ w with list, stack := .begins w.list.currentSize :: w.stack },
          [.heard r, .line w.list.currentSize .listBegin])
      | (false, list) => ({ w with list }, [.heard r])
  else (w, [])

def exec (w : World) : Action → Option (World × List Event)
  | .receive buf result len => some ({ w with scan := buf, due := w.due ++ [(result, len)] }, [])
  | .upcall =>
    match w.due with
    | [] => none
    | (result, len) :: due => some ({ w with due }.callback result len)
  | .print =>
    match w.stack with
    | [] => none
    | p :: stack =>
      match p.next w.list.list with
      | (line, some p') => some ({ w with stack := p' :: stack }, [.line p.id line])
      | (line, none) => some ({ w with stack }, [.line p.id line])

def Step (w : World) (a : Action) (w' : World) (es : List Event) : Prop := w.exec a = some (w', es)

end World

/-- The scan results that the callback has looked at. -/
def heard (tr : List Event) : List ScanResult :=
  tr.filterMap fun
    | .heard r => some r
    | _ => none

/-- What the `n`-th call of `printList` has written. -/
def printed (n : ℕ) (tr : List Event) : List Line :=
  tr.filterMap fun
    | .line m l => if m = n then some l else none
    | _ => none

end BleScan
