import Libtock.Core.Along
import Libtock.Tock.Kernel

/-!
# The buffer of the multi-touch driver: `touch.c`

`multi_touch_set_callback` allocates a buffer and shares it with the kernel, or takes it back and
frees it. It frees the buffer without asking whether the kernel still holds it, so the kernel holds
no freed buffer exactly as long as it releases what the library is about to free.
-/

namespace Touch

open Core Tock

/-- `sizeof(touch_t)` -/
def sizeofTouch : U32 := 8

structure State where
  /-- The block that `multi_touch_buffer` points to. -/
  multiTouchBuffer : Option Region
  numTouches : BitVec 8
  /-- The region last accepted for read-write slot 2. -/
  allowed : Region
  /-- The content of subscribe slot 2. -/
  subscription : Subscription (Option Ptr) Ptr
  deriving DecidableEq

def initial (subscription : Subscription (Option Ptr) Ptr) : State where
  multiTouchBuffer := none
  numTouches := 0
  allowed := ⟨none, 0⟩
  subscription := subscription

/-- `touch_subscribe` on slot 2 -/
def touchSubscribe (answer : Answer) (callback : Option Ptr) (callbackArgs : Ptr) (s : State) :
    ℤ × State :=
  (answer.toReturncode,
    { s with subscription := answer.install ⟨callback, callbackArgs⟩ s.subscription })

/-- `touch_allow` on slot 2 -/
def touchAllow (answer : Answer) (data : Region) (s : State) : ℤ × State :=
  (answer.toReturncode, { s with allowed := answer.install data s.allowed })

/-- `malloc` returns `block`; the kernel answers `allow` and `subscribe`. -/
def multiTouchSetCallback (block : Option Ptr) (allow subscribe : Answer) (cb : Option Ptr)
    (ud : Ptr) (maxTouches : U32) (s : State) : ℤ × State :=
  match cb, s.multiTouchBuffer with
  | some cb, none =>
    match block with
    | some p =>
      let buffer : Region := ⟨some p, maxTouches * sizeofTouch⟩
      let s := { s with multiTouchBuffer := some buffer, numTouches := maxTouches.setWidth 8 }
      let (err, s) := touchAllow allow buffer s
      let (err, s) := if err = returncodeSuccess then touchSubscribe subscribe cb ud s else (err, s)
      if err ≠ returncodeSuccess then (err, { s with multiTouchBuffer := none }) else (err, s)
    | none => (returncodeENomem, s)
  | some _, some _ => (returncodeEAlready, s)
  | none, some _ =>
    let s := { s with numTouches := 0 }
    let (_, s) := touchAllow allow ⟨none, 0⟩ s
    let (err, s) := touchSubscribe subscribe none ud s
    (err, { s with multiTouchBuffer := none })
  | none, none => (returncodeSuccess, s)

/-! ### What the kernel holds -/

/-- The region the kernel holds is empty or the current buffer. -/
def Owned (s : State) : Prop := s.allowed.size = 0 ∨ s.multiTouchBuffer = some s.allowed

instance (s : State) : Decidable (Owned s) := inferInstanceAs (Decidable (_ ∨ _))

/-- A call, with the answers it gets. -/
structure Call where
  block : Option Ptr
  allow : Answer
  subscribe : Answer
  cb : Option Ptr
  ud : Ptr
  maxTouches : U32

def Call.run (s : State) (c : Call) : State :=
  (multiTouchSetCallback c.block c.allow c.subscribe c.cb c.ud c.maxTouches s).2

/-- The kernel holds nothing that the call frees. A buffer just shared is freed when `subscribe`
fails; the current one is freed even if the kernel refuses to give it back. -/
def Call.Releases (s : State) (c : Call) : Prop :=
  match c.cb, s.multiTouchBuffer with
  | some _, none =>
    c.block.isSome → c.allow = .accepted →
      c.subscribe = .accepted ∨ c.maxTouches * sizeofTouch = 0
  | none, some _ => c.allow = .accepted ∨ s.allowed.size = 0
  | _, _ => True

lemma Call.owned_run_iff {s : State} (hs : Owned s) (c : Call) :
    Owned (c.run s) ↔ c.Releases s := by
  obtain ⟨block, allow, subscribe, cb, ud, maxTouches⟩ := c
  obtain ⟨buffer, numTouches, allowed, subscription⟩ := s
  cases cb with
  | some cb =>
    cases buffer with
    | some buffer => exact iff_of_true hs trivial
    | none =>
      -- there is no buffer, so the kernel holds nothing
      have hempty : allowed.size = 0 := by simpa [Owned] using hs
      cases block with
      | none => simpa [Call.run, Call.Releases, multiTouchSetCallback] using hs
      | some p =>
        cases allow <;> cases subscribe <;>
          simp [Call.run, Call.Releases, multiTouchSetCallback, touchAllow, touchSubscribe, Owned,
            hempty]
  | none =>
    cases buffer with
    | none => exact iff_of_true hs trivial
    | some buffer =>
      cases allow <;>
        simp [Call.run, Call.Releases, multiTouchSetCallback, touchAllow, touchSubscribe, Owned]

/-- After every call of a sequence the kernel holds nothing but the current buffer, exactly when
every call finds released what it frees. -/
theorem owned_along_iff (subscription : Subscription (Option Ptr) Ptr) (calls : List Call) :
    Along Call.run (fun s c => Owned (c.run s)) (initial subscription) calls ↔
      Along Call.run (fun s c => c.Releases s) (initial subscription) calls :=
  along_congr (I := Owned) (fun _ c hs hrel => (c.owned_run_iff hs).mpr hrel)
    (fun _ c hs => c.owned_run_iff hs) (.inl rfl) calls

/-- Set-up whose `subscribe` fails; tear-down whose `allow` fails. -/
theorem owned_along_fails :
    ¬ Along Call.run (fun s c => Owned (c.run s)) (initial ⟨none, 0⟩)
        [⟨some 0x1000, .accepted, .refused ⟨.nomem, by decide⟩, some 7, 0, 2⟩] ∧
      ¬ Along Call.run (fun s c => Owned (c.run s)) (initial ⟨none, 0⟩)
        [⟨some 0x1000, .accepted, .accepted, some 7, 0, 2⟩,
          ⟨none, .refused ⟨.busy, by decide⟩, .accepted, none, 0, 0⟩] := by
  decide

end Touch
