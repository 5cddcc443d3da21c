import Libtock.AppState.State
import Libtock.Core.Run

/-!
# Runs of an application that saves its state

The kernel queues the writes it accepts. It copies the shared buffer when it comes to a request, and
writes the copy to flash some time later; then an upcall is due, unless something else is subscribed
before. A call of `app_state_save_sync` that is made inside the `yield_for` of another is on top of
it on the stack. A reset leaves nothing but the flash.
-/

namespace AppState

open Core Tock

/-- A write to flash that the kernel has begun. -/
structure Flight where
  address : U32
  content : List (BitVec 8)

structure World where
  state : State
  mem : Memory 32
  slots : Slots Callback Declared
  /-- Where the writes go that the kernel has accepted and not begun. -/
  pending : List U32
  flight : Option Flight
  /-- The upcalls that are due. -/
  due : ℕ
  /-- The calls in `yield_for`, the innermost one first. -/
  calls : List ℕ
  /-- The number of the next call. -/
  next : ℕ

inductive Action
  /-- The application changes a byte of its memory. -/
  | write (a : U32) (x : BitVec 8)
  | appStateLoadSync (k : Kernel)
  | appStateSave (k : Kernel) (callback args : Ptr)
  | appStateSaveSync (k : Kernel)
  /-- The kernel begins the next write. -/
  | copy
  /-- The kernel ends a write. -/
  | finish
  | upcall
  /-- The innermost call leaves `yield_for`. -/
  | resume
  | reset (ram : Memory 32)

inductive Event
  /-- `app_state_load_sync` returned `ret`; the copy in RAM, before and after. -/
  | loaded (ret : ℤ) (before after : List (BitVec 8))
  /-- A call of `app_state_save_sync` has entered `yield_for`. -/
  | waits (i : ℕ)
  | copied (content : List (BitVec 8))
  | written (content : List (BitVec 8))
  /-- A call of `app_state_save_sync` returned 0. -/
  | returned (i : ℕ)
  deriving DecidableEq

namespace World

def subscribed (w : World) : Option Callback := w.slots.subscription (driverNumAppFlash, 0)

def shared (w : World) : Option Declared := w.slots.readonly (driverNumAppFlash, 0)

/-- What a system call does to the kernel: a new subscription drops the upcalls that are due. -/
def issue (w : World) (i : Issued Callback Declared) : World :=
  let w := { w with slots := w.slots.issue i }
  match i with
  | .subscribe _ _ _ .accepted => { w with due := 0 }
  | .command _ _ arg1 _ r => if r.isAccepted then { w with pending := w.pending ++ [arg1] } else w
  | _ => w

variable (answer : U32 → U32 → SyscallReturn) (d : Declared)

/-- The bytes of the copy in RAM. -/
def ramCopy (w : World) : List (BitVec 8) := w.mem.bytes d.ramPointer d.size.toNat

/-- The bytes in flash. -/
def stored (w : World) : List (BitVec 8) := w.mem.bytes (flashStart answer) d.size.toNat

def exec (w : World) : Action → Option (World × List Event)
  | .write a x =>
    -- the memory protection keeps the application from writing to flash
    if a ∈ block (flashStart answer) d.size.toNat then none
    else some ({ w with mem := Function.update w.mem a x }, [])
  | .appStateLoadSync k =>
    let ((ret, s, m), is) := (AppState.appStateLoadSync answer d w.state w.mem).run k
    let w' := { is.foldl issue w with state := s, mem := m }
    some (w', [.loaded ret (w.ramCopy d) (w'.ramCopy d)])
  | .appStateSave k callback args =>
    let ((_, s), is) := (AppState.appStateSave answer d (.app callback args) w.state).run k
    some ({ is.foldl issue w with state := s }, [])
  | .appStateSaveSync k =>
    let ((ret, s), is) := (AppState.appStateSaveSync answer d w.state).run k
    let w := { is.foldl issue w with state := s }
    match ret with
    | some _ => some (w, [])
    | none => some ({ w with calls := w.next :: w.calls, next := w.next + 1 }, [.waits w.next])
  | .copy =>
    match w.pending, w.flight, w.shared with
    | address :: pending, none, some r =>
      let content := w.mem.bytes r.ramPointer r.size.toNat
      some ({ w with pending, flight := some ⟨address, content⟩ }, [.copied content])
    | _, _, _ => none
  | .finish =>
    match w.flight with
    | none => none
    | some ⟨address, content⟩ =>
      some ({ w with mem := w.mem.put address content, flight := none, due := w.due + 1 },
        [.written content])
  | .upcall =>
    match w.due, w.subscribed with
    | 0, _ => none
    | due + 1, some .appStateSyncUpcall =>
      some ({ w with due, state := { w.state with saveSyncFlag := true } }, [])
    | due + 1, _ => some ({ w with due }, [])
  | .resume =>
    match w.calls with
    | [] => none
    | i :: calls => if w.state.saveSyncFlag then some ({ w with calls }, [.returned i]) else none
  | .reset ram =>
    let mem := fun a => if a ∈ block (flashStart answer) d.size.toNat then w.mem a else ram a
    some (⟨.initial, mem, .empty, [], none, 0, [], w.next⟩, [])

def Step (w : World) (a : Action) (w' : World) (es : List Event) : Prop :=
  exec answer d w a = some (w', es)

/-- The state in which a process starts. -/
def Initial (w : World) : Prop :=
  w.state = .initial ∧ w.pending = [] ∧ w.flight = none ∧ w.due = 0 ∧ w.calls = []

/-! ### What the library functions do -/

variable {answer d} {w w' : World}

lemma foldl_issue_allowReadonly {is : List (Issued Callback Declared)}
    (h : ∀ i ∈ is, ∃ a, i = .allowReadonly driverNumAppFlash 0 d a) (w : World) :
    is.foldl issue w = { w with slots := is.foldl Slots.issue w.slots } := by
  induction is generalizing w with
  | nil => rfl
  | cons i is ih =>
    obtain ⟨a, rfl⟩ := h i List.mem_cons_self
    exact ih (fun j hj => h j (List.mem_cons_of_mem _ hj)) _

/-- A save was tried; when `ret` is 0 it was requested, and it may have been when `ret` is not. -/
inductive Tried (answer : U32 → U32 → SyscallReturn) (d : Declared) (w : World) :
    ℤ → World → Prop
  | refused {ret : ℤ} {s : State} {slots : Slots Callback Declared} {due : ℕ} (hret : ret < 0)
      (hready : Ready answer d s slots) (hflag : s.saveSyncFlag = w.state.saveSyncFlag)
      (hinited : w.state.inited = true → s.inited = true) (hdue : due = w.due ∨ due = 0) :
      Tried answer d w ret { w with state := s, slots, due }
  | accepted {ret : ℤ} {s : State} {slots : Slots Callback Declared}
      (hready : Ready answer d s slots) (hflag : s.saveSyncFlag = w.state.saveSyncFlag)
      (hinited : s.inited = true) :
      Tried answer d w ret
        { w with state := s, slots, due := 0, pending := w.pending ++ [flashStart answer] }

lemma ensureInit_run {s : State} {slots : Slots Callback Declared} (h : Ready answer d s slots)
    (k : Kernel) : ∃ err s' is, (ensureInit answer d s).run k = ((err, s'), is) ∧
      (err < 0 ∨ err = 0 ∧ s'.inited = true) ∧ s'.saveSyncFlag = s.saveSyncFlag ∧
      (s.inited = true → s'.inited = true) ∧
      (∀ i ∈ is, ∃ a, i = .allowReadonly driverNumAppFlash 0 d a) ∧
      Ready answer d s' (is.foldl Slots.issue slots) := by
  by_cases hinited : s.inited = true
  · refine ⟨0, s, [], ?_, .inr ⟨rfl, hinited⟩, rfl, id, by simp, h⟩
    rw [ensureInit, if_pos hinited, Sys.pure_run]
  · have hready {slots : Slots Callback Declared} : Ready answer d s slots :=
      ⟨fun h => absurd h hinited, fun h => absurd h hinited⟩
    rw [ensureInit, if_neg hinited]
    cases hanswer : k.allowReadonly driverNumAppFlash 0#32 with
    | refused e =>
      refine ⟨_, s, [.allowReadonly driverNumAppFlash 0 d (.refused e)], ?_,
        .inl (tockStatusToReturncode_neg e), rfl, id, by simp, hready⟩
      simp [appStateInit, hanswer]
    | accepted =>
      by_cases hregions : tockAppNumberWriteableFlashRegions answer = 0
      · refine ⟨_, s, [.allowReadonly driverNumAppFlash 0 d .accepted], ?_,
          .inl (by decide : returncodeENomem < 0), rfl, id, by simp, hready⟩
        simp [appStateInit, hanswer, hregions]
      · refine ⟨0, { s with flashPointer := flashStart answer, inited := true },
          [.allowReadonly driverNumAppFlash 0 d .accepted], ?_, .inr ⟨rfl, rfl⟩, rfl, fun _ => rfl,
          by simp, fun _ => rfl, fun _ => ?_⟩
        · simp [appStateInit, hanswer, hregions, flashStart]
        · simp [Slots.issue]

lemma foldl_issue_append (is : List (Issued Callback Declared)) (i : Issued Callback Declared) :
    (is ++ [i]).foldl issue w = (is.foldl issue w).issue i := List.foldl_concat ..

lemma appStateSave_run (h : Ready answer d w.state w.slots) (callback : Callback) (k : Kernel) :
    ∃ ret s is, (AppState.appStateSave answer d callback w.state).run k = ((ret, s), is) ∧
      Tried answer d w ret { is.foldl issue w with state := s } := by
  obtain ⟨err, s, is, hrun, herr, hflag, hinited, his, hready⟩ := ensureInit_run h k
  rcases herr with hneg | ⟨rfl, hs⟩
  · refine ⟨err, s, is, ?_, ?_⟩
    · simp [AppState.appStateSave, hrun, hneg]
    · rw [foldl_issue_allowReadonly his]
      exact .refused hneg hready hflag hinited (.inl rfl)
  · cases hsub : k.subscribe driverNumAppFlash 0#32 with
    | refused e =>
      refine ⟨tockStatusToReturncode e.status, s,
        is ++ [.subscribe driverNumAppFlash 0 (some callback) (.refused e)], ?_, ?_⟩
      · simp [AppState.appStateSave, hrun, hsub]
      · rw [foldl_issue_append, foldl_issue_allowReadonly his]
        exact .refused (tockStatusToReturncode_neg e) (hready.subscribe _ _) hflag hinited (.inl rfl)
    | accepted =>
      generalize hcom : k.command driverNumAppFlash 1#32 s.flashPointer 0#32 = r
      refine ⟨r.toReturncode, s, is ++ [.subscribe driverNumAppFlash 0 (some callback) .accepted] ++
        [.command driverNumAppFlash 1 s.flashPointer 0 r], ?_, ?_⟩
      · simp [AppState.appStateSave, hrun, hsub, hcom]
      · rw [foldl_issue_append, foldl_issue_append, foldl_issue_allowReadonly his]
        by_cases hr : r.isAccepted = true
        · simpa only [World.issue, if_pos hr, hready.flashPointer_eq hs, Slots.issue_command] using
            Tried.accepted (hready.subscribe _ _) hflag hs
        · have hne : r ≠ .success := by
            rintro rfl
            exact hr rfl
          simpa only [World.issue, if_neg hr, Slots.issue_command] using
            Tried.refused ((Response.toReturncode_neg_iff r).mpr hne) (hready.subscribe _ _) hflag
              hinited (.inr rfl)

lemma Tried.waits {ret : ℤ} (h : Tried answer d w ret w') (hret : ¬ ret < 0) :
    ∃ s slots, Ready answer d s slots ∧ s.saveSyncFlag = w.state.saveSyncFlag ∧ s.inited = true ∧
      w' = { w with
        state := s, slots, due := 0, pending := w.pending ++ [flashStart answer] } := by
  cases h with
  | refused hneg => exact absurd hneg hret
  | accepted hready hflag hinited => exact ⟨_, _, hready, hflag, hinited, rfl⟩

lemma foldl_issue_state (is : List (Issued Callback Declared)) (w : World) (s : State) :
    is.foldl issue { w with state := s } = { is.foldl issue w with state := s } := by
  induction is generalizing w with
  | nil => rfl
  | cons i is ih =>
    have hstep : issue { w with state := s } i = { issue w i with state := s } := by
      cases i with
      | subscribe _ _ _ answer => cases answer <;> rfl
      | command _ _ _ _ r => simp only [World.issue]; split <;> rfl
      | _ => rfl
    rw [List.foldl_cons, hstep, ih, List.foldl_cons]

lemma appStateSaveSync_run (h : Ready answer d w.state w.slots) (k : Kernel) :
    ∃ ret s is, (AppState.appStateSaveSync answer d w.state).run k =
        ((if ret < 0 then some ret else none, s), is) ∧
      Tried answer d { w with state := { w.state with saveSyncFlag := false } } ret
        { is.foldl issue w with state := s } := by
  have hready : Ready answer d { w.state with saveSyncFlag := false } w.slots :=
    ⟨h.flashPointer_eq, h.shared⟩
  obtain ⟨ret, s, is, hrun, htried⟩ := appStateSave_run
    (w := { w with state := { w.state with saveSyncFlag := false } }) hready .appStateSyncUpcall k
  refine ⟨ret, s, is, ?_, ?_⟩
  · by_cases hret : ret < 0
    · simp [AppState.appStateSaveSync, hrun, hret]
    · simp [AppState.appStateSaveSync, hrun, hret]
  · rwa [foldl_issue_state] at htried

lemma appStateLoadSync_run (h : Ready answer d w.state w.slots) (k : Kernel) :
    ∃ err s is, (AppState.appStateLoadSync answer d w.state w.mem).run k =
        ((err, s, if err < 0 then w.mem else
          w.mem.copy d.ramPointer (flashStart answer) d.size.toNat), is) ∧
      (err < 0 ∨ err = 0 ∧ s.inited = true) ∧ s.saveSyncFlag = w.state.saveSyncFlag ∧
      (w.state.inited = true → s.inited = true) ∧
      is.foldl issue w = { w with slots := is.foldl Slots.issue w.slots } ∧
      Ready answer d s (is.foldl Slots.issue w.slots) := by
  obtain ⟨err, s, is, hrun, herr, hflag, hinited, his, hready⟩ := ensureInit_run h k
  refine ⟨err, s, is, ?_, herr, hflag, hinited, foldl_issue_allowReadonly his w, hready⟩
  rcases herr with hneg | ⟨rfl, hs⟩
  · simp [AppState.appStateLoadSync, hrun, hneg]
  · simp [AppState.appStateLoadSync, hrun, hready.flashPointer_eq hs]

end World

end AppState
