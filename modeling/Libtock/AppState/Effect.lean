import Libtock.AppState.World

/-!
# What a step of the application does

All requests are for the region of the application, and all writes of the kernel are of the copy in
RAM, as it was when the kernel came to the request.
-/

namespace AppState

open Core Tock

namespace World

variable (answer : U32 → U32 → SyscallReturn) (d : Declared)

/-- What holds in every state. -/
structure Sane (w : World) : Prop where
  ready : Ready answer d w.state w.slots
  pending : ∀ a ∈ w.pending, a = flashStart answer ∧ w.state.inited = true
  flight : ∀ f ∈ w.flight, f.address = flashStart answer ∧ f.content.length = d.size.toNat

/-- The step `a` in the terms of `Sane` states. -/
inductive Effect (w : World) : Action → World → List Event → Prop
  | write {a : U32} {x : BitVec 8} (ha : a ∉ block (flashStart answer) d.size.toNat) :
      Effect w (.write a x) { w with mem := Function.update w.mem a x } []
  | loadFailed {k : Kernel} {ret : ℤ} {s : State} {slots : Slots Callback Declared} (hret : ret < 0)
      (hready : Ready answer d s slots) (hflag : s.saveSyncFlag = w.state.saveSyncFlag)
      (hinited : w.state.inited = true → s.inited = true) :
      Effect w (.appStateLoadSync k) { w with state := s, slots }
        [.loaded ret (w.ramCopy d) (w.ramCopy d)]
  | loaded {k : Kernel} {s : State} {slots : Slots Callback Declared}
      (hready : Ready answer d s slots) (hflag : s.saveSyncFlag = w.state.saveSyncFlag)
      (hinited : s.inited = true) :
      Effect w (.appStateLoadSync k)
        { w with
          state := s, slots
          mem := w.mem.copy d.ramPointer (flashStart answer) d.size.toNat }
        [.loaded 0 (w.ramCopy d) (w.stored answer d)]
  | save {k : Kernel} {callback args : Ptr} {ret : ℤ} {w' : World} (h : Tried answer d w ret w') :
      Effect w (.appStateSave k callback args) w' []
  | saveFailed {k : Kernel} {ret : ℤ} {w' : World}
      (h : Tried answer d { w with state := { w.state with saveSyncFlag := false } } ret w') :
      Effect w (.appStateSaveSync k) w' []
  | waits {k : Kernel} {s : State} {slots : Slots Callback Declared}
      (hready : Ready answer d s slots) (hflag : s.saveSyncFlag = false)
      (hinited : s.inited = true) :
      Effect w (.appStateSaveSync k)
        { w with
          state := s, slots, due := 0, pending := w.pending ++ [flashStart answer]
          calls := w.next :: w.calls, next := w.next + 1 }
        [.waits w.next]
  | copy {pending : List U32} (hpending : w.pending = flashStart answer :: pending)
      (hflight : w.flight = none) :
      Effect w .copy { w with pending, flight := some ⟨flashStart answer, w.ramCopy d⟩ }
        [.copied (w.ramCopy d)]
  | finish {content : List (BitVec 8)} (hflight : w.flight = some ⟨flashStart answer, content⟩)
      (hlen : content.length = d.size.toNat) :
      Effect w .finish
        { w with mem := w.mem.put (flashStart answer) content, flight := none, due := w.due + 1 }
        [.written content]
  | upcall {due : ℕ} {flag : Bool} (hdue : w.due = due + 1)
      (hflag : flag = w.state.saveSyncFlag ∨ flag = true) :
      Effect w .upcall { w with due, state := { w.state with saveSyncFlag := flag } } []
  | resume {i : ℕ} {calls : List ℕ} (hcalls : w.calls = i :: calls)
      (hflag : w.state.saveSyncFlag = true) :
      Effect w .resume { w with calls } [.returned i]
  | reset {ram : Memory 32} {mem : Memory 32}
      (hmem : ∀ a ∈ block (flashStart answer) d.size.toNat, mem a = w.mem a) :
      Effect w (.reset ram) ⟨.initial, mem, .empty, [], none, 0, [], w.next⟩ []

variable {answer d} {w w' : World} {a : Action} {es : List Event}

lemma Step.effect (hs : Sane answer d w) (h : Step answer d w a w' es) :
    Effect answer d w a w' es := by
  rw [Step] at h
  cases a with
  | write a x =>
    rw [exec] at h
    split_ifs at h with ha
    cases h
    exact .write ha
  | appStateLoadSync k =>
    obtain ⟨err, s, is, hrun, herr, hflag, hinited, hissue, hready⟩ :=
      appStateLoadSync_run hs.ready k
    simp only [exec, hrun, hissue] at h
    rcases herr with hneg | ⟨rfl, hinit⟩
    · rw [if_pos hneg] at h
      cases h
      exact .loadFailed hneg hready hflag hinited
    · simp only [if_neg (lt_irrefl _), ramCopy, Memory.bytes_copy] at h
      cases h
      exact .loaded hready hflag hinit
  | appStateSave k callback args =>
    obtain ⟨ret, s, is, hrun, htried⟩ := appStateSave_run hs.ready (.app callback args) k
    simp only [exec, hrun] at h
    cases h
    exact .save htried
  | appStateSaveSync k =>
    obtain ⟨ret, s, is, hrun, htried⟩ := appStateSaveSync_run hs.ready k
    simp only [exec, hrun] at h
    by_cases hret : ret < 0
    · rw [if_pos hret] at h
      cases h
      exact .saveFailed htried
    · obtain ⟨s', slots, hready, hflag, hinited, heq⟩ := htried.waits hret
      simp only [mk.injEq] at heq
      obtain ⟨rfl, hmem, hslots, hpending, hflight, hdue, hcalls, hnext⟩ := heq
      simp only [if_neg hret, hmem, hslots, hpending, hflight, hdue, hcalls, hnext] at h
      cases h
      exact .waits hready hflag hinited
  | copy =>
    rw [exec] at h
    split at h
    · next address pending r hpending hflight hshared =>
      cases h
      obtain ⟨rfl, hinited⟩ := hs.pending _ (hpending ▸ List.mem_cons_self)
      have hr := (hs.ready.shared hinited).symm.trans hshared
      cases hr
      exact .copy hpending hflight
    · cases h
  | finish =>
    rw [exec] at h
    split at h
    · cases h
    · next address content hflight =>
      cases h
      obtain ⟨rfl, hlen⟩ := hs.flight _ hflight
      exact .finish hflight hlen
  | upcall =>
    rw [exec] at h
    split at h
    · cases h
    · next due hdue _ =>
      cases h
      exact .upcall hdue (.inr rfl)
    · next due _ hdue _ =>
      cases h
      exact .upcall hdue (.inl rfl)
  | resume =>
    rw [exec] at h
    split at h
    · cases h
    · next i calls hcalls =>
      split_ifs at h with hflag
      cases h
      exact .resume hcalls hflag
  | reset ram =>
    rw [exec] at h
    cases h
    exact .reset fun a ha => if_pos ha

lemma Initial.sane (h : Initial w) : Sane answer d w := by
  obtain ⟨hstate, hpending, hflight, -, -⟩ := h
  have hinited : ¬ w.state.inited = true := by rw [hstate]; decide
  refine ⟨⟨fun h => absurd h hinited, fun h => absurd h hinited⟩, ?_, ?_⟩
  · simp [hpending]
  · simp [hflight]

lemma mem_pending_append {l : List U32} {inited inited' : Bool}
    (h : ∀ a ∈ l, a = flashStart answer ∧ inited = true) (hinited : inited' = true) :
    ∀ a ∈ l ++ [flashStart answer], a = flashStart answer ∧ inited' = true := by
  intro a ha
  rcases List.mem_append.mp ha with ha | ha
  · exact ⟨(h a ha).1, hinited⟩
  · exact ⟨List.mem_singleton.mp ha, hinited⟩

lemma Tried.sane {ret : ℤ} (h : Tried answer d w ret w') (hs : Sane answer d w) :
    Sane answer d w' := by
  cases h with
  | refused _ hready _ hinited _ =>
    exact ⟨hready, fun a ha => ⟨(hs.pending a ha).1, hinited (hs.pending a ha).2⟩, hs.flight⟩
  | accepted hready _ hinited =>
    exact ⟨hready, mem_pending_append hs.pending hinited, hs.flight⟩

lemma Sane.step (hs : Sane answer d w) (h : Effect answer d w a w' es) : Sane answer d w' := by
  cases h with
  | write | finish | resume => exact ⟨hs.ready, hs.pending, by first | exact hs.flight | simp⟩
  | loadFailed _ hready _ hinited =>
    exact ⟨hready, fun a ha => ⟨(hs.pending a ha).1, hinited (hs.pending a ha).2⟩, hs.flight⟩
  | loaded hready _ hinited =>
    exact ⟨hready, fun a ha => ⟨(hs.pending a ha).1, hinited⟩, hs.flight⟩
  | save h => exact h.sane hs
  | saveFailed h => exact h.sane ⟨⟨hs.ready.flashPointer_eq, hs.ready.shared⟩, hs.pending, hs.flight⟩
  | waits hready _ hinited => exact ⟨hready, mem_pending_append hs.pending hinited, hs.flight⟩
  | copy hpending _ =>
    refine ⟨hs.ready, fun a ha => hs.pending a ?_, ?_⟩
    · rw [hpending]
      exact List.mem_cons_of_mem _ ha
    · simp [ramCopy]
  | upcall => exact ⟨⟨hs.ready.flashPointer_eq, hs.ready.shared⟩, hs.pending, hs.flight⟩
  | reset =>
    have hinited : ¬ State.initial.inited = true := Bool.false_ne_true
    exact ⟨⟨fun h => absurd h hinited, fun h => absurd h hinited⟩, by simp, by simp⟩

end World

end AppState
