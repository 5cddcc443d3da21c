import Libtock.AppState.Effect
import Libtock.Core.History

/-!
# What is loaded was saved

A load that succeeds gives what the kernel wrote last, over any number of resets. When
`app_state_save_sync` returns 0, the copy in RAM was taken and written after the call, provided that
no other write was under way when it was made: the upcall of that one would end the wait as well.
-/

namespace AppState

open Core Tock

namespace World

variable (answer : U32 → U32 → SyscallReturn) (d : Declared)

/-- What was written last: `c` if nothing was. -/
def lastWritten (c : List (BitVec 8)) : List Event → List (BitVec 8)
  | [] => c
  | .written c' :: es => lastWritten c' es
  | _ :: es => lastWritten c es

/-- A load gives what was written last, or leaves the copy in RAM alone. -/
def LoadsLast (c : List (BitVec 8)) (pre : List Event) : Event → Prop
  | .loaded ret before after =>
    ret = 0 ∧ after = lastWritten c pre ∨ ret < 0 ∧ after = before
  | _ => True

/-- Between the call `i` and the end of the trace, the copy in RAM was taken and written. -/
def Saved (tr : List Event) (i : ℕ) : Prop := 
  ∃ c, List.Sublist [.waits i, .copied c, .written c] tr

/-- A call that returns 0 has saved. -/
def ReturnsSaved (pre : List Event) : Event → Prop
  | .returned i => Saved pre i
  | _ => True

/-- The condition on a step: no save is asked for while a write is under way. -/
def Alone (w : World) : Action → Prop
  | .appStateSave .. | .appStateSaveSync _ => w.pending = [] ∧ w.flight = none
  | _ => True

instance (w : World) (a : Action) : Decidable (w.Alone a) :=
  match a with
  | .appStateSave .. | .appStateSaveSync _ =>
    decidable_of_iff (w.pending.isEmpty = true ∧ w.flight.isNone = true) (by simp [Alone])
  | .write .. | .appStateLoadSync _ | .copy | .finish | .upcall | .resume | .reset _ =>
    inferInstanceAs (Decidable True)

variable {answer d} {w w' : World} {a : Action} {es tr : List Event} {c : List (BitVec 8)}

lemma lastWritten_append (c : List (BitVec 8)) (es es' : List Event) :
    lastWritten c (es ++ es') = lastWritten (lastWritten c es) es' := by
  induction es generalizing c with
  | nil => rfl
  | cons e es ih =>
    cases e with
    | written c' => exact ih c'
    | _ => exact ih c

/-! ### Loading -/

/-- What is in flash. -/
lemma Effect.stored_eq
    (hdisj : Disjoint (block d.ramPointer d.size.toNat) (block (flashStart answer) d.size.toNat))
    (h : Effect answer d w a w' es) :
    w'.stored answer d = lastWritten (w.stored answer d) es := by
  cases h with
  | @write a x ha =>
    apply Memory.bytes_congr
    rintro b hb
    have hne : b ≠ a := by
      rintro rfl
      exact ha hb
    exact Function.update_of_ne hne _ _
  | loaded =>
    apply Memory.bytes_congr
    intro b hb
    have hout : b ∉ block d.ramPointer d.size.toNat := Set.disjoint_right.mp hdisj hb
    exact if_neg hout
  | save h | saveFailed h => cases h <;> rfl
  | finish _ hlen =>
    rw [stored, ← hlen]
    exact Memory.bytes_put (hlen ▸ d.size.isLt.le)
  | reset hmem => exact Memory.bytes_congr hmem
  | _ => rfl

lemma Effect.loadsLast (h : Effect answer d w a w' es) (hc : w.stored answer d = lastWritten c tr)
    (htr : Each (LoadsLast c) tr) : Each (LoadsLast c) (tr ++ es) := by
  cases h with
  | loadFailed hret => exact each_concat.mpr ⟨htr, .inr ⟨hret, rfl⟩⟩
  | loaded => exact each_concat.mpr ⟨htr, .inl ⟨rfl, hc⟩⟩
  | waits | copy | finish | resume => exact each_concat.mpr ⟨htr, trivial⟩
  | _ => rwa [List.append_nil]

/-- Flash holds what was written last, and the loads have given it. -/
structure Loads (answer : U32 → U32 → SyscallReturn) (d : Declared) (w₀ : World) (tr : List Event)
    (w : World) : Prop where
  sane : Sane answer d w
  stored : w.stored answer d = lastWritten (w₀.stored answer d) tr
  each : Each (LoadsLast (w₀.stored answer d)) tr

lemma Loads.step {w₀ : World} {a : Action} (h : Loads answer d w₀ tr w)
    (hdisj : Disjoint (block d.ramPointer d.size.toNat) (block (flashStart answer) d.size.toNat))
    (hstep : Step answer d w a w' es) : Loads answer d w₀ (tr ++ es) w' := by
  have heffect := hstep.effect h.sane
  refine ⟨h.sane.step heffect, ?_, heffect.loadsLast h.stored h.each⟩
  rw [heffect.stored_eq hdisj, h.stored, lastWritten_append]

/-- Over all runs, with any number of resets: a load that succeeds gives the bytes that the kernel
wrote to flash last, and one that fails leaves the copy in RAM as it was. -/
theorem loads_last_written {w₀ : World}
    (hdisj : Disjoint (block d.ramPointer d.size.toNat) (block (flashStart answer) d.size.toNat))
    (h0 : Initial w₀) (hrun : Run (Step answer d) w₀ es w) :
    Each (LoadsLast (w₀.stored answer d)) es :=
  (hrun.trace_invariant (Loads answer d w₀) (fun _ _ _ _ _ h hstep => h.step hdisj hstep)
    ⟨h0.sane, rfl, each_nil⟩).each

/-! ### A short history -/

/-- Two bytes, with flash that was erased at `0x30000`. -/
def declared : Declared := ⟨0x20000000, 2⟩

def oneRegion : U32 → U32 → SyscallReturn
  | 7, _ => .successU32 1
  | 8, _ => .successU32 0x30000
  | _, _ => .failure .nosupport

def erased : World := ⟨.initial, fun _ => 0xFF, .empty, [], none, 0, [], 0⟩

/-- A byte is changed and saved, and loaded after a reset. -/
def saveAndReset : List Action :=
  [.appStateLoadSync (.steady .accepted .success), .write 0x20000000 7,
    .appStateSaveSync (.steady .accepted .success), .copy, .finish, .upcall, .resume,
    .reset fun _ => 0, .appStateLoadSync (.steady .accepted .success)]

def saveAndResetEvents : List Event :=
  [.loaded 0 [0xFF, 0xFF] [0xFF, 0xFF], .waits 0, .copied [7, 0xFF], .written [7, 0xFF],
    .returned 0, .loaded 0 [0, 0] [7, 0xFF]]

lemma disjoint_declared : Disjoint (block declared.ramPointer declared.size.toNat)
    (block (flashStart oneRegion) declared.size.toNat) :=
  disjoint_block_of_le (by decide) (by decide)

lemma run_saveAndReset :
    ∃ w, Run (Guarded (Step oneRegion declared) Alone) erased saveAndResetEvents w := by
  have hplay : (play (restrict (exec oneRegion declared) Alone) erased saveAndReset).any
      (fun r => r.2 = saveAndResetEvents) = true := by decide +kernel
  obtain ⟨es, w, hrun, hes⟩ : ∃ es w, Run (Guarded (Step oneRegion declared) Alone) erased es w ∧
      decide (es = saveAndResetEvents) = true :=
    Run.of_play_restrict_any (fun _ _ _ _ h => h) saveAndReset hplay
  exact ⟨w, of_decide_eq_true hes ▸ hrun⟩

theorem loads_last_written_reset : ∃ w, Run (Step oneRegion declared) erased saveAndResetEvents w ∧
    Each (LoadsLast (erased.stored oneRegion declared)) saveAndResetEvents := by
  obtain ⟨w, hrun⟩ := run_saveAndReset
  exact ⟨w, hrun.of_guarded,
    loads_last_written disjoint_declared ⟨rfl, rfl, rfl, rfl, rfl⟩ hrun.of_guarded⟩

/-! ### Saving -/

/-- The write that the call `i` waits for is under way. -/
inductive Awaits (tr : List Event) (w : World) (i : ℕ) : Prop
  | pending (hpending : w.pending ≠ []) (htr : List.Sublist [.waits i] tr)
  | flight {f : Flight} (hflight : w.flight = some f)
      (htr : List.Sublist [.waits i, .copied f.content] tr)

/-- At most one write is under way, and nobody is told of its end before. -/
structure Turn (tr : List Event) (w : World) : Prop where
  single : w.pending.length + w.flight.toList.length ≤ 1
  calls : ∀ i ∈ w.calls, Saved tr i ∨ Awaits tr w i
  ended : 0 < w.due ∨ w.state.saveSyncFlag = true → ∀ i ∈ w.calls, Saved tr i

lemma Saved.append {i : ℕ} (h : Saved tr i) (es : List Event) : Saved (tr ++ es) i := by
  obtain ⟨c, hc⟩ := h
  exact ⟨c, hc.trans (List.sublist_append_left _ _)⟩

lemma Awaits.append {i : ℕ} (h : Awaits tr w i) (hpending : w'.pending = w.pending)
    (hflight : w'.flight = w.flight) (es : List Event) : Awaits (tr ++ es) w' i := by
  cases h with
  | pending hp htr => exact .pending (hpending ▸ hp) (htr.trans (List.sublist_append_left _ _))
  | flight hf htr =>
    exact .flight (hflight.trans hf) (htr.trans (List.sublist_append_left _ _))

/-- A step that begins and ends no write and tells nobody of one. -/
lemma Turn.frame (ht : Turn tr w) (hpending : w'.pending = w.pending)
    (hflight : w'.flight = w.flight) (hcalls : ∀ i ∈ w'.calls, i ∈ w.calls)
    (hended : 0 < w'.due ∨ w'.state.saveSyncFlag = true →
      0 < w.due ∨ w.state.saveSyncFlag = true) : Turn (tr ++ es) w' := by
  refine ⟨by rw [hpending, hflight]; exact ht.single, ?_, ?_⟩
  · intro i hi
    exact (ht.calls i (hcalls i hi)).imp (·.append es) (·.append hpending hflight es)
  · exact fun hend i hi => (ht.ended (hended hend) i (hcalls i hi)).append es

/-- Where no write is under way, all calls have saved. -/
lemma Turn.saved (ht : Turn tr w) (hpending : w.pending = []) (hflight : w.flight = none) :
    ∀ i ∈ w.calls, Saved tr i := by
  intro i hi
  rcases ht.calls i hi with hsaved | hawaits
  · exact hsaved
  · cases hawaits with
    | pending hp _ => exact absurd hpending hp
    | flight hf _ =>
      rw [hflight] at hf
      cases hf

lemma Turn.tried {ret : ℤ} (ht : Turn tr w) (h : Tried answer d w ret w')
    (halone : w.pending = [] ∧ w.flight = none) : Turn (tr ++ []) w' := by
  cases h with
  | refused _ _ hflag _ hdue =>
    refine ht.frame rfl rfl (fun _ => id) ?_
    rintro (hpos | hset)
    · rcases hdue with rfl | rfl
      · exact .inl hpos
      · exact absurd hpos (lt_irrefl 0)
    · exact .inr (hflag ▸ hset)
  | accepted =>
    have hsaved := ht.saved halone.1 halone.2
    refine ⟨by simp [halone.1, halone.2], ?_, ?_⟩
    · exact fun i hi => .inl ((hsaved i hi).append [])
    · exact fun _ i hi => (hsaved i hi).append []

lemma Effect.turn (ht : Turn tr w) (halone : w.Alone a) (h : Effect answer d w a w' es) :
    Turn (tr ++ es) w' := by
  cases h with
  | write => exact ht.frame rfl rfl (fun _ => id) id
  | loadFailed _ _ hflag | loaded _ hflag =>
    exact ht.frame rfl rfl (fun _ => id) (Or.imp_right fun hset => hflag ▸ hset)
  | save h => exact ht.tried h halone
  | saveFailed h =>
    have ht' : Turn (tr ++ []) { w with state := { w.state with saveSyncFlag := false } } :=
      ht.frame rfl rfl (fun _ => id) (Or.imp_right fun hset => absurd hset Bool.false_ne_true)
    simpa using ht'.tried h halone
  | waits _ hflag =>
    have hsaved := ht.saved halone.1 halone.2
    refine ⟨by simp [halone.1, halone.2], ?_, ?_⟩
    · intro i hi
      rcases List.mem_cons.mp hi with rfl | hi
      · exact .inr (.pending (by simp) (List.sublist_append_right _ _))
      · exact .inl ((hsaved i hi).append _)
    · rintro (hpos | hset)
      · exact absurd hpos (lt_irrefl 0)
      · rw [hflag] at hset
        cases hset
  | copy hpending hflight =>
    have hsingle := ht.single
    rw [hpending, hflight] at hsingle
    refine ⟨by simpa using hsingle, ?_, fun hend i hi => (ht.ended hend i hi).append _⟩
    intro i hi
    rcases ht.calls i hi with hsaved | hawaits
    · exact .inl (hsaved.append _)
    · cases hawaits with
      | pending _ htr => exact .inr (.flight rfl (htr.append (List.Sublist.refl [_])))
      | flight hf _ =>
        rw [hflight] at hf
        cases hf
  | @finish content hflight =>
    have hsaved : ∀ i ∈ w.calls, Saved (tr ++ [.written content]) i := by
      intro i hi
      rcases ht.calls i hi with hsaved | hawaits
      · exact hsaved.append _
      · cases hawaits with
        | pending hp _ =>
          have hsingle := ht.single
          rw [hflight] at hsingle
          have hzero : w.pending.length = 0 := Nat.le_zero.mp (Nat.le_of_succ_le_succ hsingle)
          exact absurd (List.length_eq_zero_iff.mp hzero) hp
        | flight hf htr =>
          rw [hflight] at hf
          cases hf
          exact ⟨_, htr.append (List.Sublist.refl [_])⟩
    have hsingle := ht.single
    refine ⟨?_, fun i hi => .inl (hsaved i hi), fun _ => hsaved⟩
    simp only [Option.toList_none, List.length_nil]
    omega
  | upcall hdue hflag =>
    refine ht.frame rfl rfl (fun _ => id) fun _ => .inl ?_
    rw [hdue]
    exact Nat.succ_pos _
  | resume hcalls =>
    refine ht.frame rfl rfl (fun i hi => ?_) id
    rw [hcalls]
    exact List.mem_cons_of_mem _ hi
  | reset => exact ⟨by simp, by simp, by simp⟩

lemma Effect.returnsSaved (ht : Turn tr w) (h : Effect answer d w a w' es)
    (htr : Each ReturnsSaved tr) : Each ReturnsSaved (tr ++ es) := by
  cases h with
  | resume hcalls hflag =>
    refine each_concat.mpr ⟨htr, ht.ended (.inr hflag) _ ?_⟩
    rw [hcalls]
    exact List.mem_cons_self
  | loadFailed | loaded | waits | copy | finish => exact each_concat.mpr ⟨htr, trivial⟩
  | _ => rwa [List.append_nil]

/-- The writes take turns, and the saves that have returned 0 were done. -/
structure Saves (answer : U32 → U32 → SyscallReturn) (d : Declared) (tr : List Event) (w : World) :
    Prop where
  sane : Sane answer d w
  turn : Turn tr w
  each : Each ReturnsSaved tr

lemma Initial.saves {w₀ : World} (h0 : Initial w₀) : Saves answer d [] w₀ := by
  refine ⟨h0.sane, ?_, each_nil⟩
  obtain ⟨-, hpending, hflight, -, hcalls⟩ := h0
  exact ⟨by simp [hpending, hflight], by simp [hcalls], by simp [hcalls]⟩

lemma Saves.step {a : Action} (h : Saves answer d tr w) (halone : Alone w a)
    (hstep : Step answer d w a w' es) : Saves answer d (tr ++ es) w' :=
  have heffect := hstep.effect h.sane
  ⟨h.sane.step heffect, heffect.turn h.turn halone, heffect.returnsSaved h.turn h.each⟩

/-- Over all runs in which no save is asked for while a write is under way, with saves from upcalls
inside the wait of others, failed ones and resets: when `app_state_save_sync` returns 0, the kernel
has taken the copy in RAM since the call, and written it. -/
theorem returns_saved {w₀ : World} (h0 : Initial w₀)
    (hrun : Run (Guarded (Step answer d) Alone) w₀ es w) : Each ReturnsSaved es :=
  (hrun.trace_invariant (Saves answer d) (fun _ _ _ _ _ h hstep => h.step hstep.1 hstep.2)
    h0.saves).each

theorem returns_saved_reset :
    ∃ w, Run (Guarded (Step oneRegion declared) Alone) erased saveAndResetEvents w ∧
      Each ReturnsSaved saveAndResetEvents := by
  obtain ⟨w, hrun⟩ := run_saveAndReset
  exact ⟨w, hrun, returns_saved ⟨rfl, rfl, rfl, rfl, rfl⟩ hrun⟩

end World

end AppState
