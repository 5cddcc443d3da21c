import Libtock.RadioRx.Printed

/-!
# Frames that are missed

A frame is missed only while a callback is in progress, or when the last `ieee802154_receive` has
failed.
-/

namespace RadioRx

open Core Tock Ieee802154

variable {packetRx : Ptr} {k : Kernel} {w w' : World} {a : Action} {tr es : List Event}
  {f g : Frame} {n : ℕ} {pc : Pc} {r : Line × Pc} {i : Issued Unit Region}

/-- What the calls of `ieee802154_receive` in the callbacks have returned. -/
def returned (tr : List Event) : List ℤ :=
  tr.filterMap fun
    | .ended _ ret => some ret
    | _ => none

/-- A callback is in progress. -/
def InProgress (tr : List Event) : Prop :=
  ∃ n f ok, .began n f ok ∈ tr ∧ ∀ ret, .ended n ret ∉ tr

/-- The last `ieee802154_receive` has failed. -/
def LastFailed (tr : List Event) : Prop := ∃ ret ∈ (returned tr).getLast?, ret < 0

def MissedWhileBusy (pre : List Event) : Event → Prop
  | .missed _ => InProgress pre ∨ LastFailed pre
  | _ => True

@[simp] lemma returned_append : returned (tr ++ es) = returned tr ++ returned es :=
  List.filterMap_append

/-- A call that succeeds shares the buffer. -/
lemma shared_of_receive (h : 0 ≤ (World.receive packetRx k).1) (w : World) :
    World.shared { w with slots := (World.receive packetRx k).2.foldl Slots.issue w.slots } =
      true := by
  cases hrw : k.allowReadwrite radioDriver allowRx with
  | accepted => simp [World.receive_of_accepted hrw, World.shared]
  | refused e =>
    rw [World.receive_of_refused hrw] at h
    exact absurd h (tockStatusToReturncode_neg e).not_ge

lemma World.foldl_issue_slots (calls : List (Issued Unit Region)) (w : World) :
    (calls.foldl issue w).slots = calls.foldl Slots.issue w.slots := by
  induction calls generalizing w with
  | nil => rfl
  | cons i calls ih => exact ih (w.issue i)

structure Listening (tr : List Event) (w : World) : Prop extends Numbered tr w where
  began : ∀ n ∈ w.ids, ∃ f ok, .began n f ok ∈ tr
  opens : ∀ n ret calls stack, w.stack = (n, .receiving ret calls) :: stack → 0 ≤ ret →
    World.shared { w with slots := calls.foldl Slots.issue w.slots } = true
  waiting : ∀ p ∈ w.stack.tail, ∀ ret calls, p.2 ≠ .receiving ret calls
  listens : w.stack = [] → w.shared = false → LastFailed tr
  missed : Each MissedWhileBusy tr

lemma Listening.began_append (h : Listening tr w) (hn : n ∈ w.ids) :
    ∃ f ok, .began n f ok ∈ tr ++ es := by
  obtain ⟨f, ok, hmem⟩ := h.began n hn
  exact ⟨f, ok, List.mem_append_left _ hmem⟩

lemma Listening.missed_append (h : Listening tr w) (hes : ∀ f, .missed f ∉ es) :
    Each MissedWhileBusy (tr ++ es) := by
  refine each_append h.missed fun pre e hpre => ?_
  have hmem : e ∈ es := hpre.subset (by simp)
  cases e with
  | missed f => exact absurd hmem (hes f)
  | _ => trivial

lemma Listening.busy (h : Listening tr w) (hshared : w.shared = false) :
    InProgress tr ∨ LastFailed tr := by
  cases hstack : w.stack with
  | nil => exact .inr (h.listens hstack hshared)
  | cons p stack =>
    have hmem : p.1 ∈ w.ids := by simp [World.ids, hstack]
    obtain ⟨f, ok, hbegan⟩ := h.began p.1 hmem
    exact .inl ⟨p.1, f, ok, hbegan, fun ret hret => h.ended _ ret hret hmem⟩

/-- Only the innermost callback is in `ieee802154_receive`. -/
lemma Listening.waiting_callback (h : Listening tr w) (hwaits : w.receiving = false) :
    ∀ p ∈ w.stack, ∀ ret calls, p.2 ≠ .receiving ret calls := by
  intro p hp ret calls hpc
  cases hstack : w.stack with
  | nil => simp [hstack] at hp
  | cons q stack =>
    rw [hstack] at hp
    rcases List.mem_cons.mp hp with rfl | hp
    · obtain ⟨n, pc⟩ := p
      cases hpc
      simp [World.receiving, hstack] at hwaits
    · exact h.waiting p (by simpa [hstack] using hp) ret calls hpc

lemma Listening.step (h : Listening tr w) (hstep : w.Step packetRx a w' es) :
    Listening (tr ++ es) w' := by
  have hnumbered := h.toNumbered.step hstep
  cases hstep.transition with
  | received g hshared =>
    refine ⟨hnumbered, fun n hn => h.began_append hn, h.opens, h.waiting, fun _ hclosed => ?_,
      h.missed_append (by simp)⟩
    exact absurd (hshared.symm.trans hclosed) (by decide)
  | missed g hshared =>
    refine ⟨hnumbered, fun n hn => h.began_append hn, h.opens, h.waiting, fun hstack _ => ?_,
      each_concat.mpr ⟨h.missed, h.busy hshared⟩⟩
    have hnone : returned [.missed g] = [] := rfl
    rw [LastFailed, returned_append, hnone, List.append_nil]
    exact h.listens hstack hshared
  | @upcall k due hdue hwaits =>
    obtain ⟨slots, heq, -, -⟩ := World.callback_eq k { w with due }
    rw [heq] at hnumbered ⊢
    refine ⟨hnumbered, fun n hn => ?_, fun n ret calls stack hs => ?_, h.waiting_callback hwaits,
      fun hs => ?_, h.missed_append (by simp)⟩
    · rcases List.mem_cons.mp hn with rfl | hn
      · exact ⟨w.packetRx, decide (k.allowReadwrite radioDriver allowRx = .accepted), by simp⟩
      · exact h.began_append hn
    · cases hs
    · cases hs
  | line k hstack hnext =>
    refine ⟨hnumbered, fun n hn => h.began_append (by simpa [World.ids, hstack] using hn),
      fun n ret calls stack' hs => ?_, by simpa [hstack] using h.waiting, fun hs => ?_,
      h.missed_append (by simp)⟩
    · exact absurd (Prod.mk.inj (List.cons.inj hs).1).2 (Pc.ne_receiving_of_next hnext ret calls)
    · cases hs
  | receive k hstack =>
    refine ⟨hnumbered, fun n hn => h.began_append (by simpa [World.ids, hstack] using hn),
      fun n ret calls stack' hs hret => ?_, by simpa [hstack] using h.waiting, fun hs => ?_,
      h.missed_append (by simp)⟩
    · cases hs
      exact shared_of_receive hret w
    · cases hs
  | issue k hstack =>
    refine ⟨hnumbered, fun n hn => h.began_append (by simpa [World.ids, hstack] using hn),
      fun n ret calls stack' hs hret => ?_, by simpa [hstack] using h.waiting, fun hs => ?_,
      h.missed_append (by simp)⟩
    · cases hs
      exact h.opens _ _ _ _ hstack hret
    · cases hs
  | @ended k n ret stack hstack =>
    have hwaiting : ∀ p ∈ stack, ∀ ret calls, p.2 ≠ .receiving ret calls := by
      simpa [hstack] using h.waiting
    refine ⟨hnumbered, fun m hm => ?_, fun m ret' calls stack' hs => ?_,
      fun p hp => hwaiting p (List.mem_of_mem_tail hp), fun _ hclosed => ?_,
      h.missed_append (by simp)⟩
    · have hm : m ∈ stack.map Prod.fst := hm
      exact h.began_append (by simp [World.ids, hstack, hm])
    · have hs : stack = (m, .receiving ret' calls) :: stack' := hs
      exact absurd rfl (hwaiting (m, .receiving ret' calls) (by simp [hs]) ret' calls)
    · refine ⟨ret, by simp [returned], ?_⟩
      by_contra hret
      have hshared : w.shared = true := h.opens n ret [] stack hstack (by omega)
      exact absurd (hshared.symm.trans hclosed) (by decide)

/-- In every run of an application whose first `ieee802154_receive` has succeeded: a frame is missed
only while a callback is in progress, or when the last `ieee802154_receive` has failed. -/
theorem missed_while_busy (hk : (World.receive packetRx k).1 = returncodeSuccess)
    (h : Run (World.Step packetRx) (World.boot packetRx k f) tr w) : Each MissedWhileBusy tr := by
  obtain ⟨hstack, -, -⟩ :=
    World.foldl_issue (World.receive packetRx k).2 ⟨f, .empty, 0, [], 0⟩
  have hstack : (World.boot packetRx k f).stack = [] := hstack
  have hshared : (World.boot packetRx k f).shared = true := by
    rw [World.shared, World.boot, World.foldl_issue_slots]
    exact shared_of_receive hk.ge ⟨f, .empty, 0, [], 0⟩
  have hboot : Listening [] (World.boot packetRx k f) :=
    ⟨(inv_boot packetRx k f).toNumbered, by simp [World.ids, hstack], by simp [hstack],
      by simp [hstack], fun _ hclosed => absurd (hshared.symm.trans hclosed) (by decide), each_nil⟩
  have hinv : Listening tr w :=
    h.trace_invariant Listening (fun _ _ _ _ _ hI hstep => hI.step hstep) hboot
  exact hinv.missed

/-- A frame comes while the callback for another one prints. -/
theorem missed_while_busy_printing :
    ∃ tr w, Run (World.Step 0) (World.boot 0 (.steady .accepted .success) (short 0)) tr w ∧
      (∃ g, .missed g ∈ tr) ∧ Each MissedWhileBusy tr := by
  have hplay : (play (World.exec 0) (World.boot 0 (.steady .accepted .success) (short 0))
      [.frame (short 65), .upcall (.steady .accepted .success), .frame (short 66)]).any (fun r =>
        r.2.any fun e => match e with | .missed _ => true | _ => false) = true := by
    decide +kernel
  obtain ⟨tr, w, hrun, htest⟩ := Run.of_play_any (fun _ _ _ _ => World.step_of_exec) _ hplay
  refine ⟨tr, w, hrun, ?_, missed_while_busy rfl hrun⟩
  obtain ⟨e, he, htest⟩ := List.any_eq_true.mp htest
  split at htest
  · exact ⟨_, he⟩
  · cases htest

end RadioRx
