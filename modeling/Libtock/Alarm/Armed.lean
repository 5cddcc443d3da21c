import Libtock.Alarm.Effect

/-!
# The list holds the armed alarms

The trace of a run says which alarms are armed: those that were armed and since then neither
cancelled nor popped. The list in memory holds exactly them.
-/

namespace Alarm

open Core Tock

/-- What an event does to the set of armed alarms. -/
def armedStep (S : Finset Ptr) : Event → Finset Ptr
  | .armed x => insert x S
  | .periodic call => insert call.timer S
  | .cancelled x => S.erase x
  | .popped p => S.erase p.alarm
  | .enqueued _ _ => S
  | .started _ _ => S

/-- The alarms armed, and since then neither cancelled nor popped, when nothing was at first. -/
def armedAfter (tr : List Event) : Finset Ptr := tr.foldl armedStep ∅

@[simp] lemma armedAfter_append (tr es : List Event) :
    armedAfter (tr ++ es) = es.foldl armedStep (armedAfter tr) := List.foldl_append

lemma mem_foldl_popped (log : List Popped) (S : Finset Ptr) (p : Ptr) :
    p ∈ (log.map Event.popped).foldl armedStep S ↔ p ∈ S ∧ p ∉ log.map Popped.alarm := by
  induction log generalizing S with
  | nil => simp
  | cons e log ih =>
    simp only [List.map_cons, List.foldl_cons, ih, armedStep, Finset.mem_erase, List.mem_cons,
      not_or]
    tauto

namespace World

/-- The list of the model and the trace agree on what is armed. -/
structure Tracks (tr : List Event) (v : World Schedule) : Prop where
  mem_iff : ∀ p, p ∈ v.st.linked ↔ p ∈ armedAfter tr
  initialised : ∀ p, .armed p ∈ tr → v.st.initialised p = true

variable {v v' : World Schedule} {a : Action} {tr es : List Event}

lemma Tracks.effect (hv : Sound v) (h : Tracks tr v) (heff : Effect v a v' es) :
    Tracks (tr ++ es) v' := by
  have hlink : ∀ (st : Schedule) x d p, st.initialised = v.st.initialised →
      .armed p ∈ tr ∨ p = x → (st.link x d).initialised p = true := by
    intro st x d p hst hp
    simp only [Schedule.link, hst]
    by_cases hpx : p = x
    · simp [hpx]
    · simp [Function.update_of_ne hpx, h.initialised p (hp.resolve_right hpx)]
  cases heff with
  | quiet flags hact ht => exact ⟨by simpa using h.mem_iff, by simpa using h.initialised⟩
  | refused hfull => exact ⟨by simpa [armedStep] using h.mem_iff, by simpa using h.initialised⟩
  | enqueue hroom => exact ⟨by simpa [armedStep] using h.mem_iff, by simpa using h.initialised⟩
  | user flags htasks horigin hcb =>
    exact ⟨by simpa [armedStep] using h.mem_iff, by simpa using h.initialised⟩
  | oneShot hact hx =>
    exact ⟨fun p => by simp [armedStep, h.mem_iff p],
      fun p hp => hlink _ _ _ p rfl (by simpa using hp)⟩
  | periodic hx =>
    exact ⟨fun p => by simp [armedStep, h.mem_iff p],
      fun p hp => hlink _ _ _ p rfl (by simpa using hp)⟩
  | cancel hact hi =>
    refine ⟨?_, by simpa using h.initialised⟩
    intro p
    simp [armedStep, hv.nodup.mem_erase_iff, h.mem_iff p]
  | @upcall adv time alarmSet expd queued hes hqueued ht hle hset =>
    constructor
    · intro p
      have hsplit := Schedule.expired_append_drop v.st.data v.st.linked v.time adv
      rw [← hes] at hsplit
      have hnd := hv.nodup
      rw [← hsplit, List.nodup_append] at hnd
      rw [armedAfter_append, mem_foldl_popped, Schedule.logOf_alarm, ← h.mem_iff p]
      constructor
      · intro hp
        exact ⟨List.mem_of_mem_drop hp, fun hp' => hnd.2.2 p hp' p hp rfl⟩
      · rintro ⟨hp, hp'⟩
        rw [← hsplit] at hp
        exact (List.mem_append.mp hp).resolve_left hp'
    · intro p hp
      rcases List.mem_append.mp hp with hp | hp
      · exact h.initialised p hp
      · simp at hp
  | repeating flags htasks horigin hcb hx hr hexp =>
    exact ⟨fun p => by simp [armedStep, h.mem_iff p],
      fun p hp => hlink _ _ _ p rfl (.inl (by simpa using hp))⟩

/-- A cancel of an alarm that is not linked writes what is there already. -/
lemma Step.eq_of_cancels {w w' : World State} {x : Ptr} (h : Stores w v) (hx : x ∉ v.st.linked)
    (hc : a.cancels = some x) (hstep : Step w a w' es) : w'.st = w.st := by
  have hcancel : ∀ s, Alarm.alarmCancel x w.st = .ok s → s = w.st := by
    intro s hs
    rw [Alarm.alarmCancel] at hs
    split_ifs at hs with hi
    cases hs
    obtain ⟨hnext, hprev⟩ := h.st.links_null x (by rw [← h.st.initialised]; exact hi) hx
    exact unlink_not_linked h.st.list hx hnext hprev
  obtain ⟨n, hn⟩ := hstep
  cases a with
  | alarmCancel y | timerCancel y =>
    cases hc
    obtain ⟨s, hs, heq⟩ := map_eq_ok.mp hn
    cases heq
    exact hcancel s hs
  | _ => cases hc

lemma arms_eq {w : World State} (h : Stores w v) (a : Action) :
    arms w.st.queue.waiting a = arms v.st.tasks a := by
  rw [h.st.waiting]

/-- In every run the list from `root` holds exactly the armed alarms, doubly linked; a cancel takes
out its argument alone, an upcall a beginning of the list; and whatever may be called returns. -/
theorem alarm_list_refines_armed {w₀ w : World State} {tr : List Event} (h₀ : Initial w₀)
    (hrun : Run Step w₀ tr w) :
    ∃ l, IsChain w.st.next w.st.root l ∧ l.Nodup ∧ (∀ p, p ∈ l ↔ p ∈ armedAfter tr) ∧
      (∀ r, w.st.root = some r → w.st.prev r = none) ∧
      (∀ x ∈ l, ∀ y, w.st.next x = some y → w.st.prev y = some x) ∧
      (∀ a x w' es, a.cancels = some x → Step w a w' es →
        IsChain w'.st.next w'.st.root (l.erase x) ∧ (x ∉ l → w'.st = w.st)) ∧
      (∀ adv w' es, Step w (.upcall adv) w' es →
        ∃ log : List Popped, es = log.map .popped ∧ l = log.map Popped.alarm ++ l.drop log.length ∧
          IsChain w'.st.next w'.st.root (l.drop log.length) ∧
          ∀ p ∈ log, (w.st.alarms p.alarm).dt ≤
            alarmInternalRead p.tick - (w.st.alarms p.alarm).reference) ∧
      (∀ a, (∀ x, arms w.st.queue.waiting a = some x → x ∉ l) →
        (∀ x, a.cancels = some x → .armed x ∈ tr) → ∃ w' es, Step w a w' es) := by
  obtain ⟨v, hst, hv, htr⟩ := h₀.run (P := fun _ _ => True) (Q := fun _ _ => True) Tracks
    (fun tr v a v' es hv h _ heff => h.effect hv heff) (fun _ _ _ _ h => h)
    ⟨by simp [Initial.plan, armedAfter], by simp⟩
    (hrun.mono fun _ _ _ _ h => ⟨trivial, h⟩)
  have hlist := hst.st.list
  refine ⟨v.st.linked, hlist.chain, hv.nodup, htr.mem_iff, ?_, ?_,
    ?_, ?_, ?_⟩
  · intro r hr
    obtain ⟨l, hl⟩ : ∃ l, v.st.linked = r :: l := by
      rw [hlist.root_eq] at hr
      exact List.head?_eq_some_iff.mp hr
    have hback := hlist.back
    rw [hl] at hback
    exact hback.1
  · intro x hx y hy
    obtain ⟨l₁, l₂, hl⟩ := List.append_of_mem hx
    have hchain := hlist.chain
    have hback := hlist.back
    rw [hl] at hchain hback
    rw [hchain.next_eq] at hy
    obtain ⟨l₃, rfl⟩ := List.head?_eq_some_iff.mp hy
    have hback' : IsBackChain w.st.prev none ((l₁ ++ [x]) ++ y :: l₃) := by simpa using hback
    rw [hback'.prev_eq, lastOr_append_singleton]
  · intro a x w' es hc hstep
    obtain ⟨v', hplan, hst'⟩ := hstep.plan hst
    obtain ⟨rfl, rfl⟩ := (hplan.effect hv).of_cancels hc
    exact ⟨hst'.st.list.chain, fun hx => hstep.eq_of_cancels hst hx hc⟩
  · intro adv w' es hstep
    obtain ⟨v', hplan, hst'⟩ := hstep.plan hst
    obtain ⟨rfl, hlinked, -⟩ := (hplan.effect hv).of_upcall
    refine ⟨_, rfl, ?_, ?_, ?_⟩
    · rw [Schedule.length_logOf, Schedule.logOf_alarm]
      exact (Schedule.expired_append_drop _ _ _ _).symm
    · rw [Schedule.length_logOf, ← hlinked]
      exact hst'.st.list.chain
    · intro p hp
      have hdata : (w.st.alarms p.alarm).toAlarmData = v.st.data p.alarm :=
        congrFun hst.st.data p.alarm
      rw [hdata]
      exact BitVec.not_lt.mp (Schedule.expired_spec (Schedule.mem_logOf hp)).2
  · intro a ha hc
    obtain ⟨v', es, hplan⟩ := exists_plan (v := v) (a := a)
      (fun x hx => ha x (by rw [arms_eq hst]; exact hx)) (fun x hx => htr.initialised x (hc x hx))
    obtain ⟨w', hstep, _⟩ := hplan.step hst
    exact ⟨w', es, hstep⟩

/-- Three alarms of which the middle one is cancelled, then the first is popped. -/
theorem alarm_list_refines_armed_cancel :
    ∃ (w : World State) (tr : List Event) (l : List Ptr), Run Step (boot 1000) tr w ∧
      IsChain w.st.next w.st.root l ∧
      (∀ p, p ∈ l ↔ p ∈ armedAfter tr) ∧ l = [1] ∧ armedAfter tr = {1} := by
  have hrun : Run (Guarded Step fun _ _ => True) (boot 1000) _ _ :=
    run_of_exec [.alarmAt 0 30 none 0 1, .alarmAt 0 10 (some (.app 7)) 4 2,
      .alarmAt 0 20 none 0 3, .alarmCancel 3, .tick 12, .upcall fun _ => 0, .alarmCancel 2] rfl
  obtain ⟨l, hchain, _, hmem, _⟩ := alarm_list_refines_armed (boot_initial 1000) hrun.of_guarded
  exact ⟨_, _, l, hrun.of_guarded, hchain, hmem,
    hchain.unique (show IsChain _ _ [1] from ⟨rfl, rfl⟩), by decide⟩

end World

end Alarm
