import Libtock.Alarm.Drain

/-!
# Expirations and the task queue

`callback` pops an expired alarm whether or not `tock_enqueue` then takes its task, and whether or
not a `repeating_upcall` of the same timer waits already. Nothing is lost exactly when the queue
has room for the tasks of all alarms that expire together and no timer ends up in two places.
-/

namespace Alarm

open Core Tock Schedule

/-- The alarms popped, as a trace says. -/
def poppedOf (tr : List Event) : List Popped :=
  tr.filterMap fun
    | .popped p => some p
    | _ => none

@[simp] lemma poppedOf_map (log : List Popped) : poppedOf (log.map .popped) = log := by
  induction log with
  | nil => rfl
  | cons p log ih => exact congrArg (p :: ·) ih

namespace World

/-- The upcall that led from `w` to `w'` queued, once and in their order, the tasks of all alarms
with a callback that it popped. -/
def AllQueued (w w' : World State) (es : List Event) : Prop :=
  w'.pending = w.pending ++
    (poppedOf es).filterMap fun p => taskOf w.st.data (p.alarm, p.tick)

instance (w w' : World State) (es : List Event) : Decidable (AllQueued w w' es) :=
  inferInstanceAs (Decidable (_ = _))

/-- Of the alarms `l`, those with a callback that an upcall finds expired are no more than the
queue has room for. -/
def Room (w : World State) (adv : ℕ → ℕ) (l : List Ptr) : Prop :=
  ((expired w.st.data l w.time adv).filterMap (taskOf w.st.data)).length +
    w.st.queue.waiting.length ≤ 15

/-- No timer of which `repeating_upcall` waits has two of them waiting, or is among the alarms `l`,
unless as a one-shot that the upcall pops. -/
structure NoneTwice (w : World State) (adv : ℕ → ℕ) (l : List Ptr) : Prop where
  nodup : (rearming w.st.queue.waiting).Nodup
  linked : ∀ x ∈ rearming w.st.queue.waiting, x ∈ l →
    x ∈ (expired w.st.data l w.time adv).map Prod.fst ∧
      (w.st.data x).callback ≠ some .repeatingUpcall

instance (w : World State) (adv : ℕ → ℕ) (l : List Ptr) : Decidable (Room w adv l) :=
  inferInstanceAs (Decidable (_ ≤ 15))

instance (w : World State) (adv : ℕ → ℕ) (l : List Ptr) : Decidable (NoneTwice w adv l) :=
  decidable_of_iff ((rearming w.st.queue.waiting).Nodup ∧
      ∀ x ∈ rearming w.st.queue.waiting, x ∈ l →
        x ∈ (expired w.st.data l w.time adv).map Prod.fst ∧
          (w.st.data x).callback ≠ some .repeatingUpcall)
    ⟨fun h => ⟨h.1, h.2⟩, fun h => ⟨h.nodup, h.linked⟩⟩

variable {w w' : World State} {v v' : World Schedule} {adv : ℕ → ℕ} {tr es : List Event}

/-- `callback` queues the tasks of all expired alarms exactly if there is room for them. -/
lemma allQueued_iff (hst : Stores w v) (hv : Sound v) (hstep : Step w (.upcall adv) w' es) :
    AllQueued w w' es ↔ Room w adv v.st.linked := by
  obtain ⟨v', hplan, hst'⟩ := hstep.plan hst
  have hroom := hv.room
  have hlen := hv.origin.length_eq
  unfold AllQueued Room pending
  rw [hst.st.data, hst'.st.waiting, hst.st.waiting, hst'.origin, hst.origin, hst.time]
  obtain ⟨rfl, -, htasks, horigin, -⟩ := (hplan.effect hv).of_upcall
  have hlog : ∀ log : List Popped, log.filterMap (fun p => taskOf v.st.data (p.alarm, p.tick)) =
      (log.map fun p => (p.alarm, p.tick)).filterMap (taskOf v.st.data) := by
    intro log
    rw [List.filterMap_map]
    rfl
  rw [htasks, horigin, poppedOf_map, hlog, map_logOf, List.zip_append hlen,
    List.append_cancel_left_eq]
  generalize List.filterMap (taskOf v.st.data) _ = all
  have hzip : ∀ queued : List (TockTask Upcall × Option Ptr),
      (queued.map Prod.fst).zip (queued.map Prod.snd) = queued := by
    intro queued
    rw [← List.unzip_fst, ← List.unzip_snd, List.zip_unzip]
  rw [hzip, List.take_eq_self_iff]
  omega

/-- Of the expired alarms the repeating timers have their `repeating_upcall` queued. -/
lemma rearming_taskOf {data : Ptr → AlarmData} {expd : List (Ptr × ℕ)}
    (hself : ∀ e ∈ expd, (data e.1).callback = some .repeatingUpcall → (data e.1).ud = e.1) :
    rearming ((expd.filterMap (taskOf data)).map Prod.fst) =
      (expd.map Prod.fst).filter fun x => (data x).callback = some .repeatingUpcall := by
  induction expd with
  | nil => rfl
  | cons e expd ih =>
    have ih := ih fun e' he' => hself e' (List.mem_cons_of_mem _ he')
    have hself := hself e List.mem_cons_self
    cases hcb : (data e.1).callback with
    | none => simpa [taskOf, hcb] using ih
    | some cb =>
      rw [List.filterMap_cons_some (by simp [taskOf, hcb]; rfl), List.map_cons, List.map_cons]
      cases cb with
      | user cb =>
        rw [@rearming_cons_user _ cb rfl, ih, List.filter_cons_of_neg (by simp [hcb])]
      | repeatingUpcall =>
        rw [rearming_cons_repeating rfl, ih, List.filter_cons_of_pos (by simp [hcb])]
        exact congrArg (· :: _) (hself hcb)

/-- Appending a part `popped` of a list to what waits, as far as it meets `q`. -/
lemma nodup_append_filter_iff {α : Type*} {popped rest waiting : List α} (q : α → Bool)
    (h : (popped ++ rest).Nodup) :
    (rest ++ (waiting ++ popped.filter q)).Nodup ↔
      waiting.Nodup ∧ ∀ x ∈ waiting, x ∈ popped ++ rest → x ∈ popped ∧ q x = false := by
  obtain ⟨hpopped, hrest, hne⟩ := List.nodup_append.mp h
  simp only [List.nodup_append, List.mem_append, List.mem_filter]
  constructor
  · rintro ⟨-, ⟨hwait, -, hfilter⟩, hlinked⟩
    refine ⟨hwait, fun x hx hmem => ?_⟩
    have hp : x ∈ popped := hmem.resolve_right fun hr => hlinked x hr x (.inl hx) rfl
    exact ⟨hp, Bool.eq_false_iff.mpr fun hq => hfilter x hx x ⟨hp, hq⟩ rfl⟩
  · rintro ⟨hwait, hnone⟩
    refine ⟨hrest, ⟨hwait, hpopped.filter q, ?_⟩, ?_⟩
    · rintro x hx _ ⟨hp, hq⟩ rfl
      exact Bool.eq_false_iff.mp (hnone x hx (.inl hp)).2 hq
    · rintro x hr _ (hx | ⟨hp, -⟩) rfl
      · exact hne x (hnone x hx (.inr hr)).1 x hr rfl
      · exact hne x hp x hr rfl

/-- After an upcall that had room, the queue can be drained exactly if no timer waited that is
linked as well. -/
lemma drains_after_upcall (hst : Stores w v) (hv : Sound v) (hstep : Step w (.upcall adv) w' es)
    (hroom : Room w adv v.st.linked) : Drains w' ↔ NoneTwice w adv v.st.linked := by
  obtain ⟨v', hplan, hst'⟩ := hstep.plan hst
  have heff := hplan.effect hv
  obtain ⟨-, hlinked, htasks, -⟩ := heff.of_upcall
  rw [Room, hst.st.data, hst.time, hst.st.waiting] at hroom
  rw [List.take_of_length_le (by omega)] at htasks
  have hsplit := expired_append_drop v.st.data v.st.linked v.time adv
  rw [hst'.drains_iff (heff.sound hv), hlinked, htasks, rearming_append,
    rearming_taskOf (hv.self_of_expired rfl),
    nodup_append_filter_iff _ (by rw [hsplit]; exact hv.nodup), hsplit]
  simp only [decide_eq_false_iff_not]
  constructor
  · rintro ⟨hnodup, hlinked⟩
    exact ⟨by rwa [hst.st.waiting], by rwa [hst.st.waiting, hst.st.data, hst.time]⟩
  · rintro ⟨hnodup, hlinked⟩
    rw [hst.st.waiting] at hnodup
    rw [hst.st.waiting, hst.st.data, hst.time] at hlinked
    exact ⟨hnodup, hlinked⟩

/-- In every run an upcall queues the task of each alarm with a callback that it pops, and yields
can then drain the queue, if and only if the expired alarms with a callback are no more than the
queue has room for and no timer of which `repeating_upcall` waits is linked as well. Whatever
happens after the upcall, what waited starts in its order, each task once, or still waits; a yield
that returns has started the oldest task; and a `repeating_upcall` that starts arms its timer. -/
theorem no_expiration_lost_iff {w₀ w w' : World State} {adv : ℕ → ℕ} (h₀ : Initial w₀)
    (hrun : Run Step w₀ tr w) (hstep : Step w (.upcall adv) w' es) :
    (∃ l, IsChain w.st.next w.st.root l ∧
      (AllQueued w w' es ∧ Drains w' ↔ Room w adv l ∧ NoneTwice w adv l)) ∧
    (∀ tr' w'', Run Step w' tr' w'' →
      ∃ new, w'.pending ++ new = startedOf tr' ++ w''.pending) ∧
    (∀ tr' w₁ w₂ es', Run Step w' tr' w₁ → Step w₁ .yield w₂ es' →
      startedOf es' = w₁.pending.take 1) ∧
    (∀ tr' w₁ a w₂ es' task o, Run Step w' tr' w₁ → Step w₁ a w₂ es' → .started task o ∈ es' →
      task.cb = .repeatingUpcall → o = some task.ud ∧ Linked w₂.st task.ud) := by
  obtain ⟨v, hst, hv⟩ := h₀.reach hrun
  have hrun₁ := hrun.snoc _ hstep
  refine ⟨⟨_, hst.st.list.chain, ?_⟩, ?_, ?_, ?_⟩
  · rw [allQueued_iff hst hv hstep, and_congr_right_iff]
    exact drains_after_upcall hst hv hstep
  · intro tr' w'' hrun'
    obtain ⟨v', hst', hv'⟩ := h₀.reach hrun₁
    obtain ⟨v'', hst'', hplan⟩ := World.Run.plan (P := fun _ _ => True) (Q := fun _ _ => True)
      (fun _ _ _ _ h => h) hst' (hrun'.mono fun _ _ _ _ h => ⟨trivial, h⟩)
    rw [hst'.pending_eq, hst''.pending_eq]
    exact hv'.pending_of_run hplan
  · intro tr' w₁ w₂ es' hrun' hstep'
    obtain ⟨v₁, hst₁, hv₁⟩ := h₀.reach (hrun₁.trans hrun')
    obtain ⟨v₂, hplan, -⟩ := hstep'.plan hst₁
    rw [hst₁.pending_eq]
    exact ((hplan.effect hv₁).of_yield hv₁).1
  · intro tr' w₁ a w₂ es' task o hrun' hstep' hmem hcb
    obtain ⟨v₁, hst₁, hv₁⟩ := h₀.reach (hrun₁.trans hrun')
    obtain ⟨v₂, hplan, hst₂⟩ := hstep'.plan hst₁
    rw [linked_iff hst₂]
    cases hplan.effect hv₁ with
    | user flags htasks horigin hcb' =>
      simp only [List.mem_singleton, Event.started.injEq] at hmem
      rw [hmem.1, hcb'] at hcb
      cases hcb
    | repeating flags htasks horigin hcb' hx hr hexp =>
      simp only [List.mem_cons, Event.started.injEq, reduceCtorEq, List.not_mem_nil,
        or_false] at hmem
      obtain ⟨rfl, rfl⟩ := hmem
      exact ⟨rfl, by simp⟩
    | _ => simp at hmem

/-- A repeating timer and a one-shot expire together while the `repeating_upcall` of another timer
and a task of the application wait. -/
theorem no_expiration_lost_two :
    ∃ (w w' : World State) (tr es : List Event), Run Step (boot 1000) tr w ∧
      Step w (.upcall fun _ => 0) w' es ∧ rearming w.st.queue.waiting = [6] ∧
      AllQueued w w' es ∧ Drains w' := by
  have h : execAny (fun _ _ => True) (boot 1000)
      [.timerEvery 1 (.app 7) 13 6, .tick 1, .upcall fun _ => 0, .timerEvery 1 (.app 1) 10 2,
        .timerIn 1 (some (.app 3)) 11 4, .enqueue (.app 5) 0 0 0 12, .tick 1]
      (fun w _ => decide (IsChain w.st.next w.st.root [4, 2]) &&
        decide (rearming w.st.queue.waiting = [6]) &&
        decide (Room w (fun _ => 0) [4, 2]) && decide (NoneTwice w (fun _ => 0) [4, 2]) &&
        w.stepAny (.upcall fun _ => 0) fun _ _ => true) = true := by decide +kernel
  obtain ⟨w, tr, hrun, htest⟩ := run_of_execAny h
  simp only [Bool.and_eq_true, decide_eq_true_eq] at htest
  obtain ⟨⟨⟨⟨hchain, hwait⟩, hroom⟩, hnone⟩, hstep⟩ := htest
  obtain ⟨w', es, hstep, -⟩ := step_of_stepAny hstep
  obtain ⟨l, hl, hiff⟩ :=
    (no_expiration_lost_iff (boot_initial 1000) hrun.of_guarded hstep).1
  obtain rfl := hl.unique hchain
  exact ⟨w, w', tr, es, hrun.of_guarded, hstep, hwait, hiff.mpr ⟨hroom, hnone⟩⟩

/-- Sixteen alarms expire together while no task waits. The last of the list is a repeating timer:
it ends up neither linked nor in the queue. -/
theorem expiration_lost :
    ∃ (w w' : World State) (tr es : List Event), Run Step (boot 1000) tr w ∧
      w.st.queue.waiting = [] ∧ Step w (.upcall fun _ => 0) w' es ∧ ¬ AllQueued w w' es ∧
      (⟨1, 1, some false⟩ : Popped) ∈ poppedOf es ∧ w'.st.root = none ∧
      rearming w'.st.queue.waiting = [] := by
  have h : execAny (fun _ _ => True) (boot 1000)
      (.timerEvery 1 (.app 0) 9 1 ::
        (List.range 15).map (fun n => .timerIn 1 (some (.app n)) n (n + 2)) ++ [.tick 1])
      (fun w _ => decide (w.st.queue.waiting = []) && w.stepAny (.upcall fun _ => 0) fun w' es =>
        decide (¬ AllQueued w w' es) && decide ((⟨1, 1, some false⟩ : Popped) ∈ poppedOf es) &&
          decide (w'.st.root = none) && decide (rearming w'.st.queue.waiting = [])) = true := by
    decide +kernel
  obtain ⟨w, tr, hrun, htest⟩ := run_of_execAny h
  simp only [Bool.and_eq_true, decide_eq_true_eq] at htest
  obtain ⟨hwait, hstep⟩ := htest
  obtain ⟨w', es, hstep, htest⟩ := step_of_stepAny hstep
  simp only [Bool.and_eq_true, decide_eq_true_eq] at htest
  obtain ⟨⟨⟨hlost, hpop⟩, hroot⟩, hre⟩ := htest
  exact ⟨w, w', tr, es, hrun.of_guarded, hwait, hstep, hlost, hpop, hroot, hre⟩

/-- An alarm expires while a `repeating_upcall` waits of a timer that was cancelled and started
again. Its task is queued, but the yields hang before they come to it. -/
theorem expiration_not_drained :
    ∃ (w w' : World State) (tr es : List Event), Run Step (boot 1000) tr w ∧
      Step w (.upcall fun _ => 0) w' es ∧ poppedOf es = [⟨4, 2, some true⟩] ∧
      AllQueued w w' es ∧ ¬ Drains w' := by
  have h : execAny (fun _ _ => True) (boot 1000)
      [.timerEvery 1 (.app 1) 10 2, .tick 1, .upcall fun _ => 0, .timerCancel 2,
        .timerEvery 5 (.app 1) 10 2, .timerIn 1 (some (.app 3)) 11 4, .tick 1]
      (fun w _ => decide (IsChain w.st.next w.st.root [4, 2]) &&
        decide (Room w (fun _ => 0) [4, 2] ∧ ¬ NoneTwice w (fun _ => 0) [4, 2]) &&
        w.stepAny (.upcall fun _ => 0) fun w' es =>
          decide (AllQueued w w' es ∧ poppedOf es = [⟨4, 2, some true⟩])) = true := by
    decide +kernel
  obtain ⟨w, tr, hrun, htest⟩ := run_of_execAny h
  simp only [Bool.and_eq_true, decide_eq_true_eq] at htest
  obtain ⟨⟨hchain, hroom, htwice⟩, hstep⟩ := htest
  obtain ⟨w', es, hstep, htest⟩ := step_of_stepAny hstep
  obtain ⟨hall, hpop⟩ := decide_eq_true_eq.mp htest
  obtain ⟨v, hst, hv⟩ := (boot_initial 1000).reach hrun.of_guarded
  have hl := hst.st.list.chain.unique hchain
  refine ⟨w, w', tr, es, hrun.of_guarded, hstep, hpop, hall, ?_⟩
  rw [drains_after_upcall hst hv hstep (hl ▸ hroom), hl]
  exact htwice

end World

end Alarm
