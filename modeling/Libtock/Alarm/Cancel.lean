import Libtock.Alarm.Effect

/-!
# Cancelling alarms

`alarm_cancel` takes an alarm off the list but leaves alone what `callback` has put into the task
queue. A cancel is therefore final exactly when no task of the alarm waits.
-/

namespace Alarm

open Core Tock Schedule

namespace World

/-- The alarm is neither linked nor waiting, and no event so far was about it. -/
structure Silent (x : Ptr) (tr : List Event) (v : World Schedule) : Prop where
  linked : x ∉ v.st.linked
  origin : some x ∉ v.origin
  started : ∀ task, .started task (some x) ∉ tr
  periodic : ∀ call, .periodic call ∈ tr → call.timer ≠ x

variable {v v' : World Schedule} {a : Action} {tr es : List Event} {x : Ptr}

/-- A step whose events are not about `x` keeps it silent if it keeps it out of both places. -/
lemma Silent.append (h : Silent x tr v) (hl : x ∉ v'.st.linked) (ho : some x ∉ v'.origin)
    (hs : ∀ task, .started task (some x) ∉ es)
    (hp : ∀ call, .periodic call ∈ es → call.timer ≠ x) : Silent x (tr ++ es) v' :=
  ⟨hl, ho, fun task ht => (List.mem_append.mp ht).elim (h.started task) (hs task),
    fun call hc => (List.mem_append.mp hc).elim (h.periodic call) (hp call)⟩

lemma Silent.effect (h : Silent x tr v) (hP : x ∉ a.starts) (heff : Effect v a v' es) :
    Silent x (tr ++ es) v' := by
  cases heff with
  | quiet flags hact ht => exact h.append h.linked h.origin (by simp) (by simp)
  | refused hfull => exact h.append h.linked h.origin (by simp) (by simp)
  | @oneShot _ _ _ _ _ y hact hy =>
    have hxy : x ≠ y := by
      rintro rfl
      exact hP (by rcases hact with rfl | ⟨⟨_, rfl, _⟩, _⟩ <;> rfl)
    exact h.append (by simp [hxy, h.linked]) h.origin (by simp) (by simp)
  | @periodic _ _ _ y hy =>
    have hxy : x ≠ y := by
      rintro rfl
      exact hP rfl
    exact h.append (by simp [hxy, h.linked]) h.origin (by simp) (by simp)
  | cancel hact hi =>
    exact h.append (fun hx => h.linked (List.mem_of_mem_erase hx)) h.origin (by simp) (by simp)
  | @upcall adv _ _ expd queued hes hqueued ht hle hset =>
    refine h.append (fun hx => h.linked (List.mem_of_mem_drop hx)) (?_) (by simp)
      (by simp)
    intro hx
    rcases List.mem_append.mp hx with hx | hx
    · exact h.origin hx
    · have hmem : x ∈ expd.map Prod.fst :=
        (origin_queued_sublist v.st.data expd _).subset
          (List.reduceOption_mem_iff.mpr (hqueued ▸ hx))
      obtain ⟨e, he, rfl⟩ := List.mem_map.mp hmem
      rw [hes] at he
      exact h.linked (mem_linked_of_mem_expired he)
  | enqueue hroom => exact h.append h.linked (by simpa using h.origin) (by simp) (by simp)
  | user flags htasks horigin hcb =>
    have ho := h.origin
    simp only [horigin, List.mem_cons, not_or] at ho
    exact h.append h.linked ho.2 (by simp [ho.1]) (by simp)
  | @repeating task _ _ _ _ flags htasks horigin hcb hx hr hexp =>
    have ho := h.origin
    simp only [horigin, List.mem_cons, not_or, Option.some.injEq] at ho
    exact h.append (by simp [ho.1, h.linked]) ho.2 (by simpa using ho.1)
      (by simpa using Ne.symm ho.1)

/-! ### Draining the queue -/

/-- The oldest task can always be started, if need be after cancelling the alarm it would arm. -/
lemma exists_start (x : Ptr) (hv : Sound v) {o : Option Ptr} {origin : List (Option Ptr)}
    (ho : v.origin = o :: origin) :
    ∃ tr v', Run (Guarded Plan fun _ a => x ∉ a.starts) v tr v' ∧ Sound v' ∧ v'.origin = origin ∧
      ∃ task, .started task o ∈ tr := by
  -- if the oldest task can be started at once
  have hyield : ∀ v : World Schedule, Sound v → v.origin = o :: origin →
      (∀ y, arms v.st.tasks .yield = some y → y ∉ v.st.linked) →
      ∃ es v', Guarded Plan (fun _ a => x ∉ a.starts) v .yield v' es ∧ Sound v' ∧
        v'.origin = origin ∧ ∃ task, .started task o ∈ es := by
    intro v hv ho hy
    obtain ⟨v', es, hplan⟩ := exists_plan hy (fun y hy => by cases hy)
    have heff := hplan.effect hv
    refine ⟨es, v', ⟨fun hx => (by cases hx), hplan⟩, heff.sound hv, ?_⟩
    have hne : v.st.tasks ≠ [] := by
      intro hnil
      have := hv.origin.length_eq
      simp [hnil, ho] at this
    cases heff with
    | quiet flags hact ht =>
      rcases hact with ⟨_, h⟩ | ⟨_, _, h⟩ | ⟨_, h⟩
      · cases h
      · cases h
      · exact absurd h hne
    | oneShot hact hx => rcases hact with h | ⟨⟨_, h, _⟩, _⟩ <;> cases h
    | cancel hact hi => cases hact
    | user flags htasks horigin hcb =>
      rw [horigin] at ho
      cases ho
      exact ⟨rfl, _, List.mem_cons_self⟩
    | repeating flags htasks horigin hcb hx hr hexp =>
      rw [horigin] at ho
      cases ho
      exact ⟨rfl, _, List.mem_cons_self⟩
  by_cases harms : ∀ y, arms v.st.tasks .yield = some y → y ∉ v.st.linked
  · obtain ⟨es, v', hstep, h⟩ := hyield v hv ho harms
    exact ⟨es, v', .single hstep, h⟩
  · push Not at harms
    obtain ⟨y, hy, hmem⟩ := harms
    obtain ⟨v₁, es₁, hplan⟩ := exists_plan (v := v) (a := .alarmCancel y)
      (fun z hz => by cases hz) (fun z hz => by cases hz; exact hv.initialised y hmem)
    obtain ⟨rfl, -⟩ := (hplan.effect hv).of_cancels rfl
    have hv₁ := (hplan.effect hv).sound hv
    obtain ⟨es, v', hstep, h⟩ := hyield _ hv₁ ho fun z hz => by
      obtain rfl : y = z := Option.some.inj (hy.symm.trans hz)
      exact hv.nodup.not_mem_erase
    have hfirst : Guarded Plan (fun _ a => x ∉ a.starts) v (.alarmCancel y) _ es₁ :=
      ⟨fun hx => (by cases hx), hplan⟩
    refine ⟨es₁ ++ es, v', (Run.single hfirst).snoc _ hstep, h.1, h.2.1, ?_⟩
    obtain ⟨task, htask⟩ := h.2.2
    exact ⟨task, List.mem_append_right _ htask⟩

/-- Every waiting task is started in some continuation. -/
lemma exists_run_started (hv : Sound v) (hx : some x ∈ v.origin) :
    ∃ tr v', Run (Guarded Plan fun _ a => x ∉ a.starts) v tr v' ∧
      ∃ task, .started task (some x) ∈ tr := by
  generalize horigin : v.origin = origin at hx
  induction origin generalizing v with
  | nil => cases hx
  | cons o origin ih =>
    obtain ⟨tr, v₁, hrun, hv₁, ho, task, htask⟩ := exists_start x hv horigin
    rcases List.mem_cons.mp hx with rfl | hx
    · exact ⟨tr, v₁, hrun, task, htask⟩
    · obtain ⟨tr', v₂, hrun', task', htask'⟩ := ih hv₁ ho hx
      exact ⟨tr ++ tr', v₂, hrun.trans hrun', task', List.mem_append_right _ htask'⟩

/-! ### The code -/

/-- What the cancel of `x` that led to `w` promises: as long as its owner does not arm `x`, no
yield starts a task of it or calls it as a timer, and it is not linked. -/
def CancelledForGood (x : Ptr) (w : World State) : Prop :=
  ∀ tr w', Run (Guarded Step fun _ a => x ∉ a.starts) w tr w' →
    ¬ Linked w'.st x ∧ (∀ task, .started task (some x) ∉ tr) ∧
      ∀ call, .periodic call ∈ tr → call.timer ≠ x

/-- After a cancel the alarm is silent for good exactly if none of its tasks waits. -/
lemma cancelledForGood_iff {w w' : World State} {v : World Schedule} (hst : Stores w v)
    (hv : Sound v) (hc : a.cancels = some x) (hstep : Step w a w' es) :
    CancelledForGood x w' ↔ some x ∉ w.origin := by
  obtain ⟨v', hplan, hst'⟩ := hstep.plan hst
  have heff := hplan.effect hv
  have hv' := heff.sound hv
  obtain ⟨rfl, -⟩ := heff.of_cancels hc
  rw [hst.origin]
  constructor
  · intro hgood hx
    obtain ⟨tr, v₂, hrun, task, htask⟩ := exists_run_started (x := x) hv' hx
    obtain ⟨w₂, -, hrun'⟩ := World.Run.step (P := fun _ a => x ∉ a.starts)
      (fun _ _ _ _ h => h) hst' hrun
    exact (hgood tr w₂ hrun').2.1 task htask
  · intro hx tr w₂ hrun
    obtain ⟨v₂, hst₂, hrun'⟩ := World.Run.plan (Q := fun _ a => x ∉ a.starts)
      (fun _ _ _ _ h => h) hst' hrun
    have hsilent := (hv'.run (fun tr v => Silent x tr v)
      (fun tr v a v' es _ h hP heff => h.effect hP heff)
      ⟨hv.nodup.not_mem_erase, hx, by simp, by simp⟩ hrun').2
    rw [linked_iff hst₂]
    exact ⟨hsilent.linked, hsilent.started, hsilent.periodic⟩

/-! ### `yield_for_with_timeout` -/

/-- The executions of the loop of `yield_for_with_timeout`, with the value it returns. Between two
tests of `*cond` it yields, and what the yield runs may take any number of steps. -/
inductive WaitLoop (cond timeout timer : Ptr) :
    World State → List Event → World State → ℤ → Prop
  | success {w w' : World State} {es : List Event} : w.st.flags cond = true →
      Step w (.timerCancel timer) w' es → WaitLoop cond timeout timer w es w' 0
  | fail {w : World State} : w.st.flags cond = false → w.st.flags timeout = true →
      WaitLoop cond timeout timer w [] w (-1)
  | again {w w₁ w₂ w₃ : World State} {es tr tr' : List Event} {ret : ℤ} :
      w.st.flags cond = false → w.st.flags timeout = false → Step w .yield w₁ es →
      Run Step w₁ tr w₂ → WaitLoop cond timeout timer w₂ tr' w₃ ret →
      WaitLoop cond timeout timer w (es ++ tr ++ tr') w₃ ret

/-- The executions of `yield_for_with_timeout(cond, ms)` whose variables `timeout` and `timer` have
the given addresses. -/
def YieldForWithTimeout (cond : Ptr) (ms : U32) (timeout timer : Ptr) (w : World State)
    (tr : List Event) (w' : World State) (ret : ℤ) : Prop :=
  ∃ w₁ w₂ es es' tr', Step w (.setFlag timeout false) w₁ es ∧
    Step w₁ (.timerIn ms (some .yieldForTimeoutUpcall) timeout timer) w₂ es' ∧
    WaitLoop cond timeout timer w₂ tr' w' ret ∧ tr = es ++ es' ++ tr'

/-- The success path ends with the cancel of the timer. -/
lemma WaitLoop.success_inv {cond timeout timer : Ptr} {w w' : World State} {tr : List Event}
    {ret : ℤ} (h : WaitLoop cond timeout timer w tr w' ret) (hret : ret = 0) :
    ∃ tr' w₁ es, Run Step w tr' w₁ ∧ w₁.st.flags cond = true ∧
      Step w₁ (.timerCancel timer) w' es := by
  induction h with
  | success hcond hstep => exact ⟨_, _, _, .nil, hcond, hstep⟩
  | fail _ _ => cases hret
  | again _ _ hyield hrun _ ih =>
    obtain ⟨tr', w₁, es, hrun', hcond, hstep⟩ := ih hret
    exact ⟨_, w₁, es, ((Run.single hyield).trans hrun).trans hrun', hcond, hstep⟩

/-- In every run a cancel is final if and only if no task of the alarm waits when it is made; so
also the cancel with which `yield_for_with_timeout` ends its timer when it succeeds. -/
theorem cancellation_is_final_iff {w₀ w : World State} {tr : List Event} (h₀ : Initial w₀)
    (hrun : Run Step w₀ tr w) :
    (∀ a x w' es, a.cancels = some x → Step w a w' es →
      (CancelledForGood x w' ↔ some x ∉ w.origin)) ∧
    (∀ cond ms timeout timer tr' w', YieldForWithTimeout cond ms timeout timer w tr' w' 0 →
      ∃ tr₁ w₁ es, Run Step w tr₁ w₁ ∧ w₁.st.flags cond = true ∧
        Step w₁ (.timerCancel timer) w' es ∧
          (CancelledForGood timer w' ↔ some timer ∉ w₁.origin)) := by
  constructor
  · intro a x w' es hc hstep
    obtain ⟨v, hst, hv⟩ := h₀.reach hrun
    exact cancelledForGood_iff hst hv hc hstep
  · rintro cond ms timeout timer tr' w' ⟨w₁, w₂, es, es', tr'', hflag, htimer, hloop, -⟩
    obtain ⟨tr₁, w₃, es₁, hrun₁, hcond, hstep⟩ := hloop.success_inv rfl
    have hrun₃ := ((Run.single hflag).snoc _ htimer).trans hrun₁
    obtain ⟨v, hst, hv⟩ := h₀.reach (hrun.trans hrun₃)
    exact ⟨_, w₃, es₁, hrun₃, hcond, hstep, cancelledForGood_iff hst hv rfl hstep⟩

/-- A timer that is cancelled before it expires. -/
theorem cancellation_is_final_before_expiry :
    ∃ (w w' : World State) (tr : List Event), Run Step (boot 1000) tr w ∧
      Step w (.timerCancel 2) w' [.cancelled 2] ∧ CancelledForGood 2 w' := by
  have hrun : Run (Guarded Step fun _ _ => True) (boot 1000) _ _ :=
    run_of_exec [.timerIn 5 (some (.app 1)) 10 2, .timerIn 1 (some (.app 3)) 11 4, .tick 1,
      .upcall fun _ => 0, .yield] rfl
  refine ⟨_, _, _, hrun.of_guarded, ⟨0, rfl⟩, ?_⟩
  exact ((cancellation_is_final_iff (boot_initial 1000) hrun.of_guarded).1 (.timerCancel 2) _ _ _
    rfl ⟨0, rfl⟩).mpr (by decide)

/-- Two alarms expire together, and the task of the first cancels the second, a repeating timer:
the next yield still calls its callback and arms it again. -/
theorem cancellation_not_final :
    ∃ (w w' : World State) (tr : List Event), Run Step (boot 1000) tr w ∧
      Step w (.timerCancel 2) w' [.cancelled 2] ∧
      ∃ (tr' : List Event) (w'' : World State),
        Run (Guarded Step fun _ a => 2 ∉ a.starts) w' tr' w'' ∧
        .periodic ⟨2, .app 1, 1, 1, 10⟩ ∈ tr' ∧ Linked w''.st 2 := by
  have hrun : Run (Guarded Step fun _ _ => True) (boot 1000) _ _ :=
    run_of_exec [.timerEvery 1 (.app 1) 10 2, .timerIn 1 (some (.app 3)) 11 4, .tick 1,
      .upcall fun _ => 0, .yield] rfl
  refine ⟨_, _, _, hrun.of_guarded, ⟨0, rfl⟩, _, _, run_of_exec [.yield] rfl, ?_, .root rfl⟩
  decide

end World

end Alarm
