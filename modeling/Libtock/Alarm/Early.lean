import Libtock.Alarm.Effect

/-!
# No alarm fires early

The invariant says that the reference of a linked alarm is not in the future, and that the
reference with which a waiting `repeating_upcall` will arm its timer is not either. Since the
clock never shows more elapsed time than has passed, an alarm that `callback` finds expired is
due, however often the clock has wrapped.
-/

namespace Alarm

open Core Tock Schedule

/-- The alarm that an action of the application arms or cancels. -/
def Action.subject (a : Action) : Option Ptr := a.starts <|> a.cancels

namespace World

/-- The application uses no reference in the future, and leaves a timer alone while its
`repeating_upcall` waits. -/
def Patient (time : ℕ) (tasks : List (TockTask Upcall)) (a : Action) : Prop :=
  a.reference time ≤ time ∧ ∀ t ∈ a.subject, t ∉ rearming tasks

instance (time : ℕ) (tasks : List (TockTask Upcall)) (a : Action) :
    Decidable (Patient time tasks a) := by
  rw [Patient]
  infer_instance

structure Past (v : World Schedule) : Prop where
  linked : ∀ p ∈ v.st.linked, v.ref p ≤ v.time
  interval : ∀ p ∈ v.st.linked, (v.st.data p).callback = some .repeatingUpcall →
    (v.st.data p).dt = (v.st.timers p).interval
  waiting : ∀ t ∈ rearming v.st.tasks, t ∉ v.st.linked ∧
    v.ref t + (v.st.timers t).interval.toNat ≤ v.time
  nodup : (rearming v.st.tasks).Nodup

variable {v v' : World Schedule} {a : Action} {es : List Event}

/-- An alarm that `callback` finds expired is due. -/
lemma Past.due (hv : Sound v) (h : Past v) {adv : ℕ → ℕ} {e : Ptr × ℕ}
    (he : e ∈ expired v.st.data v.st.linked v.time adv) :
    v.ref e.1 + (v.st.data e.1).dt.toNat ≤ e.2 := by
  obtain ⟨htime, hexp⟩ := expired_spec he
  have hle : v.ref e.1 ≤ e.2 := (h.linked _ (mem_linked_of_mem_expired he)).trans htime
  have hclock : (alarmInternalRead e.2 - alarmInternalRead (v.ref e.1)).toNat ≤ e.2 - v.ref e.1 :=
    Clock.toNat_ofNat_sub_le hle
  rw [hv.ref, BitVec.not_lt, BitVec.le_def] at hexp
  omega

/-- Arming an alarm whose reference is not in the future. -/
lemma Past.link (h : Past v) {x : Ptr} {d : AlarmData} {n : ℕ} (hn : n ≤ v.time)
    (hx : x ∉ rearming v.st.tasks) {timers : Ptr → TockTimer}
    (htimers : ∀ p ≠ x, timers p = v.st.timers p)
    (hd : d.callback = some .repeatingUpcall → d.dt = (timers x).interval) (flags : Ptr → Bool)
    (use : Ptr → Use) :
    Past { v with
      st := { v.st with timers, flags }.link x d
      ref := Function.update v.ref x n
      use } := by
  refine ⟨?_, ?_, ?_, h.nodup⟩
  · intro p hp
    by_cases hpx : p = x
    · simpa [hpx] using hn
    · simpa [Function.update_of_ne hpx] using
        h.linked p (((mem_link _ _ _).mp hp).resolve_left hpx)
  · intro p hp hcb
    by_cases hpx : p = x
    · subst hpx
      simp only [data_link, Function.update_self] at hcb ⊢
      exact hd hcb
    · simp only [data_link, Function.update_of_ne hpx] at hcb ⊢
      rw [h.interval p (((mem_link _ _ _).mp hp).resolve_left hpx) hcb]
      exact congrArg _ (htimers p hpx).symm
  · intro t ht
    have htx : t ≠ x := ne_of_mem_of_not_mem ht hx
    obtain ⟨hlinked, hle⟩ := h.waiting t ht
    refine ⟨by simp [htx, hlinked], ?_⟩
    simpa [Function.update_of_ne htx, htimers t htx] using hle

lemma Past.effect (hv : Sound v) (h : Past v) (hP : Patient v.time v.st.tasks a)
    (heff : Effect v a v' es) : Past v' := by
  cases heff with
  | quiet flags hact ht =>
    exact ⟨fun p hp => (h.linked p hp).trans ht, h.interval,
      fun t htask => ⟨(h.waiting t htask).1, (h.waiting t htask).2.trans ht⟩, h.nodup⟩
  | refused hfull => exact h
  | @oneShot _ ref dt cb ud x hact hx =>
    have hx' : x ∉ rearming v.st.tasks ∧ ref ≤ v.time := by
      rcases hact with rfl | ⟨⟨_, rfl, rfl⟩, rfl⟩
      · exact ⟨hP.2 x rfl, hP.1⟩
      · exact ⟨hP.2 x rfl, le_rfl⟩
    refine h.link hx'.2 hx'.1 (fun _ _ => rfl) (?_) v.st.flags _
    intro hcb
    obtain ⟨_, _, hc⟩ := Option.map_eq_some_iff.mp hcb
    cases hc
  | @periodic _ _ _ x hx =>
    exact h.link le_rfl (hP.2 x rfl) (fun p hp => Function.update_of_ne hp _ _)
      (fun _ => by simp) v.st.flags _
  | cancel hact hi =>
    exact ⟨fun p hp => h.linked p (List.mem_of_mem_erase hp),
      fun p hp => h.interval p (List.mem_of_mem_erase hp),
      fun t ht => ⟨fun hl => (h.waiting t ht).1 (List.mem_of_mem_erase hl), (h.waiting t ht).2⟩,
      h.nodup⟩
  | @upcall adv time alarmSet expd queued hes hqueued ht hle hset =>
    have hself := hv.self_of_expired hes
    have hsplit := expired_append_drop v.st.data v.st.linked v.time adv
    rw [← hes] at hsplit
    have hnd := hv.nodup
    rw [← hsplit, List.nodup_append] at hnd
    obtain ⟨hnd₁, -, hdisj⟩ := hnd
    have hnew : ∀ t ∈ rearming (queued.map Prod.fst), ∃ n, (t, n) ∈ expd ∧
        (v.st.data t).callback = some .repeatingUpcall := fun t ht =>
      mem_rearming_queued hself (by rw [hqueued] at ht; exact ht)
    refine ⟨fun p hp => (h.linked p (List.mem_of_mem_drop hp)).trans ht,
      fun p hp => h.interval p (List.mem_of_mem_drop hp), ?_, ?_⟩
    · intro t htask
      rw [rearming_append, List.mem_append] at htask
      rcases htask with htask | htask
      · obtain ⟨hl, hn⟩ := h.waiting t htask
        exact ⟨fun hl' => hl (List.mem_of_mem_drop hl'), hn.trans ht⟩
      · obtain ⟨n, hmem, hcb⟩ := hnew t htask
        have hmem' := hmem
        rw [hes] at hmem'
        refine ⟨fun hl => hdisj t (List.mem_map_of_mem hmem) t hl rfl, ?_⟩
        have hdue := h.due hv hmem'
        rw [h.interval t (mem_linked_of_mem_expired hmem') hcb] at hdue
        exact hdue.trans (hle _ hmem)
    · rw [rearming_append, List.nodup_append]
      refine ⟨h.nodup, hqueued ▸ hnd₁.sublist (rearming_queued_sublist hself), ?_⟩
      rintro t ht₁ t' ht₂ rfl
      obtain ⟨n, hmem, -⟩ := hnew t ht₂
      rw [hes] at hmem
      exact (h.waiting t ht₁).1 (mem_linked_of_mem_expired hmem)
  | enqueue hroom =>
    exact ⟨h.linked, h.interval, by simpa using h.waiting, by simpa using h.nodup⟩
  | user flags htasks horigin hcb =>
    have hr := h.waiting
    have hnd := h.nodup
    rw [htasks, rearming_cons_user hcb] at hr hnd
    exact ⟨h.linked, h.interval, hr, hnd⟩
  | @repeating task tasks _ _ curExp flags htasks horigin hcb hx hr hexp =>
    have hre := h.waiting
    have hnd := h.nodup
    rw [htasks, rearming_cons_repeating hcb] at hre hnd
    have h' : Past { v with st := { v.st with tasks } } :=
      ⟨h.linked, h.interval, fun t ht => hre t (List.mem_cons_of_mem _ ht),
        (List.nodup_cons.mp hnd).2⟩
    have hn := (hre _ List.mem_cons_self).2
    rw [← hr] at hn
    subst hr
    have := h'.link
      (d := ⟨curExp, (v.st.timers task.ud).interval, some .repeatingUpcall, task.ud⟩) hn
      (List.nodup_cons.mp hnd).1 (fun _ _ => rfl) (fun _ => rfl) flags
      (useAfterStart v.use .repeatingUpcall (some task.ud))
    exact ⟨this.linked, this.interval, this.waiting, this.nodup⟩

/-- In every run of a patient application an alarm is popped, and its callback enqueued, only when
at least `dt` ticks have passed since its reference, and no `repeating_upcall` arms its timer with
a reference in the future. -/
theorem no_alarm_fires_early {w₀ w : World State} {tr : List Event} (h₀ : Initial w₀)
    (hrun : Run (Guarded Step fun w a => Patient w.time w.st.queue.waiting a) w₀ tr w) :
    (∀ p, (w.st.alarms p).reference = alarmInternalRead (w.ref p)) ∧
    (∀ adv w' es, Step w (.upcall adv) w' es → ∀ p, .popped p ∈ es →
      w.ref p.alarm + (w.st.alarms p.alarm).dt.toNat ≤ p.tick ∧ p.tick ≤ w'.time) ∧
    (∀ w' es, Step w .yield w' es → ∀ call, .periodic call ∈ es →
      call.expiration = alarmInternalRead (w'.ref call.timer) ∧
      w'.ref call.timer ≤ w'.time) := by
  obtain ⟨v, hst, hv, hpast⟩ := h₀.run (Q := fun v a => Patient v.time v.st.tasks a)
    (fun _ v => Past v) (fun _ v a v' es hv h hP heff => h.effect hv hP heff)
    (fun w v a hst hP => by rwa [← hst.time, ← hst.st.waiting])
    ⟨fun p hp => (by cases hp), fun p hp => (by cases hp), fun t ht => (by cases ht),
      List.nodup_nil⟩ hrun
  have hdata : ∀ p, (w.st.alarms p).toAlarmData = v.st.data p := congrFun hst.st.data
  refine ⟨?_, ?_, ?_⟩
  · intro p
    rw [hdata, hst.ref]
    exact hv.ref p
  · intro adv w' es hstep p hp
    obtain ⟨v', hplan, hst'⟩ := hstep.plan hst
    obtain ⟨rfl, -, -, -, hle⟩ := (hplan.effect hv).of_upcall
    have hmem := mem_logOf (by simpa using hp)
    rw [hdata, hst.ref, hst'.time]
    exact ⟨hpast.due hv hmem, hle _ hmem⟩
  · intro w' es hstep call hcall
    obtain ⟨v', hplan, hst'⟩ := hstep.plan hst
    have heff := hplan.effect hv
    have hP : Patient v.time v.st.tasks .yield := ⟨le_rfl, fun t ht => by cases ht⟩
    obtain ⟨-, hlinked, hexp⟩ := heff.of_periodic hcall
    rw [hst'.ref, hst'.time, hexp]
    exact ⟨(heff.sound hv).ref _, (hpast.effect hv hP heff).linked _ hlinked⟩

/-- A repeating timer and an alarm with the longest `dt`, over three wraps of the clock. -/
theorem no_alarm_fires_early_wraps :
    ∃ (w : World State) (tr : List Event), Run Step (boot 1000) tr w ∧
      (∃ w' es, Step w .yield w' es ∧ ∃ call, .periodic call ∈ es) ∧
      ∀ w' es, Step w .yield w' es → ∀ call, .periodic call ∈ es →
        call.expiration = alarmInternalRead (w'.ref call.timer) ∧
        w'.ref call.timer ≤ w'.time := by
  have hrun : Run (Guarded Step fun w a => Patient w.time w.st.queue.waiting a) (boot 1000) _ _ :=
    run_of_exec [.timerEvery 20 (.app 1) 5 2, .alarmAt 0 (-1) (some (.app 3)) 6 4,
      .tick (3 * 2 ^ 32 + 27), .upcall fun k => k] rfl
  exact ⟨_, _, hrun.of_guarded, ⟨_, _, ⟨32, rfl⟩, ⟨2, .app 1, 27, 20, 5⟩, by decide⟩,
    (no_alarm_fires_early (boot_initial 1000) hrun).2.2⟩

end World

end Alarm
