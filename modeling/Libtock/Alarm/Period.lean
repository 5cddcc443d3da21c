import Libtock.Alarm.Effect

/-!
# Repeating timers keep their period

`repeating_upcall` computes the next reference from the record of the alarm, to which nobody else
writes while the timer is not started again. So the record counts the calls: after `n` of them
the reference is the start plus `n` intervals, modulo the clock.
-/

namespace Alarm

open Core Tock Schedule

/-- The calls that `repeating_upcall` made for timer `t`, as a trace says. -/
def periodicOf (t : Ptr) (tr : List Event) : List PeriodicCall :=
  tr.filterMap fun
    | .periodic call => if call.timer = t then some call else none
    | _ => none

@[simp] lemma periodicOf_append (t : Ptr) (tr es : List Event) :
    periodicOf t (tr ++ es) = periodicOf t tr ++ periodicOf t es := List.filterMap_append

@[simp] lemma periodicOf_map (t : Ptr) (log : List Popped) :
    periodicOf t (log.map .popped) = [] := by
  induction log with
  | nil => rfl
  | cons p log ih => exact ih

namespace World

/-- The calls so far and the record of timer `t`, which was started at `t₀` as `r`. -/
structure OnSchedule (t : Ptr) (t₀ : ℕ) (r : TockTimer) (tr : List Event) (v : World Schedule) :
    Prop where
  calls : ∀ k call, (periodicOf t tr)[k]? = some call →
    call.expiration = alarmInternalRead (t₀ + (k + 1) * r.interval.toNat) ∧ call.cb = r.cb ∧
      call.ud = r.ud
  reference : (v.st.data t).reference
    = alarmInternalRead (t₀ + (periodicOf t tr).length * r.interval.toNat)
  timer : v.st.timers t = r

variable {v v' : World Schedule} {a : Action} {tr es : List Event} {t : Ptr} {t₀ : ℕ}
  {r : TockTimer}

/-- A step that neither calls the timer nor writes its record. -/
lemma OnSchedule.frame (h : OnSchedule t t₀ r tr v) (hes : periodicOf t es = [])
    (hdata : v'.st.data t = v.st.data t) (htimers : v'.st.timers t = v.st.timers t) :
    OnSchedule t t₀ r (tr ++ es) v' := by
  refine ⟨?_, ?_, htimers.trans h.timer⟩
  · simpa [hes] using h.calls
  · simpa [hes, hdata] using h.reference

lemma OnSchedule.effect (h : OnSchedule t t₀ r tr v) (hP : t ∉ a.starts)
    (heff : Effect v a v' es) : OnSchedule t t₀ r (tr ++ es) v' := by
  cases heff with
  | quiet flags hact ht => exact h.frame rfl rfl rfl
  | refused hfull => exact h.frame rfl rfl rfl
  | @oneShot _ _ _ _ _ x hact hx =>
    have htx : t ≠ x := by
      rintro rfl
      exact hP (by rcases hact with rfl | ⟨⟨_, rfl, _⟩, _⟩ <;> rfl)
    exact h.frame rfl (by simp [Function.update_of_ne htx]) rfl
  | @periodic _ _ _ x hx =>
    have htx : t ≠ x := by
      rintro rfl
      exact hP rfl
    exact h.frame rfl (by simp [Function.update_of_ne htx]) (by simp [Function.update_of_ne htx])
  | cancel hact hi => exact h.frame rfl rfl rfl
  | upcall hes hqueued ht hle hset => exact h.frame (periodicOf_map _ _) rfl rfl
  | enqueue hroom => exact h.frame rfl rfl rfl
  | user flags htasks horigin hcb => exact h.frame rfl rfl rfl
  | @repeating task tasks origin r' curExp flags htasks horigin hcb hx hr hexp =>
    by_cases htx : task.ud = t
    · subst htx
      obtain rfl : r' = r := hr.trans h.timer
      have hcalls : periodicOf task.ud [.started task (some task.ud),
          .periodic ⟨task.ud, r'.cb, task.arg0, curExp, r'.ud⟩]
            = [⟨task.ud, r'.cb, task.arg0, curExp, r'.ud⟩] := by simp [periodicOf]
      -- the call is for one interval after the reference
      have hnext : curExp
          = alarmInternalRead (t₀ + ((periodicOf task.ud tr).length + 1) * r'.interval.toNat) := by
        rw [hexp, h.reference, add_one_mul, ← add_assoc]
        exact (Clock.ofNat_add_toNat _ _).symm
      refine ⟨?_, ?_, by simpa using h.timer⟩
      · intro k call hk
        rw [periodicOf_append, hcalls, List.getElem?_append] at hk
        split_ifs at hk with hlt
        · exact h.calls k call hk
        · obtain ⟨hk', rfl⟩ : k - (periodicOf task.ud tr).length = 0 ∧
              (⟨task.ud, r'.cb, task.arg0, curExp, r'.ud⟩ : PeriodicCall) = call := by
            rw [List.getElem?_singleton] at hk
            split_ifs at hk with hzero
            exact ⟨hzero, Option.some.inj hk⟩
          obtain rfl : k = (periodicOf task.ud tr).length := by omega
          exact ⟨hnext, rfl, rfl⟩
      · simpa [periodicOf_append, hcalls] using hnext
    · refine h.frame (by simp [periodicOf, htx]) ?_ rfl
      simp [Function.update_of_ne (Ne.symm htx)]

/-- In every run in which a repeating timer is not started again, its `k`-th call, counted from
zero, is for the tick that is `k + 1` intervals after its start, however late it is. -/
theorem repeating_timer_keeps_period {w₀ w w₁ w₂ : World State} {tr₀ es₁ tr : List Event}
    {ms : U32} {cb : Callback} {ud t : Ptr} (h₀ : Initial w₀) (hrun : Run Step w₀ tr₀ w)
    (hstart : Step w (.timerEvery ms cb ud t) w₁ es₁)
    (hrun' : Run (Guarded Step fun _ a => t ∉ a.starts) w₁ tr w₂) :
    ∀ k call, (periodicOf t tr)[k]? = some call →
      call.expiration = BitVec.ofNat 32 (w.time + (k + 1) * (ticks ms w.st.frequency).toNat) ∧
      call.cb = cb ∧ call.ud = ud := by
  obtain ⟨v, hst, hv⟩ := h₀.reach hrun
  obtain ⟨v₁, hplan, hst₁⟩ := hstart.plan hst
  have heff := hplan.effect hv
  have hv₁ := heff.sound hv
  have hinit : OnSchedule t w.time ⟨ticks ms w.st.frequency, cb, ud⟩ [] v₁ := by
    rw [hst.time, hst.st.frequency]
    cases heff with
    | quiet flags hact ht => rcases hact with ⟨_, h⟩ | ⟨_, _, h⟩ | ⟨h, _⟩ <;> cases h
    | oneShot hact hx => rcases hact with h | ⟨⟨_, h, _⟩, _⟩ <;> cases h
    | cancel hact hi => cases hact
    | periodic hx => exact ⟨by simp [periodicOf], by simp [periodicOf], by simp⟩
  obtain ⟨v₂, -, hplan'⟩ := World.Run.plan (Q := fun _ a => t ∉ a.starts) (fun _ _ _ _ h => h)
    hst₁ hrun'
  exact (hv₁.run (fun tr v => OnSchedule t w.time ⟨ticks ms w.st.frequency, cb, ud⟩ tr v)
    (fun _ _ _ _ _ _ h hP heff => h.effect hP heff) hinit hplan').2.calls

/-- A timer that is served three periods late, just before the clock wraps. -/
theorem repeating_timer_keeps_period_late :
    ∃ (w w₁ w₂ : World State) (tr : List Event), w.time = 2 ^ 32 - 5 ∧
      Step w (.timerEvery 3 (.app 1) 10 2) w₁ [.armed 2] ∧
      Run (Guarded Step fun _ a => 2 ∉ a.starts) w₁ tr w₂ ∧
      (periodicOf 2 tr).map PeriodicCall.expiration = [-2, 1, 4] ∧
      ∀ k call, (periodicOf 2 tr)[k]? = some call →
        call.expiration = BitVec.ofNat 32 (w.time + (k + 1) * (ticks 3 w.st.frequency).toNat) ∧
        call.cb = .app 1 ∧ call.ud = 10 := by
  have h : execAny (fun _ _ => True) (boot 1000) [.tick (2 ^ 32 - 5)] (fun w _ =>
      decide (w.time = 2 ^ 32 - 5) && w.stepAny (.timerEvery 3 (.app 1) 10 2) fun w₁ es =>
        decide (es = [.armed 2]) && execAny (fun _ a => 2 ∉ a.starts) w₁
          [.tick 11, .upcall fun _ => 0, .yield, .upcall fun _ => 0, .yield, .upcall fun _ => 0,
            .yield] fun _ tr =>
            decide ((periodicOf 2 tr).map PeriodicCall.expiration = [-2, 1, 4])) = true := by
    decide +kernel
  obtain ⟨w, tr₀, hrun, htest⟩ := run_of_execAny h
  simp only [Bool.and_eq_true, decide_eq_true_eq] at htest
  obtain ⟨htime, hstep⟩ := htest
  obtain ⟨w₁, es, hstep, htest⟩ := step_of_stepAny hstep
  simp only [Bool.and_eq_true, decide_eq_true_eq] at htest
  obtain ⟨rfl, hexec⟩ := htest
  obtain ⟨w₂, tr, hrun', htest⟩ := run_of_execAny hexec
  exact ⟨w, w₁, w₂, tr, htime, hstep, hrun', of_decide_eq_true htest,
    repeating_timer_keeps_period (boot_initial 1000) hrun.of_guarded hstep hrun'⟩

end World

end Alarm
