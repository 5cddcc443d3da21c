import Libtock.Alarm.Delay
import Libtock.Alarm.Ticks

/-!
# Delays are long enough

A call of `delay_ms` waits until the callback of its own timer has run, and no other callback
writes to its `bool`. This is so because every linked alarm that sets a `bool` belongs to a call
that waits, and a call begins only where no waiting task sets its `bool`.
-/

namespace Alarm

open Core Tock Schedule

namespace World

variable {v v' : World Schedule} {a : Action} {es : List Event}

/-! ### The invariant -/

/-- How far a delay is. -/
inductive Phase (tr : List DelayEvent) (d : Delay) (v : World Schedule) : Prop
  | waiting (linked : d.timer ∈ v.st.linked) (cond : v.st.flags d.cond = false)
      (task : (flagged v.st.tasks).count d.cond = 0)
  | queued (linked : d.timer ∉ v.st.linked) (cond : v.st.flags d.cond = false)
      (task : (flagged v.st.tasks).count d.cond = 1) (due : d.start + d.interval.toNat ≤ v.time)
  | done (linked : d.timer ∉ v.st.linked) (cond : v.st.flags d.cond = true)
      (task : (flagged v.st.tasks).count d.cond = 0) (due : d.start + d.interval.toNat ≤ v.time)
  /-- The queue was full when the timer expired. -/
  | lost {tick : ℕ} (linked : d.timer ∉ v.st.linked) (cond : v.st.flags d.cond = false)
      (task : (flagged v.st.tasks).count d.cond = 0) (start : d.start ≤ tick)
      (popped : .library (.popped ⟨d.timer, tick, some false⟩) ∈ tr)

/-- What is known of a call that waits. -/
structure Waits (tr : List DelayEvent) (v : World Schedule) (d : Delay) : Prop where
  start : d.start ≤ v.time
  ref : v.ref d.timer = d.start
  data : v.st.data d.timer =
    ⟨alarmInternalRead d.start, d.interval, some (.user .yieldForTimeoutUpcall), d.cond⟩
  rearming : d.timer ∉ rearming v.st.tasks
  phase : Phase tr d v

/-- Only the calls that wait have timers with the callback that sets a `bool`. -/
structure Traced (stack : List Delay) (v : World Schedule) : Prop where
  alarm : ∀ p ∈ v.st.linked, (v.st.data p).callback = some (.user .yieldForTimeoutUpcall) →
    ∃ d ∈ stack, d.timer = p
  linked : ∀ p ∈ v.st.linked, (v.st.data p).callback = some .repeatingUpcall →
    (v.st.timers p).cb ≠ .yieldForTimeoutUpcall
  rearming : ∀ p ∈ rearming v.st.tasks, (v.st.timers p).cb ≠ .yieldForTimeoutUpcall

/-- The step of the application that leaves the local variables of delays alone. -/
structure Foreign (stack : List Delay) (a : Action) : Prop where
  callback : a.callback ≠ some .yieldForTimeoutUpcall
  starts : ∀ d ∈ stack, a.starts ≠ some d.timer
  cancels : ∀ d ∈ stack, a.cancels ≠ some d.timer
  writes : ∀ d ∈ stack, a.writes ≠ some d.cond

variable {tr : List DelayEvent} {stack : List Delay} {d : Delay}

lemma Traced.link (h : Traced stack v) {x : Ptr} {e : AlarmData} {timers : Ptr → TockTimer}
    (htimers : ∀ p ≠ x, timers p = v.st.timers p)
    (hcb : e.callback ≠ some (.user .yieldForTimeoutUpcall))
    (hx : (timers x).cb ≠ .yieldForTimeoutUpcall ∨
      e.callback ≠ some .repeatingUpcall ∧ timers x = v.st.timers x)
    (flags : Ptr → Bool) (ref : Ptr → ℕ) (use : Ptr → Use) :
    Traced stack { v with st := { v.st with timers, flags }.link x e, ref, use } where
  alarm := by
    intro p hp hset
    by_cases hpx : p = x
    · subst hpx
      exact absurd (by simpa using hset) hcb
    · simp only [data_link, Function.update_of_ne hpx] at hset
      exact h.alarm p (((mem_link _ _ _).mp hp).resolve_left hpx) hset
  linked := by
    intro p hp hrep
    by_cases hpx : p = x
    · subst hpx
      rcases hx with hx | ⟨hne, -⟩
      · exact hx
      · exact absurd (by simpa using hrep) hne
    · simp only [data_link, Function.update_of_ne hpx] at hrep
      have := h.linked p (((mem_link _ _ _).mp hp).resolve_left hpx) hrep
      rwa [← htimers p hpx] at this
  rearming := by
    intro p hp
    have hold := h.rearming p hp
    by_cases hpx : p = x
    · subst hpx
      rcases hx with hx | ⟨-, heq⟩
      · exact hx
      · rwa [← heq] at hold
    · rwa [← htimers p hpx] at hold

lemma Traced.effect (hv : Sound v) (h : Traced stack v) (ha : Foreign stack a)
    (heff : Effect v a v' es) : Traced stack v' := by
  have hne : ∀ cb, a.callback = cb →
      cb.map Upcall.user ≠ some (.user .yieldForTimeoutUpcall) := by
    rintro _ rfl hcb
    obtain ⟨_, hcb', hu⟩ := Option.map_eq_some_iff.mp hcb
    cases hu
    exact ha.callback hcb'
  cases heff with
  | quiet flags hact ht => exact ⟨h.alarm, h.linked, h.rearming⟩
  | refused hfull => exact h
  | @oneShot _ ref dt cb ud x hact hx =>
    have hcb : a.callback = cb := by rcases hact with rfl | ⟨⟨_, rfl, _⟩, _⟩ <;> rfl
    refine h.link (fun _ _ => rfl) (hne cb hcb) (.inr ⟨?_, rfl⟩) v.st.flags _ _
    intro hrep
    obtain ⟨_, _, hu⟩ := Option.map_eq_some_iff.mp hrep
    cases hu
  | @periodic ms cb ud x hx =>
    have hcb : cb ≠ .yieldForTimeoutUpcall := fun hcb => ha.callback (congrArg some hcb)
    exact h.link (fun p hp => Function.update_of_ne hp _ _) (by simp) (.inl (by simpa using hcb))
      v.st.flags _ _
  | cancel hact hi =>
    exact ⟨fun p hp => h.alarm p (List.mem_of_mem_erase hp),
      fun p hp => h.linked p (List.mem_of_mem_erase hp), h.rearming⟩
  | @upcall adv time alarmSet expd queued hes hqueued ht hle hset =>
    have hself := hv.self_of_expired hes
    have hmem : ∀ e ∈ expd, e.1 ∈ v.st.linked := fun e he =>
      mem_linked_of_mem_expired (hes ▸ he)
    refine ⟨fun p hp => h.alarm p (List.mem_of_mem_drop hp),
      fun p hp => h.linked p (List.mem_of_mem_drop hp), fun p hp => ?_⟩
    rw [rearming_append, List.mem_append] at hp
    rcases hp with hp | hp
    · exact h.rearming p hp
    · obtain ⟨t, ht', hcb⟩ := mem_rearming_queued hself (hqueued ▸ hp)
      exact h.linked p (hmem _ ht') hcb
  | enqueue hroom => exact ⟨h.alarm, h.linked, by simpa using h.rearming⟩
  | @user task tasks _ _ _ flags htasks horigin hcb =>
    refine ⟨h.alarm, h.linked, fun p hp => h.rearming p ?_⟩
    rwa [htasks, rearming_cons_user hcb]
  | @repeating task tasks _ r curExp flags htasks horigin hcb hx hr hexp =>
    have hre := h.rearming
    rw [htasks, rearming_cons_repeating hcb] at hre
    have htail : Traced stack { v with st := { v.st with tasks } } :=
      ⟨h.alarm, h.linked, fun p hp => hre p (List.mem_cons_of_mem _ hp)⟩
    have hlink := htail.link (e := ⟨curExp, r.interval, some .repeatingUpcall, task.ud⟩)
      (fun p _ => (rfl : v.st.timers p = v.st.timers p)) (by simp)
      (.inl (hre task.ud List.mem_cons_self)) flags v.ref v.use
    exact ⟨hlink.alarm, hlink.linked, hlink.rearming⟩

/-- A `bool` changes only when it is written, or when its callback runs. -/
lemma flagsAfter_of_ne {c : Ptr} (hwrites : a.writes ≠ some c)
    (hrearming : ∀ p ∈ World.rearming v.st.tasks, (v.st.timers p).cb ≠ .yieldForTimeoutUpcall)
    (hhead : ∀ task ∈ v.st.tasks.head?, a = .yield → task.cb = .user .yieldForTimeoutUpcall →
      task.ud ≠ c) : flagsAfter v a c = v.st.flags c := by
  cases a with
  | setFlag p b =>
    have hne : c ≠ p := fun h => hwrites (congrArg some h.symm)
    exact Function.update_of_ne hne _ _
  | yield =>
    cases htasks : v.st.tasks with
    | nil => simp [flagsAfter, htasks]
    | cons task tasks =>
      have hud := hhead task (by simp [htasks]) rfl
      cases hcb : task.cb with
      | user cb =>
        simp only [flagsAfter, htasks, hcb]
        cases cb with
        | yieldForTimeoutUpcall => exact Function.update_of_ne (hud hcb).symm _ _
        | app f => rfl
      | repeatingUpcall =>
        have hper := hrearming task.ud (by simp [htasks, rearming_cons_repeating hcb])
        simp only [flagsAfter, htasks, hcb]
        cases hper' : (v.st.timers task.ud).cb with
        | yieldForTimeoutUpcall => exact absurd hper' hper
        | app f => rfl
  | _ => rfl

/-- Nothing has happened to a call that waits. -/
lemma Waits.frame {es : List DelayEvent} (h : Waits tr v d) (htime : v.time ≤ v'.time)
    (href : v'.ref d.timer = v.ref d.timer) (hdata : v'.st.data d.timer = v.st.data d.timer)
    (hlinked : d.timer ∈ v'.st.linked ↔ d.timer ∈ v.st.linked)
    (hflags : v'.st.flags d.cond = v.st.flags d.cond)
    (hcount : (flagged v'.st.tasks).count d.cond = (flagged v.st.tasks).count d.cond)
    (hre : d.timer ∉ World.rearming v'.st.tasks) : Waits (tr ++ es) v' d where
  start := h.start.trans htime
  ref := href.trans h.ref
  data := hdata.trans h.data
  rearming := hre
  phase := by
    cases h.phase with
    | waiting hl hc ht =>
      exact .waiting (hlinked.mpr hl) (hflags.trans hc) (hcount.trans ht)
    | queued hl hc ht hdue =>
      exact .queued (mt hlinked.mp hl) (hflags.trans hc) (hcount.trans ht) (hdue.trans htime)
    | done hl hc ht hdue =>
      exact .done (mt hlinked.mp hl) (hflags.trans hc) (hcount.trans ht) (hdue.trans htime)
    | lost hl hc ht hstart hp =>
      exact .lost (mt hlinked.mp hl) (hflags.trans hc) (hcount.trans ht) hstart
        (List.mem_append_left _ hp)

/-- The calls that wait, and that their local variables are their own. -/
structure Held (tr : List DelayEvent) (stack : List Delay) (v : World Schedule) : Prop where
  apart : stack.Pairwise Delay.Apart
  traced : Traced stack v
  interval : ∀ d ∈ stack, d.interval = ticks d.ms v.st.frequency
  waits : ∀ d ∈ stack, Waits tr v d

lemma Held.eq_of_cond (h : Held tr stack v) {d d' : Delay} (hd : d ∈ stack) (hd' : d' ∈ stack)
    (hcond : d.cond = d'.cond) : d = d' := by
  by_contra hne
  exact (h.apart.forall hd hd' hne).1 hcond

/-- The tasks that `callback` makes for a call are those of its timer. -/
lemma Held.count_queued (h : Held tr stack v) (hd : d ∈ stack) {expd : List (Ptr × ℕ)}
    (hexpd : ∀ e ∈ expd, e.1 ∈ v.st.linked) (room : ℕ) :
    (flagged (((expd.filterMap (taskOf v.st.data)).take room).map Prod.fst)).count d.cond =
      (((expd.filterMap (taskOf v.st.data)).take room).map Prod.snd).count (some d.timer) := by
  apply count_flagged_queued
  intro q hq
  obtain ⟨x, t, cb, hx, hcb, rfl⟩ := taskOf_spec (List.mem_of_mem_take hq)
  refine ⟨x, t, cb, hcb, rfl, ?_, ?_⟩
  · rintro ⟨hset, hud⟩
    obtain ⟨d', hd', rfl⟩ := h.traced.alarm x (hexpd _ hx) hset
    rw [(h.waits d' hd').data] at hud
    rw [h.eq_of_cond hd' hd hud]
  · rintro rfl
    rw [(h.waits d hd).data]
    exact ⟨rfl, rfl⟩

lemma Held.upcall (hv : Sound v) (h : Held tr stack v) (hd : d ∈ stack) {adv : ℕ → ℕ}
    {expd : List (Ptr × ℕ)} {queued : List (TockTask Upcall × Option Ptr)}
    (hes : expd = expired v.st.data v.st.linked v.time adv)
    (hqueued : queued = (expd.filterMap (taskOf v.st.data)).take (15 - v.st.tasks.length))
    (htime : v.time ≤ v'.time) (hle : ∀ e ∈ expd, e.2 ≤ v'.time) (href : v'.ref = v.ref)
    (hdata : v'.st.data = v.st.data) (hlinked : v'.st.linked = v.st.linked.drop expd.length)
    (htasks : v'.st.tasks = v.st.tasks ++ queued.map Prod.fst)
    (hflags : v'.st.flags = v.st.flags) :
    Waits (tr ++ ((logOf v.st.data expd (15 - v.st.tasks.length)).map Event.popped).map
      DelayEvent.library) v' d := by
  have hw := h.waits d hd
  have hmem : ∀ e ∈ expd, e.1 ∈ v.st.linked := fun e he => mem_linked_of_mem_expired (hes ▸ he)
  have hself := hv.self_of_expired hes
  have hsplit := expired_append_drop v.st.data v.st.linked v.time adv
  rw [← hes, ← hlinked] at hsplit
  have hnodup := hv.nodup
  rw [← hsplit, List.nodup_append] at hnodup
  obtain ⟨hnodup₁, -, hdisj⟩ := hnodup
  have hcount : (flagged v'.st.tasks).count d.cond = (flagged v.st.tasks).count d.cond +
      (queued.map Prod.snd).count (some d.timer) := by
    rw [htasks, flagged_append, List.count_append, hqueued, h.count_queued hd hmem]
  have hre : d.timer ∉ World.rearming v'.st.tasks := by
    rw [htasks, rearming_append, List.mem_append, not_or]
    refine ⟨hw.rearming, fun hp => ?_⟩
    obtain ⟨t, ht, hcb⟩ := mem_rearming_queued hself (hqueued ▸ hp)
    rw [hw.data] at hcb
    cases hcb
  by_cases hexp : d.timer ∈ expd.map Prod.fst
  · -- the timer has expired: its task is queued, or the queue was full
    obtain ⟨⟨_, t⟩, hxt, rfl⟩ := List.mem_map.mp hexp
    have hgone : d.timer ∉ v'.st.linked := fun hl => hdisj _ hexp _ hl rfl
    obtain ⟨htle, hspec⟩ := expired_spec (hes ▸ hxt)
    have hdue : d.start + d.interval.toNat ≤ t := by
      have hstart : d.start ≤ t := hw.start.trans htle
      have hclock : (alarmInternalRead t - alarmInternalRead d.start).toNat ≤ t - d.start :=
        Clock.toNat_ofNat_sub_le hstart
      rw [hw.data] at hspec
      have hint : d.interval.toNat ≤ (alarmInternalRead t - alarmInternalRead d.start).toNat :=
        BitVec.le_def.mp (BitVec.not_lt.mp hspec)
      omega
    have hcb : (v.st.data d.timer).callback ≠ none := by simp [hw.data]
    cases hw.phase with
    | waiting hl hc ht =>
      refine ⟨hw.start.trans htime, href ▸ hw.ref, hdata ▸ hw.data, hre, ?_⟩
      rw [← hflags] at hc
      rcases Alarm.count_queued hnodup₁ hxt hcb (15 - v.st.tasks.length) with h1 | ⟨h0, hlog⟩
      · rw [← hqueued] at h1
        exact .queued hgone hc (by omega) (hdue.trans (hle _ hxt))
      · rw [← hqueued] at h0
        exact .lost hgone hc (by omega) (hw.start.trans htle)
          (List.mem_append_right _ (by simpa using hlog))
    | queued hl => exact absurd (hmem _ hxt) hl
    | done hl => exact absurd (hmem _ hxt) hl
    | lost hl => exact absurd (hmem _ hxt) hl
  · have hzero : (queued.map Prod.snd).count (some d.timer) = 0 := by
      rw [hqueued]
      exact List.count_eq_zero.mpr fun hp => hexp (mem_of_mem_queued hp)
    have hmem' : d.timer ∈ v'.st.linked ↔ d.timer ∈ v.st.linked := by
      rw [← hsplit, List.mem_append]
      exact ⟨Or.inr, fun hl => hl.resolve_left hexp⟩
    exact hw.frame htime (by rw [href]) (by rw [hdata]) hmem' (by rw [hflags])
      (by rw [hcount, hzero, Nat.add_zero]) hre

lemma Held.effect (hv : Sound v) (h : Held tr stack v) (ha : Foreign stack a)
    (heff : Effect v a v' es) (hflags : v'.st.flags = flagsAfter v a) :
    Held (tr ++ es.map DelayEvent.library) stack v' := by
  have hfreq : v'.st.frequency = v.st.frequency := heff.frequency
  have htraced : Traced stack v' := h.traced.effect hv ha heff
  refine ⟨h.apart, htraced, fun d hd => hfreq ▸ h.interval d hd, fun d hd => ?_⟩
  have hw := h.waits d hd
  have hquiet : (∀ task ∈ v.st.tasks.head?, a = .yield →
      task.cb = .user .yieldForTimeoutUpcall → task.ud ≠ d.cond) →
      v'.st.flags d.cond = v.st.flags d.cond := fun hhead => by
    rw [hflags]
    exact flagsAfter_of_ne (ha.writes d hd) h.traced.rearming hhead
  cases heff with
  | quiet flags hact ht =>
    refine hw.frame ht rfl rfl Iff.rfl (hquiet ?_) rfl hw.rearming
    rintro task htask rfl
    simp_all
  | refused hfull => exact hw.frame le_rfl rfl rfl Iff.rfl rfl rfl hw.rearming
  | @oneShot _ ref dt cb ud x hact hx =>
    have hstarts : a.starts = some x := by rcases hact with rfl | ⟨⟨_, rfl, _⟩, _⟩ <;> rfl
    have hne : d.timer ≠ x := fun h => ha.starts d hd (h ▸ hstarts)
    exact hw.frame le_rfl (Function.update_of_ne hne _ _) (Function.update_of_ne hne _ _)
      (by simp [hne]) rfl rfl hw.rearming
  | @periodic ms cb ud x hx =>
    have hne : d.timer ≠ x := fun h => ha.starts d hd (h ▸ rfl)
    exact hw.frame le_rfl (Function.update_of_ne hne _ _) (Function.update_of_ne hne _ _)
      (by simp [hne]) rfl rfl hw.rearming
  | @cancel _ x hact hi =>
    have hne : d.timer ≠ x := fun h => ha.cancels d hd (h ▸ hact)
    exact hw.frame le_rfl rfl rfl (List.mem_erase_of_ne hne) rfl rfl hw.rearming
  | @upcall adv time alarmSet expd queued hes hqueued ht hle hset =>
    exact h.upcall hv hd hes hqueued ht hle rfl rfl rfl rfl rfl
  | @enqueue cb _ _ _ ud hroom =>
    have hcb : cb ≠ .yieldForTimeoutUpcall := fun hcb => ha.callback (congrArg some hcb)
    refine hw.frame le_rfl rfl rfl Iff.rfl rfl ?_ (by simpa using hw.rearming)
    rw [flagged_append, flagged_cons_of_ne (by simpa using hcb)]
    simp [flagged]
  | @user task tasks _ _ cb flags htasks horigin hcb =>
    have hre : d.timer ∉ World.rearming tasks := by
      rw [← rearming_cons_user hcb, ← htasks]
      exact hw.rearming
    by_cases hset : cb = .yieldForTimeoutUpcall
    · subst hset
      by_cases hud : task.ud = d.cond
      · -- the callback of this call runs
        have hcount : (flagged tasks).count d.cond + 1 = (flagged v.st.tasks).count d.cond := by
          rw [htasks, flagged_cons_self hcb, hud, List.count_cons_self]
        have hcond : flags d.cond = true := by
          have hafter := congrFun hflags d.cond
          simpa [flagsAfter, htasks, hcb, Schedule.invoke, hud] using hafter
        refine ⟨hw.start, hw.ref, hw.data, hre, ?_⟩
        cases hw.phase with
        | queued hl _ ht hdue => exact .done hl hcond (by simp; omega) hdue
        | waiting _ _ ht => omega
        | done _ _ ht => omega
        | lost _ _ ht => omega
      · refine hw.frame le_rfl rfl rfl Iff.rfl (hquiet ?_) ?_ hre
        · intro task' htask' _ _
          obtain rfl : task = task' := by simpa [htasks] using htask'
          exact hud
        · rw [htasks, flagged_cons_self hcb, List.count_cons_of_ne hud]
    · have hne : task.cb ≠ .user .yieldForTimeoutUpcall := by simpa [hcb] using hset
      refine hw.frame le_rfl rfl rfl Iff.rfl (hquiet ?_) ?_ hre
      · intro task' htask' _ hcb'
        obtain rfl : task = task' := by simpa [htasks] using htask'
        exact absurd hcb' hne
      · rw [htasks, flagged_cons_of_ne hne]
  | @repeating task tasks _ r curExp flags htasks horigin hcb hx hr hexp =>
    have hnotin := hw.rearming
    rw [htasks, rearming_cons_repeating hcb, List.mem_cons, not_or] at hnotin
    refine hw.frame le_rfl (Function.update_of_ne hnotin.1 _ _)
      (Function.update_of_ne hnotin.1 _ _) (by simp [hnotin.1]) (hquiet ?_) ?_ hnotin.2
    · intro task' htask' _ hcb'
      obtain rfl : task = task' := by simpa [htasks] using htask'
      rw [hcb] at hcb'
      cases hcb'
    · rw [htasks, flagged_cons_of_ne (by simp [hcb])]
      rfl

/-- A call starts its timer. -/
lemma Held.push {es : List DelayEvent} (h : Held tr stack v) {ms : U32} {awaited : Option Ptr}
    {cond timer : Ptr} (htask : cond ∉ flagged v.st.tasks)
    (hre : timer ∉ World.rearming v.st.tasks)
    (hnew : ∀ d ∈ stack, cond ≠ d.cond ∧ timer ≠ d.timer) (hcond : v.st.flags cond = false)
    (use : Ptr → Use) :
    Held (tr ++ es) (⟨ms, awaited, cond, timer, v.time, ticks ms v.st.frequency⟩ :: stack)
      { v with
        st := v.st.link timer ⟨alarmInternalRead v.time, ticks ms v.st.frequency,
          some (.user .yieldForTimeoutUpcall), cond⟩
        ref := Function.update v.ref timer v.time
        use } where
  apart := List.pairwise_cons.mpr ⟨hnew, h.apart⟩
  traced := by
    refine ⟨?_, ?_, h.traced.rearming⟩
    · intro p hp hset
      by_cases hpt : p = timer
      · exact ⟨_, List.mem_cons_self, hpt.symm⟩
      · simp only [data_link, Function.update_of_ne hpt] at hset
        obtain ⟨d, hd, hdp⟩ :=
          h.traced.alarm p (((mem_link _ _ _).mp hp).resolve_left hpt) hset
        exact ⟨d, List.mem_cons_of_mem _ hd, hdp⟩
    · intro p hp hrep
      by_cases hpt : p = timer
      · subst hpt
        simp at hrep
      · simp only [data_link, Function.update_of_ne hpt] at hrep
        exact h.traced.linked p (((mem_link _ _ _).mp hp).resolve_left hpt) hrep
  interval := List.forall_mem_cons.mpr ⟨rfl, h.interval⟩
  waits := by
    intro d hd
    rcases List.mem_cons.mp hd with rfl | hd
    · refine ⟨le_rfl, Function.update_self _ _ _, Function.update_self _ _ _, hre, ?_⟩
      exact .waiting (by simp) hcond (List.count_eq_zero.mpr htask)
    · have hne : d.timer ≠ timer := (hnew d hd).2.symm
      exact (h.waits d hd).frame le_rfl (Function.update_of_ne hne _ _)
        (Function.update_of_ne hne _ _) (by simp [hne]) rfl rfl (h.waits d hd).rearming

/-- The innermost call returns, and its timer is not linked any more. -/
lemma Held.leave (h : Held tr (d :: stack) v) {linked : List Ptr}
    (hl : ∀ p, p ∈ linked ↔ p ≠ d.timer ∧ p ∈ v.st.linked) (alarmSet : Option (U32 × U32))
    (use : Ptr → Use) (es : List DelayEvent) :
    Held (tr ++ es) stack { v with st := { v.st with linked, alarmSet }, use } where
  apart := (List.pairwise_cons.mp h.apart).2
  traced := by
    refine ⟨fun p hp hset => ?_, fun p hp => h.traced.linked p ((hl p).mp hp).2,
      h.traced.rearming⟩
    obtain ⟨hne, hp⟩ := (hl p).mp hp
    obtain ⟨d', hd', rfl⟩ := h.traced.alarm p hp hset
    rcases List.mem_cons.mp hd' with rfl | hd'
    · exact absurd rfl hne
    · exact ⟨d', hd', rfl⟩
  interval d' hd' := h.interval d' (List.mem_cons_of_mem _ hd')
  waits := by
    intro d' hd'
    have hw := h.waits d' (List.mem_cons_of_mem _ hd')
    have hne : d'.timer ≠ d.timer := ((List.pairwise_cons.mp h.apart).1 d' hd').2.symm
    exact hw.frame le_rfl rfl rfl ((hl _).trans (and_iff_right hne)) rfl rfl hw.rearming

/-- The loop of the innermost call finds its `bool` true. -/
lemma Held.done (h : Held tr (d :: stack) v) (hcond : v.st.flags d.cond = true) :
    d.timer ∉ v.st.linked ∧ d.start + d.interval.toNat ≤ v.time := by
  cases (h.waits d List.mem_cons_self).phase with
  | done hl _ _ hdue => exact ⟨hl, hdue⟩
  | waiting _ hc _ => exact absurd (hc.symm.trans hcond) Bool.false_ne_true
  | queued _ hc _ _ => exact absurd (hc.symm.trans hcond) Bool.false_ne_true
  | lost _ hc _ _ _ => exact absurd (hc.symm.trans hcond) Bool.false_ne_true

end World

namespace DelayWorld

open World

variable {s s' : DelayWorld} {tr es : List DelayEvent} {a : DelayAction} {d : Delay}

/-- A call that returns at tick `t` has waited for its interval; for the time it was given too, as
far as `timer_in` can express it. -/
structure LongEnough (frequency : U32) (d : Delay) (t : ℕ) : Prop where
  interval : d.start + (ticks d.ms frequency).toNat ≤ t
  ms : d.ms.toNat * frequency.toNat < 1000 * 2 ^ 32 →
    (d.ms.toNat % 1000) * (frequency.toNat % 1000) < 1000 →
      d.start + d.ms.toNat * frequency.toNat / 1000 ≤ t

/-- A schedule that the memory stores, in which the calls that wait are held. -/
structure Sleeping (frequency : U32) (tr : List DelayEvent) (s : DelayWorld) : Prop where
  held : ∃ v, Stores s.world v ∧ Sound v ∧ v.st.frequency = frequency ∧ Held tr s.stack v
  returned : ∀ d t, .returned d t ∈ tr → LongEnough frequency d t

lemma toOption_eq_some {α : Type} {x : Result α} {r : α} (h : x.toOption = some r) : x = .ok r := by
  cases x with
  | error e => cases h
  | ok y => exact congrArg Except.ok (Option.some.inj h)

lemma longEnough {frequency : U32} {t : ℕ} (h : d.start + (ticks d.ms frequency).toNat ≤ t) :
    LongEnough frequency d t where
  interval := h
  ms := by
    intro hfits hlost
    rw [toNat_ticks_of_fits ((fits_iff _ _).mpr hfits)] at h
    exact (Nat.add_le_add_left (div_le_scale hlost) _).trans h

/-- Both functions up to their loop. -/
lemma Sleeping.startTimer {frequency ms : U32} {awaited : Option Ptr} {cond timer : Ptr}
    {fuel : ℕ} (h : Sleeping frequency tr s) (hfresh : s.Fresh cond timer)
    (hstart : s.startTimer fuel ms awaited cond timer = some (s', es)) :
    Sleeping frequency (tr ++ es) s' := by
  obtain ⟨⟨v, hst, hv, hfreq, hheld⟩, hreturned⟩ := h
  rw [DelayWorld.startTimer, Option.bind_eq_bind] at hstart
  obtain ⟨⟨w₁, es₁⟩, hw₁, hstart⟩ := Option.bind_eq_some_iff.mp hstart
  obtain ⟨⟨w₂, es₂⟩, hw₂, heq⟩ := Option.bind_eq_some_iff.mp hstart
  cases heq
  obtain ⟨htask, hre, hnew⟩ := hfresh
  obtain ⟨v₁, hplan₁, hst₁⟩ := Step.plan hst ⟨fuel, toOption_eq_some hw₁⟩
  obtain ⟨v₂, hplan₂, hst₂⟩ := Step.plan hst₁ ⟨fuel, toOption_eq_some hw₂⟩
  have hforeign : Foreign s.stack (.setFlag cond false) :=
    ⟨Option.some_ne_none _ |>.symm, fun d _ => Option.some_ne_none _ |>.symm,
      fun d _ => Option.some_ne_none _ |>.symm,
      fun d hd h => (hnew d hd).1 (Option.some.inj h)⟩
  have hheld₁ := hheld.effect hv hforeign (hplan₁.effect hv) (hplan₁.flags hv)
  have hv₁ := (hplan₁.effect hv).sound hv
  have hv₂ := (hplan₂.effect hv₁).sound hv₁
  cases hplan₁
  obtain ⟨st, hlink, heq⟩ := map_eq_ok.mp hplan₂
  cases heq
  obtain ⟨hx, rfl⟩ := alarmAt_eq_ok.mp hlink
  rw [hst.st.waiting] at htask hre
  refine ⟨⟨_, hst₂, hv₂, hfreq, ?_⟩, fun d t hd => hreturned d t (by simpa using hd)⟩
  rw [hst.time, hst.st.frequency, List.map_append, ← List.append_assoc]
  exact hheld₁.push htask hre hnew (Function.update_self _ _ _) _

lemma Sleeping.step {frequency : U32} (h : Sleeping frequency tr s) (hown : Private s a)
    (hstep : Step s a s' es) : Sleeping frequency (tr ++ es) s' := by
  obtain ⟨fuel, hstep⟩ := hstep
  cases a with
  | delayMs ms cond timer => exact h.startTimer hown hstep
  | yieldForWithTimeout cond ms timeout timer => exact h.startTimer hown hstep
  | library a =>
    obtain ⟨⟨v, hst, hv, hfreq, hheld⟩, hreturned⟩ := h
    obtain ⟨⟨w, es'⟩, hw, heq⟩ := Option.bind_eq_some_iff.mp hstep
    cases heq
    obtain ⟨v', hplan, hst'⟩ := Step.plan hst ⟨fuel, toOption_eq_some hw⟩
    have heff := hplan.effect hv
    have hforeign : Foreign s.stack a :=
      ⟨hown.1, fun d hd => (hown.2 d hd).1, fun d hd => (hown.2 d hd).2.1,
        fun d hd => (hown.2 d hd).2.2⟩
    refine ⟨⟨v', hst', heff.sound hv, heff.frequency.trans hfreq, ?_⟩, fun d t hd => ?_⟩
    · exact hheld.effect hv hforeign heff (hplan.flags hv)
    · exact hreturned d t (by simpa using hd)
  | test =>
    obtain ⟨⟨v, hst, hv, hfreq, hheld⟩, hreturned⟩ := h
    rw [exec] at hstep
    split at hstep
    · next d stack hstack =>
      rw [hstack] at hheld
      split_ifs at hstep with hmet hcond
      · -- the condition of the caller is true
        obtain ⟨⟨w, es'⟩, hw, heq⟩ := Option.bind_eq_some_iff.mp hstep
        cases heq
        obtain ⟨v', hplan, hst'⟩ := Step.plan hst ⟨fuel, toOption_eq_some hw⟩
        have heff := hplan.effect hv
        have hv' := heff.sound hv
        obtain ⟨rfl, -⟩ := heff.of_cancels rfl
        refine ⟨⟨_, hst', hv', hfreq, ?_⟩, fun d t hd => hreturned d t (by simpa using hd)⟩
        exact hheld.leave (fun p => hv.nodup.mem_erase_iff) _ _ _
      · cases hstep
        rw [hst.st.flags] at hcond
        obtain ⟨hnot, hdue⟩ := hheld.done hcond
        have hlinked : ∀ p, p ∈ v.st.linked ↔ p ≠ d.timer ∧ p ∈ v.st.linked := fun p =>
          ⟨fun hp => ⟨fun heq => hnot (heq ▸ hp), hp⟩, And.right⟩
        refine ⟨⟨v, hst, hv, hfreq, hheld.leave hlinked _ _ _⟩, fun d' t hd' => ?_⟩
        rcases List.mem_append.mp hd' with hd' | hd'
        · exact hreturned d' t hd'
        · obtain ⟨rfl, rfl⟩ := DelayEvent.returned.inj (List.mem_singleton.mp hd')
          rw [hheld.interval d' List.mem_cons_self, hfreq, ← hst.time] at hdue
          exact longEnough hdue
    · cases hstep

/-- In every run in which the local variables of the calls of `delay_ms` and
`yield_for_with_timeout` are their own, at any depth of calls inside calls: a call whose time is up
returns no earlier than the interval it was given, and one that waits has its timer running, or its
callback in the queue, or its `bool` true; only if the queue was full when its timer expired it
waits forever. -/
theorem delay_ms_long_enough {w₀ : World State} (h₀ : Initial w₀)
    (hrun : Run (Guarded Step Private) ⟨w₀, []⟩ tr s) :
    (∀ d t, .returned d t ∈ tr → LongEnough w₀.st.frequency d t) ∧
      ∀ d ∈ s.stack, s.world.st.flags d.cond = true ∨
        (∃ task ∈ s.world.st.queue.waiting,
          task.cb = .user .yieldForTimeoutUpcall ∧ task.ud = d.cond) ∨
        Linked s.world.st d.timer ∨
        ∃ tick, d.start ≤ tick ∧ .library (.popped ⟨d.timer, tick, some false⟩) ∈ tr := by
  have hinit : Sleeping w₀.st.frequency [] ⟨w₀, []⟩ := by
    refine ⟨⟨_, h₀.stores, h₀.sound, h₀.stores.st.frequency.symm, .nil, ⟨?_, ?_, ?_⟩, ?_, ?_⟩,
      fun d t hd => by cases hd⟩
    all_goals
      intro _ hp
      cases hp
  obtain ⟨⟨v, hst, -, -, hheld⟩, hreturned⟩ := hrun.trace_invariant (Sleeping w₀.st.frequency)
    (fun _ _ _ _ _ h hstep => h.step hstep.1 hstep.2) hinit
  refine ⟨hreturned, fun d hd => ?_⟩
  rw [hst.st.flags, hst.st.waiting, linked_iff hst]
  cases (hheld.waits d hd).phase with
  | waiting hl => exact .inr (.inr (.inl hl))
  | queued _ _ ht =>
    have hmem : d.cond ∈ flagged v.st.tasks := List.count_pos_iff.mp (by omega)
    obtain ⟨task, htask, hset⟩ := List.mem_filterMap.mp hmem
    split_ifs at hset with hcb
    exact .inr (.inl ⟨task, htask, hcb, Option.some.inj hset⟩)
  | done _ hc => exact .inl hc
  | lost _ hc _ hstart hp => exact .inr (.inr (.inr ⟨_, hstart, hp⟩))

/-- A wait of at most two milliseconds in the callback of a timer that runs during a delay of
five. -/
theorem delay_ms_long_enough_nested : ∃ tr s,
    Run (Guarded Step Private) ⟨boot 1000, []⟩ tr s ∧
      .returned ⟨2, some 50, 102, 103, 1, 2⟩ 3 ∈ tr ∧ .returned ⟨5, none, 100, 101, 0, 5⟩ 6 ∈ tr ∧
      ∀ d t, .returned d t ∈ tr → LongEnough 1000 d t := by
  have hplay : (play (restrict (exec 32) Private) ⟨boot 1000, []⟩
      [.library (.timerIn 1 (some (.app 3)) 11 4), .delayMs 5 100 101, .library (.tick 1),
        .library (.upcall fun _ => 0), .library .yield, .yieldForWithTimeout 50 2 102 103,
        .library (.tick 2), .library (.upcall fun _ => 0), .library .yield, .test,
        .library (.tick 3), .library (.upcall fun _ => 0), .library .yield, .test]).any (fun r =>
        decide (.returned ⟨2, some 50, 102, 103, 1, 2⟩ 3 ∈ r.2) &&
          decide (.returned ⟨5, none, 100, 101, 0, 5⟩ 6 ∈ r.2)) = true := by
    decide +kernel
  obtain ⟨tr, s, hrun, htest⟩ : ∃ tr s, Run (Guarded Step Private) ⟨boot 1000, []⟩ tr s ∧
      (decide (.returned ⟨2, some 50, 102, 103, 1, 2⟩ 3 ∈ tr) &&
        decide (.returned ⟨5, none, 100, 101, 0, 5⟩ 6 ∈ tr)) = true :=
    Run.of_play_restrict_any (fun _ _ _ _ h => ⟨32, h⟩) _ hplay
  simp only [Bool.and_eq_true, decide_eq_true_eq] at htest
  exact ⟨tr, s, hrun, htest.1, htest.2, (delay_ms_long_enough (boot_initial 1000) hrun).1⟩

/-- A call of `yield_for_with_timeout` that succeeds at once, and a delay in the same memory. -/
example : ((play (restrict (exec 32) Private) ⟨boot 1000, []⟩
    [.library (.setFlag 50 true), .yieldForWithTimeout 50 2 102 103, .test, .delayMs 5 102 103,
      .library (.tick 5), .library (.upcall fun _ => 0), .library .yield, .test]).any fun r =>
    decide (.met ⟨2, some 50, 102, 103, 0, 2⟩ ∈ r.2) &&
      decide (.returned ⟨5, none, 102, 103, 0, 5⟩ 5 ∈ r.2)) = true := by
  decide +kernel

end DelayWorld

end Alarm
