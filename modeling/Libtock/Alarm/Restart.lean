import Libtock.Alarm.Effect

/-!
# Restarting timers

An alarm lives in two places, the list and, after it has expired, the task queue. As long as no
timer is started while its `repeating_upcall` waits, each repeating timer is in one place at most,
so that `repeating_upcall` never arms an alarm that is linked.
-/

namespace Alarm

open Core Tock Schedule

/-- The alarm that its owner arms as a one-shot. -/
def Action.startsOneShot : Action → Option Ptr
  | .alarmAt _ _ _ _ x => some x
  | .timerIn _ _ _ x => some x
  | _ => none

namespace World

/-- The discipline of an application: it starts a timer only when the timer was never started, has
been cancelled since it was last started, or is a one-shot whose callback has run. -/
def MayStart (use : Ptr → Use) (a : Action) : Prop :=
  ∀ x ∈ a.starts, use x ∈ [Use.neverStarted, .cancelled, .revived, .done]

/-- No `repeating_upcall` of the timer that is started waits, or waited when the timer was
cancelled and has armed it again; and no callback waits of one that is started as a one-shot. -/
structure NothingPending (w : World State) (a : Action) : Prop where
  repeating : ∀ x ∈ a.starts, x ∉ rearming w.st.queue.waiting
  revived : ∀ x ∈ a.starts, w.use x ≠ .revived
  oneShot : ∀ x ∈ a.startsOneShot, some x ∉ w.origin

instance (use : Ptr → Use) (a : Action) : Decidable (MayStart use a) := by
  rw [MayStart]
  infer_instance

instance (w : World State) (a : Action) : Decidable (NothingPending w a) :=
  decidable_of_iff ((∀ x ∈ a.starts, x ∉ rearming w.st.queue.waiting) ∧
      (∀ x ∈ a.starts, w.use x ≠ .revived) ∧ ∀ x ∈ a.startsOneShot, some x ∉ w.origin)
    ⟨fun h => ⟨h.1, h.2.1, h.2.2⟩, fun h => ⟨h.repeating, h.revived, h.oneShot⟩⟩

lemma mayStart_yield (use : Ptr → Use) : MayStart use .yield := fun _ hx => by cases hx

lemma nothingPending_yield (w : World State) : NothingPending w .yield :=
  ⟨fun _ hx => (by cases hx), fun _ hx => (by cases hx), fun _ hx => (by cases hx)⟩

/-- No repeating timer is linked and waits at the same time, or waits twice; and what the owner
has last done with an alarm says where it can be. -/
structure OnePlace (v : World Schedule) : Prop where
  nodup : (v.st.linked ++ rearming v.st.tasks).Nodup
  linked : ∀ p ∈ v.st.linked, v.use p ∈ [Use.oneShot, .periodic, .revived]
  oneShot : ∀ p ∈ v.st.linked, v.use p = .oneShot → some p ∉ v.origin
  repeats : ∀ p ∈ v.st.linked, (v.st.data p).callback = some .repeatingUpcall →
    v.use p ∈ [Use.periodic, .revived]
  waiting : ∀ t ∈ rearming v.st.tasks, v.use t ∈ [Use.periodic, .cancelled, .revived]

variable {v v' : World Schedule} {a : Action} {es : List Event}

/-- Arming an alarm whose `repeating_upcall` does not wait. -/
lemma OnePlace.link (h : OnePlace v) {x : Ptr} {d : AlarmData} {u : Use} {use : Ptr → Use}
    (hx : x ∉ v.st.linked) (hx' : x ∉ rearming v.st.tasks)
    (hu : u ∈ [Use.oneShot, .periodic, .revived]) (ho : u = .oneShot → some x ∉ v.origin)
    (hd : d.callback = some .repeatingUpcall → u ∈ [Use.periodic, .revived])
    (huse : use x = u ∧ ∀ p ≠ x, use p = v.use p) (timers : Ptr → TockTimer) (flags : Ptr → Bool)
    (ref : Ptr → ℕ) :
    OnePlace { v with st := { v.st with timers, flags }.link x d, ref, use } := by
  refine ⟨?_, ?_, ?_, ?_, ?_⟩
  · rw [((perm_link _ _ _).append_right _).nodup_iff]
    refine List.nodup_cons.mpr ⟨?_, h.nodup⟩
    intro hc
    exact (List.mem_append.mp hc).elim hx hx'
  · intro p hp
    by_cases hpx : p = x
    · simpa only [hpx, huse.1] using hu
    · simpa only [huse.2 p hpx] using h.linked p (((mem_link _ _ _).mp hp).resolve_left hpx)
  · intro p hp hup
    by_cases hpx : p = x
    · subst hpx
      exact ho (huse.1 ▸ hup)
    · exact h.oneShot p (((mem_link _ _ _).mp hp).resolve_left hpx) (huse.2 p hpx ▸ hup)
  · intro p hp hcb
    by_cases hpx : p = x
    · subst hpx
      simp only [data_link, Function.update_self] at hcb
      simpa only [huse.1] using hd hcb
    · simp only [data_link, Function.update_of_ne hpx] at hcb
      simpa only [huse.2 p hpx] using
        h.repeats p (((mem_link _ _ _).mp hp).resolve_left hpx) hcb
  · intro t ht
    simpa only [huse.2 t (ne_of_mem_of_not_mem ht hx')] using h.waiting t ht

lemma OnePlace.cancel (hv : Sound v) (h : OnePlace v) (x : Ptr) :
    OnePlace { v with st := v.st.unlink x, use := Function.update v.use x .cancelled } := by
  have hne : ∀ p ∈ v.st.linked.erase x, p ≠ x := fun p hp => (hv.nodup.mem_erase_iff.mp hp).1
  refine ⟨h.nodup.sublist ((List.erase_sublist).append_right _), ?_, ?_, ?_, ?_⟩
  · intro p hp
    simpa only [Function.update_of_ne (hne p hp)] using h.linked p (List.mem_of_mem_erase hp)
  · intro p hp hup
    simp only [Function.update_of_ne (hne p hp)] at hup
    exact h.oneShot p (List.mem_of_mem_erase hp) hup
  · intro p hp hcb
    simpa only [Function.update_of_ne (hne p hp)] using h.repeats p (List.mem_of_mem_erase hp) hcb
  · intro t ht
    by_cases htx : t = x
    · simp [htx]
    · simpa only [Function.update_of_ne htx] using h.waiting t ht

/-- Expired alarms move from the list to the queue. -/
lemma OnePlace.upcall (hv : Sound v) (h : OnePlace v) {adv : ℕ → ℕ} {time : ℕ}
    {alarmSet : Option (U32 × U32)} {expd : List (Ptr × ℕ)}
    {queued : List (TockTask Upcall × Option Ptr)}
    (hes : expd = expired v.st.data v.st.linked v.time adv)
    (hqueued : queued = (expd.filterMap (taskOf v.st.data)).take (15 - v.st.tasks.length)) :
    OnePlace { v with
      st := { v.st with
        linked := v.st.linked.drop expd.length
        tasks := v.st.tasks ++ queued.map Prod.fst
        alarmSet }
      time
      origin := v.origin ++ queued.map Prod.snd } := by
  have hself := hv.self_of_expired hes
  have hsplit := expired_append_drop v.st.data v.st.linked v.time adv
  rw [← hes] at hsplit
  refine ⟨?_, fun p hp => h.linked p (List.mem_of_mem_drop hp), ?_,
    fun p hp => h.repeats p (List.mem_of_mem_drop hp), ?_⟩
  · have hnd := h.nodup
    rw [← hsplit, List.append_assoc] at hnd
    have hsub : (rearming (queued.map Prod.fst)).Sublist (expd.map Prod.fst) :=
      hqueued ▸ rearming_queued_sublist hself
    have hnd' := hnd.sublist (hsub.append_right _)
    rw [rearming_append, ← List.append_assoc]
    exact (List.perm_append_comm.nodup_iff).mp hnd'
  · intro p hp hup hpo
    rcases List.mem_append.mp hpo with hpo | hpo
    · exact h.oneShot p (List.mem_of_mem_drop hp) hup hpo
    · have hmem : p ∈ expd.map Prod.fst :=
        (origin_queued_sublist v.st.data expd _).subset
          (List.reduceOption_mem_iff.mpr (hqueued ▸ hpo))
      have hnd := hv.nodup
      rw [← hsplit, List.nodup_append] at hnd
      exact hnd.2.2 p hmem p hp rfl
  · intro t htask
    rw [rearming_append, List.mem_append] at htask
    rcases htask with htask | htask
    · exact h.waiting t htask
    · obtain ⟨n, hmem, hcb⟩ := mem_rearming_queued hself (by rw [hqueued] at htask; exact htask)
      rw [hes] at hmem
      have := h.repeats t (mem_linked_of_mem_expired hmem) hcb
      simp only [List.mem_cons, List.not_mem_nil, or_false] at this ⊢
      tauto

/-- A callback of the application starts. -/
lemma OnePlace.user (h : OnePlace v) {task : TockTask Upcall} {tasks : List (TockTask Upcall)}
    {o : Option Ptr} {origin : List (Option Ptr)} {cb : Callback} (flags : Ptr → Bool)
    (htasks : v.st.tasks = task :: tasks) (horigin : v.origin = o :: origin)
    (hcb : task.cb = .user cb) :
    OnePlace { v with
      st := { v.st with tasks, flags }
      origin
      use := useAfterStart v.use (.user cb) o } := by
  have hnd := h.nodup
  have hwait := h.waiting
  rw [htasks, rearming_cons_user hcb] at hwait hnd
  have huse : ∀ p, v.use p ≠ .oneShot → useAfterStart v.use (.user cb) o p = v.use p := by
    intro p hp
    unfold useAfterStart
    split_ifs
    · cases hup : v.use p <;> first | rfl | exact absurd hup hp
    · rfl
  -- a one-shot of which a task waits is not linked
  have hlinked : ∀ p ∈ v.st.linked, useAfterStart v.use (.user cb) o p = v.use p := by
    intro p hp
    by_cases hup : v.use p = .oneShot
    · have hpo := h.oneShot p hp hup
      rw [horigin] at hpo
      exact if_neg fun ho => hpo (by simp [ho])
    · exact huse p hup
  refine ⟨hnd, ?_, ?_, ?_, ?_⟩
  · intro p hp
    simpa only [hlinked p hp] using h.linked p hp
  · intro p hp hup hpo
    apply h.oneShot p hp (hlinked p hp ▸ hup)
    rw [horigin]
    exact List.mem_cons_of_mem _ hpo
  · intro p hp hcb
    simpa only [hlinked p hp] using h.repeats p hp hcb
  · intro t ht
    have hut := hwait t ht
    simpa only [huse t fun hc => by simp [hc] at hut] using hut

lemma OnePlace.effect (hv : Sound v) (h : OnePlace v)
    (hre : ∀ x ∈ a.starts, x ∉ rearming v.st.tasks)
    (hone : ∀ x ∈ a.startsOneShot, some x ∉ v.origin) (heff : Effect v a v' es) :
    OnePlace v' := by
  cases heff with
  | quiet flags hact ht => exact ⟨h.nodup, h.linked, h.oneShot, h.repeats, h.waiting⟩
  | refused hfull => exact h
  | @oneShot _ ref dt cb ud x hact hx =>
    have hx' : x ∈ a.starts ∧ x ∈ a.startsOneShot := by
      rcases hact with rfl | ⟨⟨_, rfl, _⟩, _⟩ <;> exact ⟨rfl, rfl⟩
    refine h.link (u := .oneShot) hx (hre x hx'.1) (by decide) (fun _ => hone x hx'.2)
      (?_) ⟨Function.update_self _ _ _, fun p hp => Function.update_of_ne hp _ _⟩
      v.st.timers v.st.flags _
    intro hcb
    obtain ⟨_, _, hc⟩ := Option.map_eq_some_iff.mp hcb
    cases hc
  | @periodic _ _ _ x hx =>
    exact h.link (u := .periodic) hx (hre x rfl) (by decide) (fun hc => by cases hc)
      (fun _ => by decide)
      ⟨Function.update_self _ _ _, fun p hp => Function.update_of_ne hp _ _⟩ _ v.st.flags _
  | @cancel _ x hact hi => exact h.cancel hv x
  | upcall hes hqueued ht hle hset => exact h.upcall hv hes hqueued
  | enqueue hroom =>
    exact ⟨by simpa using h.nodup, h.linked, by simpa using h.oneShot, h.repeats,
      by simpa using h.waiting⟩
  | user flags htasks horigin hcb => exact h.user flags htasks horigin hcb
  | @repeating task tasks origin r curExp flags htasks horigin hcb hx hr hexp =>
    have hnd := h.nodup
    have hwait := h.waiting
    rw [htasks, rearming_cons_repeating hcb] at hwait hnd
    have hperm := List.nodup_cons.mp (List.perm_middle.nodup_iff.mp hnd)
    have hxr : task.ud ∉ rearming tasks := fun hc => hperm.1 (List.mem_append_right _ hc)
    have h' : OnePlace { v with st := { v.st with tasks }, origin } :=
      ⟨hperm.2, h.linked, fun p hp hup hpo =>
        h.oneShot p hp hup (horigin ▸ List.mem_cons_of_mem _ hpo), h.repeats,
        fun t ht => hwait t (List.mem_cons_of_mem _ ht)⟩
    have hut := hwait task.ud List.mem_cons_self
    have hu : useAfterStart v.use .repeatingUpcall (some task.ud) task.ud
        ∈ [Use.periodic, .revived] := by
      simp only [useAfterStart, if_true]
      simp only [List.mem_cons, List.not_mem_nil, or_false] at hut ⊢
      rcases hut with hut | hut | hut <;> simp [hut]
    refine h'.link hx hxr ?_ (fun hc => by simp [hc] at hu) (fun _ => hu)
      ⟨rfl, fun p hp => if_neg ?_⟩ v.st.timers flags _
    · simp only [List.mem_cons, List.not_mem_nil, or_false] at hu ⊢
      tauto
    · simpa using Ne.symm hp

/-- What is passed to `alarm_at` is not linked. -/
lemma OnePlace.not_linked (h : OnePlace v) (ha : MayStart v.use a)
    (hrev : ∀ x ∈ a.starts, v.use x ≠ .revived) {x : Ptr} (hx : arms v.st.tasks a = some x) :
    x ∉ v.st.linked := by
  intro hl
  by_cases hy : a = .yield
  · subst hy
    -- the timer of the `repeating_upcall` that the yield starts waits, so it is not linked
    obtain ⟨k, hk, hkx⟩ := Option.bind_eq_some_iff.mp hx
    have hmem : x ∈ rearming v.st.tasks :=
      List.mem_filterMap.mpr ⟨k, List.mem_of_mem_head? hk, hkx⟩
    exact (List.nodup_append.mp h.nodup).2.2 x hl x hmem rfl
  · have hs : x ∈ a.starts := by
      cases a with
      | yield => exact absurd rfl hy
      | _ => exact hx
    have hstart := ha x hs
    have huse := h.linked x hl
    simp only [List.mem_cons, List.not_mem_nil, or_false] at hstart huse
    rcases huse with hu | hu | hu
    · simp [hu] at hstart
    · simp [hu] at hstart
    · exact hrev x hs hu

/-- If timers are started by the discipline, and none while something of it is pending, then no
linked alarm is ever armed, the list ends, and every call returns. -/
theorem restart_is_safe {w₀ w : World State} {tr : List Event} (h₀ : Initial w₀)
    (hrun : Run (Guarded Step fun w a => MayStart w.use a ∧ NothingPending w a) w₀ tr w) :
    (∃ l, IsChain w.st.next w.st.root l) ∧
    ∀ a, MayStart w.use a → NothingPending w a →
      (∀ x, arms w.st.queue.waiting a = some x → ¬ Linked w.st x) ∧
      ((∀ x, a.cancels = some x → w.st.initialised x = true) → ∃ w' es, Step w a w' es) := by
  obtain ⟨v, hst, hv, hone⟩ := h₀.run (Q := fun v a => (∀ x ∈ a.starts, x ∉ rearming v.st.tasks) ∧
      ∀ x ∈ a.startsOneShot, some x ∉ v.origin)
    (fun _ v => OnePlace v) (fun _ v a v' es hv h hP heff => h.effect hv hP.1 hP.2 heff)
    (fun w v a hst hP => by
      rw [← hst.st.waiting, ← hst.origin]
      exact ⟨hP.2.repeating, hP.2.oneShot⟩)
    ⟨List.nodup_nil, fun p hp => (by cases hp), fun p hp => (by cases hp),
      fun p hp => (by cases hp),
      fun t ht => (by cases ht)⟩ hrun
  refine ⟨⟨_, hst.st.list.chain⟩, ?_⟩
  intro a ha hP
  have hrev := hP.revived
  rw [hst.use] at ha hrev
  rw [hst.st.waiting]
  have hnot : ∀ x, arms v.st.tasks a = some x → x ∉ v.st.linked := fun x hx =>
    hone.not_linked ha hrev hx
  refine ⟨fun x hx => by rw [linked_iff hst]; exact hnot x hx, ?_⟩
  intro hc
  obtain ⟨v', es, hplan⟩ := exists_plan hnot fun x hx => by
    rw [← hst.st.initialised]
    exact hc x hx
  obtain ⟨w', hstep, -⟩ := hplan.step hst
  exact ⟨w', es, hstep⟩

/-- A repeating timer that is cancelled while it is linked and then started again. -/
theorem restart_is_safe_linked :
    ∃ (w : World State) (tr : List Event), Run Step (boot 1000) tr w ∧
      ∃ w' es, Step w .yield w' es := by
  have hrun : Run (Guarded Step fun w a => MayStart w.use a ∧ NothingPending w a)
      (boot 1000) _ _ :=
    run_of_exec [.timerEvery 1 (.app 1) 5 2, .tick 1, .upcall fun _ => 0, .yield,
      .timerCancel 2, .timerEvery 3 (.app 1) 5 2, .tick 4, .upcall fun _ => 0] rfl
  exact ⟨_, _, hrun.of_guarded, ((restart_is_safe (boot_initial 1000) hrun).2 .yield
    (mayStart_yield _) (nothingPending_yield _)).2 fun x hx => by cases hx⟩

/-- A step that would arm a linked alarm does not return. -/
lemma not_step_of_arms_linked {w₀ w w' : World State} {tr : List Event} {x : Ptr}
    (h₀ : Initial w₀) (hrun : Run Step w₀ tr w) (hx : arms w.st.queue.waiting a = some x)
    (hl : Linked w.st x) : ¬ Step w a w' es := by
  obtain ⟨v, hst, hv⟩ := h₀.reach hrun
  intro hstep
  obtain ⟨v', hplan, -⟩ := hstep.plan hst
  rw [hst.st.waiting] at hx
  exact (hplan.effect hv).not_mem_of_arms hx ((linked_iff hst).mp hl)

/-- A repeating timer expires, its `repeating_upcall` waits, and the timer is cancelled and started
again as the discipline allows: the next yield arms the linked alarm and does not return. -/
theorem restart_hangs :
    ∃ (w : World State) (tr : List Event),
      Run (Guarded Step fun w a => MayStart w.use a) (boot 1000) tr w ∧
      MayStart w.use .yield ∧ arms w.st.queue.waiting .yield = some 2 ∧ Linked w.st 2 ∧
      ∀ w' es, ¬ Step w .yield w' es := by
  have hrun : Run (Guarded Step fun w a => MayStart w.use a) (boot 1000) _ _ :=
    run_of_exec [.timerEvery 1 (.app 1) 5 2, .tick 1, .upcall fun _ => 0, .timerCancel 2,
      .timerEvery 1 (.app 1) 5 2] rfl
  exact ⟨_, _, hrun, mayStart_yield _, rfl, .root rfl, fun _ _ =>
    not_step_of_arms_linked (boot_initial 1000) hrun.of_guarded rfl (.root rfl)⟩

end World

end Alarm
