import Libtock.Alarm.World

/-!
# Runs of the code are runs of the model

A step of the code on a world that stores a schedule is a step of the abstract model, and the
other way round. Properties of all runs are therefore proved for the abstract model.
-/

namespace Alarm

open Core Tock

lemma map_eq_ok {α β : Type} {f : α → β} {x : Result α} {y : β} :
    x.map f = .ok y ↔ ∃ z, x = .ok z ∧ f z = y := by
  cases x with
  | error e => simp [Except.map]
  | ok z => simp [Except.map]

lemma bind_eq_ok {α β : Type} {f : α → Result β} {x : Result α} {y : β} :
    x >>= f = .ok y ↔ ∃ z, x = .ok z ∧ f z = .ok y := by
  cases x with
  | error e => simp [bind, Except.bind]
  | ok z => simp [bind, Except.bind]

/-! ### More fuel changes nothing -/

/-- A function that has returned returns the same with more fuel. -/
def Steady {α : Type*} (f : ℕ → Result α) : Prop :=
  ∀ n m r, n ≤ m → f n = .ok r → f m = .ok r

lemma Steady.const {α : Type*} (x : Result α) : Steady fun _ => x := fun _ _ _ _ h => h

lemma Steady.bind {α β : Type} {f : ℕ → Result α} {g : ℕ → α → Result β} (hf : Steady f)
    (hg : ∀ x, Steady fun n => g n x) : Steady fun n => f n >>= g n := by
  intro n m r hnm h
  obtain ⟨x, hx, hgx⟩ := bind_eq_ok.mp h
  exact bind_eq_ok.mpr ⟨x, hf n m x hnm hx, hg x n m r hnm hgx⟩

lemma Steady.map {α β : Type} {f : ℕ → Result α} (hf : Steady f) (g : α → β) :
    Steady fun n => (f n).map g := by
  intro n m r hnm h
  obtain ⟨x, hx, hgx⟩ := map_eq_ok.mp h
  exact map_eq_ok.mpr ⟨x, hf n m x hnm hx, hgx⟩

/-- A loop is steady if one more iteration allowed makes no difference once it has returned. -/
lemma Steady.of_succ {α : Type*} {f : ℕ → Result α} (h : ∀ n r, f n = .ok r → f (n + 1) = .ok r) :
    Steady f := by
  intro n m r hnm hn
  induction m, hnm using Nat.le_induction with
  | base => exact hn
  | succ m _ ih => exact h m r ih

lemma steady_rootInsertLoop (alarm : Ptr) (cur : Slot) (prev : Option Ptr) (s : State) :
    Steady fun n => rootInsertLoop alarm n cur prev s := by
  apply Steady.of_succ
  intro n
  induction n generalizing cur prev with
  | zero => intro r h; cases h
  | succ n ih =>
    intro r h
    simp only [rootInsertLoop.eq_def alarm (_ + 1)] at h ⊢
    cases hload : cur.load s with
    | none => simpa only [hload] using h
    | some tmp =>
      simp only [hload] at h ⊢
      split_ifs at h ⊢
      · exact h
      · exact ih _ _ r h

lemma steady_countLoop (p : Option Ptr) (s : State) : Steady fun n => countLoop n p s := by
  apply Steady.of_succ
  intro n
  induction n generalizing p with
  | zero => intro r h; cases h
  | succ n ih =>
    intro r h
    cases p with
    | none => exact h
    | some p =>
      rw [countLoop] at h ⊢
      obtain ⟨k, hc, hk⟩ := map_eq_ok.mp h
      exact map_eq_ok.mpr ⟨k, ih _ _ hc, hk⟩

lemma steady_alarmAt (reference dt : U32) (cb : Option Upcall) (ud alarm : Ptr) (s : State) :
    Steady fun n => alarmAt n reference dt cb ud alarm s := by
  simp only [alarmAt_eq]
  refine Steady.bind ?_ fun s' => Steady.bind (steady_countLoop _ _) fun _ => Steady.const _
  unfold rootInsert
  split_ifs
  · exact Steady.const _
  · exact steady_rootInsertLoop _ _ _ _

lemma steady_callback (t : ℕ) (adv : ℕ → ℕ) (s : State) : Steady fun n => callback n t adv s := by
  apply Steady.of_succ
  intro n
  induction n generalizing t adv s with
  | zero => intro r h; cases h
  | succ n ih =>
    intro r h
    rw [callback] at h ⊢
    cases hroot : s.root with
    | none => simpa only [hroot] using h
    | some alarm =>
      simp only [hroot] at h ⊢
      split_ifs at h ⊢
      · exact h
      · cases hcb : ((rootPop s).alarms alarm).callback with
        | none =>
          simp only [hcb] at h ⊢
          obtain ⟨k, hc, hk⟩ := map_eq_ok.mp h
          exact map_eq_ok.mpr ⟨k, ih _ _ _ _ hc, hk⟩
        | some cb =>
          simp only [hcb] at h ⊢
          obtain ⟨k, hc, hk⟩ := map_eq_ok.mp h
          exact map_eq_ok.mpr ⟨k, ih _ _ _ _ hc, hk⟩

lemma steady_repeatingUpcall (now : U32) (ud : Ptr) (s : State) :
    Steady fun n => repeatingUpcall n now ud s :=
  Steady.bind (steady_alarmAt _ _ _ _ _ _) fun _ => Steady.const _

lemma World.steady_step (w : World State) (a : Action) : Steady fun n => w.step (libtock n) a := by
  cases a with
  | tick d => exact fun _ _ _ _ h => h
  | alarmAt ref dt cb ud alarm => exact (steady_alarmAt _ _ _ _ _ _).map _
  | alarmCancel alarm => exact fun _ _ _ _ h => h
  | timerIn ms cb ud timer => exact (steady_alarmAt _ _ _ _ _ _).map _
  | timerEvery ms cb ud timer => exact (steady_alarmAt _ _ _ _ _ _).map _
  | timerCancel timer => exact fun _ _ _ _ h => h
  | upcall adv => exact (steady_callback _ _ _).map _
  | enqueue cb arg0 arg1 arg2 ud => exact fun _ _ _ _ h => h
  | setFlag p b => exact fun _ _ _ _ h => h
  | yield =>
    simp only [World.step, libtock]
    cases w.st.dequeue with
    | none => exact Steady.const _
    | some r =>
      obtain ⟨⟨cb, arg0, arg1, arg2, ud⟩, s⟩ := r
      cases cb with
      | user cb => exact fun _ _ _ _ h => h
      | repeatingUpcall =>
        exact Steady.bind (steady_repeatingUpcall _ _ _) fun ⟨_, _⟩ _ _ _ _ h => h

namespace World

/-- The world `w` stores the schedule of `v`; what no program can see is the same. -/
structure Stores (w : World State) (v : World Schedule) : Prop where
  st : Represents w.st v.st
  time : w.time = v.time
  ref : w.ref = v.ref
  origin : w.origin = v.origin
  use : w.use = v.use

variable {w w' : World State} {v v' : World Schedule} {a : Action} {es : List Event}

/-- The same events, and worlds of which one stores the other. -/
def SameStep (r : World State × List Event) (r' : World Schedule × List Event) : Prop :=
  Stores r.1 r'.1 ∧ r.2 = r'.2

lemma start_agree {fuel : ℕ} (h : Stores w v) (hfuel : v.st.linked.length + 1 < fuel)
    (task : TockTask Upcall) :
    Agree SameStep (w.start (libtock fuel) task) (v.start schedule task) := by
  obtain ⟨cb, arg0, arg1, arg2, ud⟩ := task
  simp only [start, h.origin, h.use, h.ref]
  cases cb with
  | user cb => exact ⟨⟨invoke_represents h.st _ _, h.time, rfl, rfl, rfl⟩, rfl⟩
  | repeatingUpcall =>
    have hagree := repeatingUpcall_agree h.st hfuel arg0 ud
    have htimers : w.st.timers = v.st.timers := h.st.timers
    simp only [libtock, schedule, htimers]
    cases hr : Alarm.repeatingUpcall fuel arg0 ud w.st with
    | error e =>
      rw [hr] at hagree
      cases hr' : v.st.repeatingUpcall arg0 ud with
      | error e' => rw [hr'] at hagree; exact hagree
      | ok r' => rw [hr'] at hagree; exact hagree.elim
    | ok r =>
      obtain ⟨r', hr', hrep, hcall⟩ := hagree.exists_right hr
      rw [hr']
      simp only [bind, Except.bind]
      refine ⟨⟨?_, h.time, rfl, rfl, rfl⟩, by simp [hcall]⟩
      rw [hcall]
      exact invoke_represents hrep _ _

lemma step_agree {fuel : ℕ} (h : Stores w v) (hfuel : v.st.linked.length + 1 < fuel) (a : Action) :
    Agree SameStep (w.step (libtock fuel) a) (v.step schedule a) := by
  cases a with
  | tick d => exact ⟨⟨h.st, by simp [h.time], h.ref, h.origin, h.use⟩, rfl⟩
  | alarmAt ref dt cb ud alarm =>
    apply (alarmAt_agree h.st hfuel _ _ _ _ _).map
    intro _ _ hr
    exact ⟨⟨hr, h.time, by simp [h.ref], h.origin, by simp [h.use]⟩, rfl⟩
  | alarmCancel alarm =>
    apply (alarmCancel_agree h.st _).map
    intro _ _ hr
    exact ⟨⟨hr, h.time, h.ref, h.origin, by simp [h.use]⟩, rfl⟩
  | timerIn ms cb ud timer =>
    simp only [step, h.time]
    apply (timerIn_agree h.st hfuel _ _ _ _ _).map
    intro _ _ hr
    exact ⟨⟨hr, rfl, by simp [h.ref], h.origin, by simp [h.use]⟩, rfl⟩
  | timerEvery ms cb ud timer =>
    simp only [step, h.time]
    apply (timerEvery_agree h.st hfuel _ _ _ _ _).map
    intro _ _ hr
    exact ⟨⟨hr, rfl, by simp [h.ref], h.origin, by simp [h.use]⟩, rfl⟩
  | timerCancel timer =>
    apply (alarmCancel_agree h.st _).map
    intro _ _ hr
    exact ⟨⟨hr, h.time, h.ref, h.origin, by simp [h.use]⟩, rfl⟩
  | upcall adv =>
    simp only [step, h.time]
    apply (callback_agree h.st (by omega) _ _).map
    intro r r' hr
    exact ⟨⟨hr.1, by simp [hr.2], h.ref, by simp [hr.2, h.origin], h.use⟩, by simp [hr.2]⟩
  | enqueue cb arg0 arg1 arg2 ud =>
    obtain ⟨hret, hrep⟩ := enqueue_agree h.st (.user cb) arg0 arg1 arg2 ud
    simp only [step, libtock, schedule, hret, h.origin]
    exact ⟨⟨hrep, h.time, h.ref, rfl, h.use⟩, rfl⟩
  | setFlag p b =>
    refine ⟨⟨{ h.st with list := ⟨h.st.list.chain, h.st.list.back⟩, flags := ?_ }, h.time, h.ref,
      h.origin, h.use⟩, rfl⟩
    simp only [libtock, schedule, h.st.flags]
  | yield =>
    have hq := dequeue_agree h.st
    simp only [step, libtock, schedule]
    cases hd : w.st.dequeue with
    | none =>
      cases hd' : v.st.dequeue with
      | none => exact ⟨h, rfl⟩
      | some r' => rw [hd, hd'] at hq; exact hq.elim
    | some r =>
      obtain ⟨task, s⟩ := r
      cases hd' : v.st.dequeue with
      | none => rw [hd, hd'] at hq; exact hq.elim
      | some r' =>
        obtain ⟨task', s'⟩ := r'
        rw [hd, hd'] at hq
        obtain ⟨rfl, hrep⟩ := hq
        have hlinked : s'.linked = v.st.linked := by
          rw [Schedule.dequeue] at hd'
          split at hd'
          · cases hd'
          · cases hd'; rfl
        exact start_agree (w := { w with st := s }) (v := { v with st := s' })
          ⟨hrep, h.time, h.ref, h.origin, h.use⟩ (by simpa [hlinked] using hfuel) task

/-- A step of the code is a step of the model. -/
lemma Step.plan (h : Stores w v) (hstep : Step w a w' es) :
    ∃ v', Plan v a v' es ∧ Stores w' v' := by
  obtain ⟨n, hn⟩ := hstep
  have hfuel : v.st.linked.length + 1 < max n (v.st.linked.length + 2) := by omega
  obtain ⟨⟨v', es'⟩, hplan, hst, hes⟩ :=
    (step_agree h hfuel a).exists_right (steady_step w a _ _ _ (le_max_left _ _) hn)
  obtain rfl : es = es' := hes
  exact ⟨v', hplan, hst⟩

/-- Every step of the model is taken by the code. -/
lemma Plan.step (h : Stores w v) (hplan : Plan v a v' es) :
    ∃ w', Step w a w' es ∧ Stores w' v' := by
  obtain ⟨⟨w', es'⟩, hw, hst, hes⟩ :=
    (step_agree h (Nat.lt_succ_self (v.st.linked.length + 1)) a).exists_left hplan
  obtain rfl : es' = es := hes
  exact ⟨w', ⟨_, hw⟩, hst⟩

lemma linked_iff_mem {s : State} {l : List Ptr} (hchain : IsChain s.next s.root l) {p : Ptr} :
    Linked s p ↔ p ∈ l := by
  constructor
  · intro hp
    induction hp with
    | root hr =>
      rw [hchain.head_eq] at hr
      exact List.mem_of_mem_head? hr
    | next _ hnext ih => exact hchain.next_mem ih hnext
  · intro hp
    obtain ⟨l₁, l₂, hl⟩ := List.append_of_mem hp
    rw [hl] at hchain
    clear hl hp
    induction l₁ using List.reverseRecOn generalizing p l₂ with
    | nil => exact Linked.root hchain.1
    | append_singleton l₁ x ih =>
      have hchain' : IsChain s.next s.root (l₁ ++ x :: (p :: l₂)) := by simpa using hchain
      exact Linked.next (ih (p :: l₂) hchain') (show _ = (p :: l₂).head? from hchain'.next_eq)

lemma linked_iff (h : Stores w v) {p : Ptr} : Linked w.st p ↔ p ∈ v.st.linked :=
  linked_iff_mem h.st.list.chain

/-! ### Runs -/

/-- The schedule an initial memory stores. -/
def Initial.plan (w : World State) : World Schedule where
  st :=
    { linked := []
      data := w.st.data
      timers := w.st.timers
      tasks := []
      frequency := w.st.frequency
      subscribed := w.st.subscribed
      alarmSet := w.st.alarmSet
      flags := w.st.flags
      initialised := w.st.initialised }
  time := w.time
  ref := w.ref
  origin := []
  use := fun _ => .neverStarted

lemma Initial.stores (h : Initial w) : Stores w (Initial.plan w) := by
  have hq : w.st.queue = TaskQueue.initial w.st.queue.taskQueue := by
    obtain ⟨h₁, h₂⟩ := h.queue
    cases hq : w.st.queue
    simp_all [TaskQueue.initial]
  refine ⟨⟨⟨h.root, trivial⟩, rfl, rfl, ?_, ?_, rfl, rfl, rfl, rfl, rfl, ?_, ?_⟩, rfl, rfl,
    h.origin, h.use⟩
  · rw [hq]
    exact TaskQueue.valid_initial _
  · rw [hq]
    exact TaskQueue.waiting_initial _
  · intro p hp
    cases hp
  · intro p hp _
    exact h.links p hp

/-- Every run of the code whose steps meet `P` is a run of the model whose steps meet `Q`, where
`Q` says of a schedule what `P` says of a memory that stores it. -/
lemma Run.plan {P : World State → Action → Prop} {Q : World Schedule → Action → Prop}
    (hPQ : ∀ w v a, Stores w v → P w a → Q v a) (h : Stores w v)
    (hrun : Run (Guarded Step P) w es w') :
    ∃ v', Stores w' v' ∧ Run (Guarded Plan Q) v es v' := by
  refine hrun.simulate Stores ?_ h
  rintro w a w' es v hst ⟨hP, hstep⟩
  obtain ⟨v', hplan, hst'⟩ := hstep.plan hst
  exact ⟨v', hst', Run.single ⟨hPQ w v a hst hP, hplan⟩⟩

/-- Every run of the model whose steps meet `Q` is taken by the code. -/
lemma Run.step {P : World State → Action → Prop} {Q : World Schedule → Action → Prop}
    (hQP : ∀ w v a, Stores w v → Q v a → P w a) (h : Stores w v)
    (hrun : Run (Guarded Plan Q) v es v') :
    ∃ w', Stores w' v' ∧ Run (Guarded Step P) w es w' := by
  refine hrun.simulate (fun v w => Stores w v) ?_ h
  rintro v a v' es w hst ⟨hQ, hplan⟩
  obtain ⟨w', hstep, hst'⟩ := hplan.step hst
  exact ⟨w', hst', Run.single ⟨hQP w v a hst hQ, hstep⟩⟩

end World

end Alarm
