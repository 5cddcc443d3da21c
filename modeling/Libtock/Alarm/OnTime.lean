import Libtock.Alarm.Order

/-!
# Alarms are served on time

The kernel runs `callback` for the one alarm it was last told. If it is never more than `δ` ticks
late for that alarm, and `callback` never takes more than `ε` ticks, then every alarm is served at
most `δ + ε` ticks after it expires: the list is in order, so no alarm is overdue by more than its
first, and the alarm that `callback` leaves at the front has not expired. The clock must not wrap
around before a late alarm is looked at, so `dt` has to leave room for the delay.
-/

namespace Alarm

open Core Tock Schedule

/-! ### What becomes of an alarm -/

/-- What has become of an alarm, as a trace tells. -/
inductive Fate
  /-- Never armed, or cancelled since. -/
  | idle
  | waiting
  /-- Popped by `callback` at this tick. -/
  | served (tick : ℕ)
  deriving DecidableEq

def Fate.after (p : Ptr) (f : Fate) : Event → Fate
  | .armed x => if x = p then .waiting else f
  | .periodic call => if call.timer = p then .waiting else f
  | .cancelled x => if x = p then .idle else f
  | .popped e => if e.alarm = p then .served e.tick else f
  | .enqueued _ _ => f
  | .started _ _ => f

def fate (p : Ptr) (tr : List Event) : Fate := tr.foldl (Fate.after p) .idle

lemma fate_append (p : Ptr) (tr es : List Event) :
    fate p (tr ++ es) = es.foldl (Fate.after p) (fate p tr) := List.foldl_append

lemma Fate.foldl_popped (p : Ptr) (log : List Popped) (f : Fate) :
    ((∀ e ∈ log, e.alarm ≠ p) ∧ (log.map Event.popped).foldl (Fate.after p) f = f) ∨
      ∃ e ∈ log, e.alarm = p ∧ (log.map Event.popped).foldl (Fate.after p) f = .served e.tick := by
  induction log generalizing f with
  | nil => exact Or.inl ⟨fun e he => (by cases he), rfl⟩
  | cons e log ih =>
    rw [List.map_cons, List.foldl_cons]
    rcases ih (Fate.after p f (.popped e)) with ⟨hne, hfold⟩ | ⟨e', he', hp, hfold⟩
    · rw [hfold]
      by_cases hp : e.alarm = p
      · exact Or.inr ⟨e, List.mem_cons_self, hp, if_pos hp⟩
      · exact Or.inl ⟨List.forall_mem_cons.mpr ⟨hp, hne⟩, if_neg hp⟩
    · exact Or.inr ⟨e', List.mem_cons_of_mem _ he', hp, hfold⟩

/-! ### The time that a step takes -/

namespace Schedule

/-- `callback` reads the clock at most once for each alarm of the list. -/
lemma serve_time_le_add (l : List Ptr) (t : ℕ) (adv : ℕ → ℕ) (a : Schedule) :
    (serve l t adv a).2.1 ≤ t + ((List.range l.length).map adv).sum := by
  induction l generalizing t adv a with
  | nil => exact Nat.le_add_right _ _
  | cons x l ih =>
    have hsum : ((List.range (x :: l).length).map adv).sum
        = adv 0 + ((List.range l.length).map (adv ∘ Nat.succ)).sum := by
      rw [List.length_cons, List.range_succ_eq_map, List.map_cons, List.sum_cons, List.map_map]
    rw [hsum, ← Nat.add_assoc]
    simp only [serve]
    split_ifs
    · exact Nat.le_add_right _ _
    · split
      all_goals exact ih _ _ _

/-- The alarm that `callback` leaves at the front had not expired at the last reading. -/
lemma serve_head {l : List Ptr} {t : ℕ} {adv : ℕ → ℕ} {a : Schedule} {x : Ptr}
    (hx : (serve l t adv a).1.linked.head? = some x) :
    alarmInternalRead (serve l t adv a).2.1 - (a.data x).reference < (a.data x).dt := by
  induction l generalizing t adv a with
  | nil => cases hx
  | cons y l ih =>
    simp only [serve] at hx ⊢
    split_ifs at hx ⊢ with hexp
    · obtain rfl := Option.some.inj hx
      exact hexp
    · split at hx
      · have h := ih hx
        rwa [data_enqueue] at h
      · exact ih hx

end Schedule

namespace World

/-- How far the clock can advance in a step when the alarms `l` are linked. -/
def elapses (l : List Ptr) : Action → ℕ
  | .tick d => d
  | .upcall adv => ((List.range l.length).map adv).sum
  | _ => 0

variable {v v' : World Schedule} {a : Action} {tr es : List Event}

lemma Effect.time_le (heff : Effect v a v' es) : v.time ≤ v'.time := by
  cases heff with
  | quiet flags hact ht => exact ht
  | upcall hes hqueued ht hle hset => exact ht
  | _ => exact le_rfl

lemma Plan.time_le (hv : Sound v) (hplan : Plan v a v' es) :
    v'.time ≤ v.time + elapses v.st.linked a := by
  have heff := hplan.effect hv
  cases a with
  | tick d =>
    cases hplan
    exact le_rfl
  | upcall adv =>
    cases hplan
    exact serve_time_le_add _ _ _ _
  | setFlag p b =>
    cases hplan
    exact le_rfl
  | yield =>
    cases htasks : v.st.tasks with
    | nil =>
      simp only [Plan, World.step, schedule, Schedule.dequeue] at hplan
      simp only [htasks] at hplan
      cases hplan
      exact le_rfl
    | cons task tasks =>
      cases heff with
      | quiet flags hact ht => simp [htasks] at hact
      | oneShot hact hx => simp at hact
      | cancel hact hi => cases hact
      | _ => exact le_rfl
  | _ =>
    cases heff with
    | quiet flags hact ht => simp at hact
    | _ => exact le_rfl

/-- After an upcall the first alarm of the list has not expired. -/
lemma Plan.upcall_head {adv : ℕ → ℕ} (hplan : Plan v (.upcall adv) v' es) {x : Ptr}
    (hx : v'.st.linked.head? = some x) :
    alarmInternalRead v'.time - (v.st.data x).reference < (v.st.data x).dt := by
  cases hplan
  exact serve_head hx

/-! ### The timing of an application and of the kernel -/

/-- An alarm armed with a reference that is not in the future and no more than `δ` ticks after it
expires, such that the clock does not wrap around before it is served. -/
structure ArmedInTime (δ ε time : ℕ) (r : Arming) : Prop where
  past : r.reference ≤ time
  soon : time ≤ r.reference + r.dt.toNat + δ
  room : r.dt.toNat + δ + ε < 2 ^ 32

instance (δ ε time : ℕ) (r : Arming) : Decidable (ArmedInTime δ ε time r) :=
  decidable_of_iff (r.reference ≤ time ∧ time ≤ r.reference + r.dt.toNat + δ ∧
    r.dt.toNat + δ + ε < 2 ^ 32) ⟨fun h => ⟨h.1, h.2.1, h.2.2⟩, fun h => ⟨h.past, h.soon, h.room⟩⟩

/-- The kernel runs `callback` before the clock is more than `δ` ticks past the expiration of the
alarm it was told, and `callback` takes no more than `ε` ticks. -/
def KernelInTime (δ ε time : ℕ) (ref : Ptr → ℕ) (data : Ptr → AlarmData)
    (alarmSet : Option (U32 × U32)) (l : List Ptr) : Action → Prop
  | .tick d => ∀ p ∈ l, alarmSet = some ((data p).reference, (data p).dt) →
      time + d ≤ expiration ref data p + δ
  | .upcall adv => ((List.range l.length).map adv).sum ≤ ε
  | _ => True

instance (δ ε time : ℕ) (ref : Ptr → ℕ) (data : Ptr → AlarmData)
    (alarmSet : Option (U32 × U32)) (l : List Ptr) (a : Action) :
    Decidable (KernelInTime δ ε time ref data alarmSet l a) := by
  unfold KernelInTime
  split <;> infer_instance

/-- The timing assumptions about a step. -/
structure InTime (δ ε : ℕ) (w : World State) (a : Action) : Prop where
  placed : Placed w a
  armed : ∀ r ∈ w.arming a, ArmedInTime δ ε w.time r
  kernel : ∀ l, IsChain w.st.next w.st.root l →
    KernelInTime δ ε w.time w.ref w.st.data w.st.alarmSet l a

lemma InTime.of_mem {δ ε : ℕ} (ls : List (List Ptr)) {w : World State} {a : Action}
    (h : ∃ l ∈ ls, IsChain w.st.next w.st.root l ∧
      (∀ r ∈ w.arming a, PlacedRight (expiration w.ref w.st.data) l r.reference r.dt ∧
        ArmedInTime δ ε w.time r) ∧
      KernelInTime δ ε w.time w.ref w.st.data w.st.alarmSet l a) : InTime δ ε w a := by
  obtain ⟨l, -, hl, harmed, hkernel⟩ := h
  refine ⟨?_, fun r hr => (harmed r hr).2, ?_⟩
  · intro r hr l' hl'
    rw [hl'.unique hl]
    exact (harmed r hr).1
  · intro l' hl'
    rw [hl'.unique hl]
    exact hkernel

/-- The same about a step of the model. -/
structure PlannedInTime (δ ε : ℕ) (v : World Schedule) (a : Action) : Prop where
  armed : ∀ r ∈ armingOf v.time v.st.frequency v.ref v.st.timers v.st.tasks a,
    PlacedRight (expiration v.ref v.st.data) v.st.linked r.reference r.dt ∧
      ArmedInTime δ ε v.time r
  kernel : KernelInTime δ ε v.time v.ref v.st.data v.st.alarmSet v.st.linked a

lemma Stores.arming_eq {w : World State} (hst : Stores w v) (a : Action) :
    w.arming a = armingOf v.time v.st.frequency v.ref v.st.timers v.st.tasks a := by
  rw [arming, hst.time, hst.st.frequency, hst.ref, hst.st.timers, hst.st.waiting]

lemma InTime.planned {δ ε : ℕ} {w : World State} (hst : Stores w v) (h : InTime δ ε w a) :
    PlannedInTime δ ε v a := by
  have hchain := hst.st.list.chain
  constructor
  · intro r hr
    rw [← hst.arming_eq] at hr
    have hplaced := h.placed r hr _ hchain
    have harmed := h.armed r hr
    rw [hst.ref, hst.st.data] at hplaced
    rw [hst.time] at harmed
    exact ⟨hplaced, harmed⟩
  · have hkernel := h.kernel _ hchain
    rwa [hst.time, hst.ref, hst.st.data, hst.st.alarmSet] at hkernel

/-! ### The invariant -/

/-- Alarms are in order, of none is the expiration further back than `δ`, and the trace tells
which of them are linked and when the others were served. -/
structure Punctual (δ ε : ℕ) (tr : List Event) (v : World Schedule) : Prop where
  ordered : InOrder (expiration v.ref v.st.data) v.st.linked
  told : HeadSet v
  past : ∀ p ∈ v.st.linked, v.ref p ≤ v.time
  soon : ∀ p ∈ v.st.linked, v.time ≤ expiration v.ref v.st.data p + δ
  room : ∀ p ∈ v.st.linked, (v.st.data p).dt.toNat + δ + ε < 2 ^ 32
  linked_iff : ∀ p, p ∈ v.st.linked ↔ fate p tr = .waiting
  served : ∀ p t, fate p tr = .served t →
    expiration v.ref v.st.data p ≤ t ∧ t ≤ expiration v.ref v.st.data p + δ + ε

variable {δ ε : ℕ}

/-- What an alarm looks like when its `dt` leaves room for the delay. -/
lemma Punctual.expired_iff (hv : Sound v) (h : Punctual δ ε tr v) {p : Ptr}
    (hp : p ∈ v.st.linked) {t : ℕ} (hle : v.time ≤ t) (ht : t ≤ v.time + ε) :
    alarmInternalRead t - (v.st.data p).reference < (v.st.data p).dt ↔
      t < expiration v.ref v.st.data p := by
  have hpast := h.past p hp
  have hsoon := h.soon p hp
  have hroom := h.room p hp
  rw [expiration] at hsoon ⊢
  rw [hv.ref, BitVec.lt_def, alarmInternalRead, alarmInternalRead,
    Clock.toNat_ofNat_sub (hpast.trans hle), Nat.mod_eq_of_lt (by omega)]
  omega

/-- A step that takes alarms off the list, if any, and leaves the data of all alone. -/
lemma Punctual.keep (h : Punctual δ ε tr v) (heff : Effect v a v' es)
    (hsub : v'.st.linked.Sublist v.st.linked) (hdata : v'.st.data = v.st.data)
    (href : v'.ref = v.ref)
    (hsoon : ∀ p ∈ v'.st.linked, v'.time ≤ expiration v.ref v.st.data p + δ)
    (hfate : ∀ p, p ∈ v'.st.linked ↔ fate p (tr ++ es) = .waiting)
    (hserved : ∀ p t, fate p (tr ++ es) = .served t →
      expiration v.ref v.st.data p ≤ t ∧ t ≤ expiration v.ref v.st.data p + δ + ε) :
    Punctual δ ε (tr ++ es) v' := by
  have hmem : ∀ {p}, p ∈ v'.st.linked → p ∈ v.st.linked := fun hp => hsub.subset hp
  refine ⟨?_, h.told.effect heff, ?_, ?_, ?_, hfate, ?_⟩
  · rw [hdata, href]
    exact List.Pairwise.sublist hsub h.ordered
  · intro p hp
    rw [href]
    exact (h.past p (hmem hp)).trans heff.time_le
  · rwa [hdata, href]
  · intro p hp
    rw [hdata]
    exact h.room p (hmem hp)
  · rwa [hdata, href]

/-- A step after which every alarm has the fate it had. -/
lemma Punctual.same (h : Punctual δ ε tr v) (heff : Effect v a v' es)
    (hlinked : v'.st.linked = v.st.linked) (hdata : v'.st.data = v.st.data) (href : v'.ref = v.ref)
    (hsoon : ∀ p ∈ v.st.linked, v'.time ≤ expiration v.ref v.st.data p + δ)
    (hfate : ∀ p, fate p (tr ++ es) = fate p tr) : Punctual δ ε (tr ++ es) v' := by
  refine h.keep heff (hlinked ▸ .refl _) hdata href ?_ ?_ ?_
  · rwa [hlinked]
  · intro p
    rw [hfate, hlinked]
    exact h.linked_iff p
  · intro p t hp
    exact h.served p t (hfate p ▸ hp)

/-- A step that arms the alarm `x`. -/
lemma Punctual.arm (hv : Sound v) (h : Punctual δ ε tr v) (hP : PlannedInTime δ ε v a)
    (heff : Effect v a v' es) {x : Ptr} {R : ℕ} {d : AlarmData}
    (harm : armingOf v.time v.st.frequency v.ref v.st.timers v.st.tasks a = some ⟨x, R, d.dt⟩)
    (hlinked : v'.st.linked = insertAlarm v'.st.data x v.st.linked)
    (hdata : v'.st.data = Function.update v.st.data x d) (href : v'.ref = Function.update v.ref x R)
    (htime : v'.time = v.time) (hfate : ∀ p, fate p (tr ++ es) = if p = x then .waiting
      else fate p tr) : Punctual δ ε (tr ++ es) v' := by
  have harmed := (hP.armed _ harm).2
  have hmem : ∀ p, p ∈ v'.st.linked ↔ p = x ∨ p ∈ v.st.linked := fun p => by
    rw [hlinked]
    exact mem_insertAlarm
  have hself : v'.ref x = R ∧ (v'.st.data x).dt = d.dt := by simp [href, hdata]
  have hother : ∀ p ≠ x, v'.ref p = v.ref p ∧ (v'.st.data p).dt = (v.st.data p).dt := by
    intro p hp
    simp [href, hdata, Function.update_of_ne hp]
  refine ⟨heff.inOrder hv h.ordered fun r hr => (hP.armed r hr).1, h.told.effect heff,
    ?_, ?_, ?_, ?_, ?_⟩
  · intro p hp
    rw [htime]
    by_cases hpx : p = x
    · rw [hpx, hself.1]
      exact harmed.past
    · rw [(hother p hpx).1]
      exact h.past p (((hmem p).mp hp).resolve_left hpx)
  · intro p hp
    rw [htime, expiration]
    by_cases hpx : p = x
    · rw [hpx, hself.1, hself.2]
      exact harmed.soon
    · rw [(hother p hpx).1, (hother p hpx).2]
      exact h.soon p (((hmem p).mp hp).resolve_left hpx)
  · intro p hp
    by_cases hpx : p = x
    · rw [hpx, hself.2]
      exact harmed.room
    · rw [(hother p hpx).2]
      exact h.room p (((hmem p).mp hp).resolve_left hpx)
  · intro p
    rw [hmem, hfate]
    by_cases hpx : p = x
    · simp [hpx]
    · simp [hpx, h.linked_iff]
  · intro p t hp
    rw [hfate] at hp
    by_cases hpx : p = x
    · simp [hpx] at hp
    · rw [if_neg hpx] at hp
      rw [expiration, (hother p hpx).1, (hother p hpx).2]
      exact h.served p t hp

lemma Punctual.upcall {adv : ℕ → ℕ} (hv : Sound v) (h : Punctual δ ε tr v)
    (hP : PlannedInTime δ ε v (.upcall adv)) (hplan : Plan v (.upcall adv) v' es) :
    Punctual δ ε (tr ++ es) v' := by
  have heff := hplan.effect hv
  have hcases := heff.arming_cases
  simp only [armingOf, true_and, reduceCtorEq, false_and, exists_false, or_false] at hcases
  obtain ⟨hsub, hdata, href⟩ := hcases
  have htime : v'.time ≤ v.time + ε :=
    (hplan.time_le hv).trans (Nat.add_le_add_left hP.kernel _)
  obtain ⟨hes, hlinked, -, -, htick⟩ := heff.of_upcall
  have hsplit := expired_append_drop v.st.data v.st.linked v.time adv
  rw [← hlinked] at hsplit
  have hnodup := hv.nodup
  rw [← hsplit, List.nodup_append] at hnodup
  have hfate : ∀ p, (p ∉ (expired v.st.data v.st.linked v.time adv).map Prod.fst ∧
      fate p (tr ++ es) = fate p tr) ∨
      ∃ t, (p, t) ∈ expired v.st.data v.st.linked v.time adv ∧
        fate p (tr ++ es) = .served t := by
    intro p
    rw [fate_append, hes, ← logOf_alarm v.st.data _ (15 - v.st.tasks.length)]
    rcases Fate.foldl_popped p (logOf v.st.data (expired v.st.data v.st.linked v.time adv)
      (15 - v.st.tasks.length)) (fate p tr) with ⟨hne, hfold⟩ | ⟨e, he, rfl, hfold⟩
    · refine Or.inl ⟨?_, hfold⟩
      intro hp
      obtain ⟨e, he, rfl⟩ := List.mem_map.mp hp
      exact hne e he rfl
    · exact Or.inr ⟨e.tick, mem_logOf he, hfold⟩
  refine h.keep heff hsub hdata href ?_ ?_ ?_
  · -- the first alarm left has not expired, and the others expire no earlier
    intro p hp
    obtain ⟨x, l, hl⟩ := List.exists_cons_of_ne_nil (List.ne_nil_of_mem hp)
    have hhead : v'.st.linked.head? = some x := by rw [hl, List.head?_cons]
    have hxl : x ∈ v.st.linked := hsub.subset (hl ▸ List.mem_cons_self)
    have hlt := (h.expired_iff hv hxl heff.time_le htime).mp (hplan.upcall_head hhead)
    have hordered : InOrder (expiration v.ref v.st.data) v'.st.linked :=
      List.Pairwise.sublist hsub h.ordered
    rw [hl] at hordered hp
    have hle : expiration v.ref v.st.data x ≤ expiration v.ref v.st.data p := by
      rcases List.mem_cons.mp hp with rfl | hp
      · exact le_rfl
      · exact (List.pairwise_cons.mp hordered).1 p hp
    omega
  · intro p
    rcases hfate p with ⟨hne, heq⟩ | ⟨t, ht, heq⟩
    · rw [heq, ← h.linked_iff, ← hsplit, List.mem_append]
      exact ⟨Or.inr, fun hp => hp.resolve_left hne⟩
    · simp only [heq, reduceCtorEq, iff_false]
      exact fun hp => hnodup.2.2 p (List.mem_map_of_mem ht) p hp rfl
  · intro p t hp
    rcases hfate p with ⟨hne, heq⟩ | ⟨t', ht', heq⟩
    · exact h.served p t (heq ▸ hp)
    · obtain rfl : t' = t := by simpa using heq.symm.trans hp
      have hpl : p ∈ v.st.linked := mem_linked_of_mem_expired ht'
      obtain ⟨hle, hexp⟩ := expired_spec ht'
      have hle' : t' ≤ v.time + ε := (htick _ ht').trans htime
      rw [h.expired_iff hv hpl hle hle', not_lt] at hexp
      have hsoon := h.soon p hpl
      omega

/-- The first alarm bounds how far the clock can advance. -/
lemma Punctual.tick {d : ℕ} (h : Punctual δ ε tr v) (hP : PlannedInTime δ ε v (.tick d)) :
    ∀ p ∈ v.st.linked, v.time + d ≤ expiration v.ref v.st.data p + δ := by
  intro p hp
  obtain ⟨x, l, hl⟩ := List.exists_cons_of_ne_nil (List.ne_nil_of_mem hp)
  have htold := h.told x (by rw [hl, List.head?_cons])
  have hx : x ∈ v.st.linked := hl ▸ List.mem_cons_self
  have hfirst : v.time + d ≤ expiration v.ref v.st.data x + δ := hP.kernel x hx htold
  have hordered := h.ordered
  rw [hl] at hordered hp
  rcases List.mem_cons.mp hp with rfl | hp
  · exact hfirst
  · have := (List.pairwise_cons.mp hordered).1 p hp
    omega

lemma Punctual.step (hv : Sound v) (h : Punctual δ ε tr v) (hP : PlannedInTime δ ε v a)
    (hplan : Plan v a v' es) : Punctual δ ε (tr ++ es) v' := by
  have heff := hplan.effect hv
  have htime := hplan.time_le hv
  have hsame : elapses v.st.linked a = 0 → v'.time ≤ v.time := fun h0 => by rwa [h0] at htime
  cases hplan.effect hv with
  | quiet flags hact ht =>
    refine h.same heff rfl rfl rfl ?_ (fun p => by rw [fate_append]; rfl)
    rcases hact with ⟨d, rfl⟩ | ⟨_, _, rfl⟩ | ⟨rfl, -⟩
    · exact fun p hp => htime.trans (h.tick hP p hp)
    · exact fun p hp => (hsame rfl).trans (h.soon p hp)
    · exact fun p hp => (hsame rfl).trans (h.soon p hp)
  | refused hfull => exact h.same heff rfl rfl rfl h.soon fun p => by rw [fate_append]; rfl
  | enqueue hroom => exact h.same heff rfl rfl rfl h.soon fun p => by rw [fate_append]; rfl
  | user flags htasks horigin hcb =>
    exact h.same heff rfl rfl rfl h.soon fun p => by rw [fate_append]; rfl
  | @cancel _ x hact hi =>
    have hfate : ∀ p, fate p (tr ++ [.cancelled x]) = if x = p then .idle else fate p tr :=
      fun p => by rw [fate_append]; rfl
    have hmem : ∀ p, p ∈ (v.st.unlink x).linked ↔ x ≠ p ∧ p ∈ v.st.linked := fun p => by
      rw [linked_unlink, hv.nodup.mem_erase_iff, ne_comm]
    refine h.keep heff List.erase_sublist rfl rfl
      (fun p hp => h.soon p (List.mem_of_mem_erase hp)) ?_ ?_
    · intro p
      rw [hmem, hfate, h.linked_iff]
      split_ifs with hp <;> simp [hp]
    · intro p t hp
      rw [hfate] at hp
      split_ifs at hp
      exact h.served p t hp
  | upcall hes hqueued ht hle hset => exact h.upcall hv hP hplan
  | @oneShot _ ref dt cb ud x hact hx =>
    refine h.arm (d := ⟨alarmInternalRead ref, dt, cb.map .user, ud⟩) hv hP heff (R := ref) ?_
      rfl rfl rfl rfl fun p => ?_
    · rcases hact with rfl | ⟨⟨_, rfl, rfl⟩, rfl⟩
      · rfl
      · rfl
    · simp [fate_append, Fate.after, eq_comm]
  | periodic hx =>
    refine h.arm hv hP heff rfl rfl rfl rfl rfl fun p => ?_
    simp [fate_append, Fate.after, eq_comm]
  | @repeating task tasks origin r curExp flags htasks horigin hcb hx hr hexp =>
    refine h.arm (d := ⟨curExp, r.interval, some .repeatingUpcall, task.ud⟩)
      (R := v.ref task.ud + r.interval.toNat) hv hP heff ?_ rfl rfl rfl rfl fun p => ?_
    · simp [armingOf, htasks, hcb, hr]
    · simp [fate_append, Fate.after, eq_comm]

/-! ### Every run -/

/-- In every run in which alarms are placed right and armed in time and the kernel is in time, the
alarms that were armed and neither cancelled nor served since are those on the list, none of them
is overdue by more than `δ` ticks, and every alarm served was served no earlier than its expiration
and at most `δ + ε` ticks after it. -/
theorem alarms_served_on_time {w₀ w : World State} {tr : List Event} (h₀ : Initial w₀)
    (hrun : Run (Guarded Step (InTime δ ε)) w₀ tr w) :
    (∀ p, Linked w.st p ↔ fate p tr = .waiting) ∧
    (∀ p, Linked w.st p → w.time ≤ expiration w.ref w.st.data p + δ) ∧
    ∀ p t, fate p tr = .served t →
      expiration w.ref w.st.data p ≤ t ∧ t ≤ expiration w.ref w.st.data p + δ + ε := by
  obtain ⟨v, hst, hplan⟩ := World.Run.plan (fun _ _ _ hst h => h.planned hst) h₀.stores hrun
  have hinit : Punctual δ ε [] (Initial.plan w₀) :=
    ⟨.nil, fun x hx => (by cases hx), fun p hp => (by cases hp), fun p hp => (by cases hp),
      fun p hp => (by cases hp), fun p => ⟨fun hp => (by cases hp), fun hp => (by cases hp)⟩,
      fun p t hp => (by cases hp)⟩
  obtain ⟨-, h⟩ := hplan.trace_invariant (fun tr v => Sound v ∧ Punctual δ ε tr v)
    (fun tr v a v' es ⟨hv, h⟩ ⟨hP, hstep⟩ => ⟨(hstep.effect hv).sound hv, h.step hv hP hstep⟩)
    ⟨h₀.sound, hinit⟩
  refine ⟨fun p => ?_, fun p hp => ?_, ?_⟩
  · rw [linked_iff hst]
    exact h.linked_iff p
  · rw [linked_iff hst] at hp
    rw [hst.time, hst.ref, hst.st.data]
    exact h.soon p hp
  · rw [hst.ref, hst.st.data]
    exact h.served

/-- The kernel is two ticks late for a repeating timer and one for a one-shot alarm, and takes a
tick to read the clock. -/
theorem alarms_served_on_time_late :
    ∃ (w : World State) (tr : List Event), Run (Guarded Step (InTime 2 1)) (boot 1000) tr w ∧
      fate 2 tr = .waiting ∧ Linked w.st 2 ∧ w.time ≤ expiration w.ref w.st.data 2 + 2 ∧
      fate 4 tr = .served 6 ∧ expiration w.ref w.st.data 4 ≤ 6 ∧
      6 ≤ expiration w.ref w.st.data 4 + 2 + 1 := by
  have h : execAny (fun w a => ∃ l ∈ ([[], [2], [2, 4]] : List (List Ptr)),
        IsChain w.st.next w.st.root l ∧
        (∀ r ∈ w.arming a, PlacedRight (expiration w.ref w.st.data) l r.reference r.dt ∧
          ArmedInTime 2 1 w.time r) ∧
        KernelInTime 2 1 w.time w.ref w.st.data w.st.alarmSet l a) (boot 1000)
      [.timerEvery 3 (.app 1) 10 2, .timerIn 4 (some (.app 3)) 11 4, .tick 5,
        .upcall fun k => if k = 0 then 1 else 0, .yield]
      (fun _ tr => decide (fate 2 tr = .waiting) && decide (fate 4 tr = .served 6)) = true := by
    decide +kernel
  obtain ⟨w, tr, hrun, htest⟩ := run_of_execAny h
  simp only [Bool.and_eq_true, decide_eq_true_eq] at htest
  have hrun' : Run (Guarded Step (InTime 2 1)) (boot 1000) tr w :=
    hrun.mono fun _ _ _ _ hstep => ⟨.of_mem _ hstep.1, hstep.2⟩
  obtain ⟨hlinked, hsoon, hserved⟩ := alarms_served_on_time (boot_initial 1000) hrun'
  have h2 := (hlinked 2).mpr htest.1
  have h4 := hserved 4 6 htest.2
  exact ⟨w, tr, hrun', htest.1, h2, hsoon 2 h2, htest.2, h4.1, h4.2⟩

end World

end Alarm
