import Libtock.Alarm.Effect
import Libtock.Alarm.Insert

/-!
# The order of the list

`root_insert` compares distances from the reference of the new alarm, modulo the clock. An alarm
that expired before that reference then looks as if it were due almost a whole clock period later,
and the new alarm is put in front of it. Where this does not happen the list is sorted by absolute
expiration, and the kernel has been told its first alarm.
-/

namespace Alarm

open Core Tock Schedule

/-- The alarms of `l` that are due before `R + dt` do not look later than it when seen from `R`, nor
does the first of the others look earlier. -/
structure PlacedRight (exp : Ptr → ℕ) (l : List Ptr) (R : ℕ) (dt : U32) : Prop where
  not_before : ∀ c ∈ l, R ≤ exp c
  next : ∀ c ∈ (l.filter fun c => R + dt.toNat ≤ exp c).head?, dt.toNat ≤ (exp c - R) % 2 ^ 32

instance (exp : Ptr → ℕ) (l : List Ptr) (R : ℕ) (dt : U32) : Decidable (PlacedRight exp l R dt) :=
  decidable_of_iff ((∀ c ∈ l, R ≤ exp c) ∧
      ∀ c ∈ (l.filter fun c => R + dt.toNat ≤ exp c).head?, dt.toNat ≤ (exp c - R) % 2 ^ 32)
    ⟨fun h => ⟨h.1, h.2⟩, fun h => ⟨h.not_before, h.next⟩⟩

/-- In order of absolute expiration. -/
def InOrder (exp : Ptr → ℕ) (l : List Ptr) : Prop := l.Pairwise fun x y => exp x ≤ exp y

section Insert

variable {data : Ptr → AlarmData} {exp : Ptr → ℕ} {l : List Ptr} {n : Ptr} {R : ℕ}

/-- The test of `root_insert` against an alarm that is not due before the reference. -/
lemma insertsBefore_iff_of_le {c : Ptr} (hn : (data n).reference = alarmInternalRead R)
    (hc : (data c).reference + (data c).dt = alarmInternalRead (exp c)) (hle : R ≤ exp c) :
    insertsBefore (data n) (data c) = true ↔ (data n).dt.toNat ≤ (exp c - R) % 2 ^ 32 := by
  rw [insertsBefore_iff, distance, hn, hc, BitVec.le_def, alarmInternalRead, alarmInternalRead,
    Clock.toNat_ofNat_sub hle]

/-- An alarm due before the reference, but not for longer than half a clock period, looks later. -/
lemma insertsBefore_of_lt {c : Ptr} (hn : (data n).reference = alarmInternalRead R)
    (hc : (data c).reference + (data c).dt = alarmInternalRead (exp c)) (hlt : exp c < R)
    (hover : R ≤ exp c + 2 ^ 31) (hdt : (data n).dt.toNat < 2 ^ 31) :
    insertsBefore (data n) (data c) = true := by
  rw [insertsBefore_iff, distance, hn, hc, BitVec.le_def, alarmInternalRead, alarmInternalRead,
    Clock.toNat_ofNat_sub_of_lt hlt (by omega)]
  omega

/-- `root_insert` keeps the order if the new alarm is placed right. -/
lemma PlacedRight.inOrder (hn : (data n).reference = alarmInternalRead R)
    (hexp : exp n = R + (data n).dt.toNat)
    (hl : ∀ c ∈ l, (data c).reference + (data c).dt = alarmInternalRead (exp c))
    (hsorted : InOrder exp l) (h : PlacedRight exp l R (data n).dt) :
    InOrder exp (insertAlarm data n l) := by
  induction l with
  | nil => exact List.pairwise_singleton _ _
  | cons c l ih =>
    obtain ⟨hc, hsorted'⟩ := List.pairwise_cons.mp hsorted
    have hle := h.not_before c List.mem_cons_self
    have hiff := insertsBefore_iff_of_le hn (hl c List.mem_cons_self) hle
    rw [insertAlarm_cons]
    split_ifs with hb
    · -- the new alarm goes first, and is due no later than `c`
      have hnc : exp n ≤ exp c := by
        have := (hiff.mp hb).trans (Nat.mod_le _ _)
        omega
      refine List.pairwise_cons.mpr ⟨?_, hsorted⟩
      intro y hy
      rcases List.mem_cons.mp hy with rfl | hy
      · exact hnc
      · exact hnc.trans (hc y hy)
    · rw [hiff] at hb
      have hcn : ¬ R + (data n).dt.toNat ≤ exp c := fun hcn => hb (h.next c (by simp [hcn]))
      have h' : PlacedRight exp l R (data n).dt :=
        ⟨fun y hy => h.not_before y (List.mem_cons_of_mem _ hy), by simpa [hcn] using h.next⟩
      refine List.pairwise_cons.mpr ⟨?_,
        ih (fun y hy => hl y (List.mem_cons_of_mem _ hy)) hsorted' h'⟩
      intro y hy
      rcases mem_insertAlarm.mp hy with rfl | hy
      · omega
      · exact hc y hy

/-- Conversely, for alarms that are overdue by no more than half a clock period. -/
lemma InOrder.placedRight (hn : (data n).reference = alarmInternalRead R)
    (hexp : exp n = R + (data n).dt.toNat)
    (hl : ∀ c ∈ l, (data c).reference + (data c).dt = alarmInternalRead (exp c))
    (hsorted : InOrder exp l) (hover : ∀ c ∈ l, R ≤ exp c + 2 ^ 31)
    (hdt : (data n).dt.toNat < 2 ^ 31) (h : InOrder exp (insertAlarm data n l)) :
    PlacedRight exp l R (data n).dt := by
  induction l with
  | nil => exact ⟨fun _ hc => (by cases hc), fun _ hc => (by cases hc)⟩
  | cons c l ih =>
    obtain ⟨hc, hsorted'⟩ := List.pairwise_cons.mp hsorted
    have hdata := hl c List.mem_cons_self
    rw [insertAlarm_cons] at h
    have hle : R ≤ exp c := by
      by_contra hlt
      have hb := insertsBefore_of_lt hn hdata (by omega) (hover c List.mem_cons_self) hdt
      rw [if_pos hb] at h
      have := (List.pairwise_cons.mp h).1 c List.mem_cons_self
      omega
    have hiff := insertsBefore_iff_of_le hn hdata hle
    constructor
    · intro y hy
      rcases List.mem_cons.mp hy with rfl | hy
      · exact hle
      · exact hle.trans (hc y hy)
    · split_ifs at h with hb
      · have hnc : R + (data n).dt.toNat ≤ exp c :=
          hexp ▸ (List.pairwise_cons.mp h).1 c List.mem_cons_self
        simpa [hnc] using hiff.mp hb
      · obtain ⟨hcy, htail⟩ := List.pairwise_cons.mp h
        rw [hiff] at hb
        have hcn := hcy n (mem_insertAlarm.mpr (Or.inl rfl))
        have hne : ¬ R + (data n).dt.toNat ≤ exp c := by
          intro hge
          have heq : exp c - R = (data n).dt.toNat := by omega
          rw [heq, Nat.mod_eq_of_lt (data n).dt.isLt] at hb
          exact hb le_rfl
        have h' := ih (fun y hy => hl y (List.mem_cons_of_mem _ hy)) hsorted'
          (fun y hy => hover y (List.mem_cons_of_mem _ hy)) htail
        simpa [hne] using h'.next

variable {exp' : Ptr → ℕ}

lemma InOrder.congr (h : InOrder exp l) (heq : ∀ c ∈ l, exp' c = exp c) : InOrder exp' l := by
  refine List.Pairwise.imp_of_mem (fun hx hy hle => ?_) h
  rw [heq _ hx, heq _ hy]
  exact hle

lemma PlacedRight.congr {dt : U32} (h : PlacedRight exp l R dt) (heq : ∀ c ∈ l, exp' c = exp c) :
    PlacedRight exp' l R dt := by
  have hfilter :
      (l.filter fun c => R + dt.toNat ≤ exp' c) = l.filter fun c => R + dt.toNat ≤ exp c :=
    List.filter_congr fun c hc => by rw [heq c hc]
  refine ⟨fun c hc => heq c hc ▸ h.not_before c hc, ?_⟩
  intro c hc
  rw [hfilter] at hc
  rw [heq c (List.mem_of_mem_filter (List.mem_of_mem_head? hc))]
  exact h.next c hc

lemma head?_insertAlarm (data : Ptr → AlarmData) (n : Ptr) (l : List Ptr) :
    (insertAlarm data n l).head? = some n ∨ (insertAlarm data n l).head? = l.head? := by
  cases l with
  | nil => exact Or.inl rfl
  | cons c l =>
    rw [insertAlarm_cons]
    split_ifs
    · exact Or.inl rfl
    · exact Or.inr rfl

end Insert

/-- The tick counts at which the alarms expire. -/
def expiration (ref : Ptr → ℕ) (data : Ptr → AlarmData) (p : Ptr) : ℕ := ref p + (data p).dt.toNat

/-- A call of `alarm_at`: the alarm, its reference as a tick count, and its `dt`. -/
structure Arming where
  alarm : Ptr
  reference : ℕ
  dt : U32

/-- The call of `alarm_at` that an action makes, also through `repeating_upcall`. -/
def armingOf (time : ℕ) (frequency : U32) (ref : Ptr → ℕ) (timers : Ptr → TockTimer)
    (tasks : List (TockTask Upcall)) : Action → Option Arming
  | .alarmAt ref dt _ _ x => some ⟨x, ref, dt⟩
  | .timerIn ms _ _ x => some ⟨x, time, ticks ms frequency⟩
  | .timerEvery ms _ _ x => some ⟨x, time, ticks ms frequency⟩
  | .yield => tasks.head?.bind fun k =>
    if k.cb = .repeatingUpcall then
      some ⟨k.ud, ref k.ud + (timers k.ud).interval.toNat, (timers k.ud).interval⟩
    else none
  | _ => none

namespace World

def arming (w : World State) (a : Action) : Option Arming :=
  armingOf w.time w.st.frequency w.ref w.st.timers w.st.queue.waiting a

/-- The alarm that the action arms, if it arms one, is placed right. -/
def Placed (w : World State) (a : Action) : Prop :=
  ∀ r ∈ w.arming a, ∀ l, IsChain w.st.next w.st.root l →
    PlacedRight (expiration w.ref w.st.data) l r.reference r.dt

/-- It is enough to find the list among some lists. -/
lemma Placed.of_mem (ls : List (List Ptr)) {w : World State} {a : Action}
    (h : ∀ r ∈ w.arming a, ∃ l ∈ ls, IsChain w.st.next w.st.root l ∧
      PlacedRight (expiration w.ref w.st.data) l r.reference r.dt) : Placed w a := by
  intro r hr l hl
  obtain ⟨l', -, hl', hplaced⟩ := h r hr
  rw [hl.unique hl']
  exact hplaced

/-- Intervals are below half a clock period, the reference passed to `alarm_at` is the current time,
and no linked alarm is overdue by more than half a clock period. -/
def InDomain (w : World State) (a : Action) : Prop :=
  (∀ r ∈ w.arming a, r.dt.toNat < 2 ^ 31) ∧ a.reference w.time = w.time ∧
    ∀ p, Linked w.st p → w.time ≤ expiration w.ref w.st.data p + 2 ^ 31

variable {v v' : World Schedule} {a : Action} {es : List Event}

/-- A step arms one alarm, or it takes alarms off the list and leaves their data alone. -/
lemma Effect.arming_cases (heff : Effect v a v' es) :
    (armingOf v.time v.st.frequency v.ref v.st.timers v.st.tasks a = none ∧
      v'.st.linked.Sublist v.st.linked ∧ v'.st.data = v.st.data ∧ v'.ref = v.ref) ∨
    ∃ x R d, armingOf v.time v.st.frequency v.ref v.st.timers v.st.tasks a = some ⟨x, R, d.dt⟩ ∧
      x ∉ v.st.linked ∧ v'.st.linked = insertAlarm v'.st.data x v.st.linked ∧
      v'.st.data = Function.update v.st.data x d ∧ v'.ref = Function.update v.ref x R := by
  cases heff with
  | quiet flags hact ht =>
    left
    rcases hact with ⟨_, rfl⟩ | ⟨_, _, rfl⟩ | ⟨rfl, htasks⟩
    · exact ⟨rfl, .refl _, rfl, rfl⟩
    · exact ⟨rfl, .refl _, rfl, rfl⟩
    · exact ⟨by simp [armingOf, htasks], .refl _, rfl, rfl⟩
  | refused hfull => exact Or.inl ⟨rfl, .refl _, rfl, rfl⟩
  | oneShot hact hx =>
    right
    rcases hact with rfl | ⟨⟨_, rfl, rfl⟩, rfl⟩
    · exact ⟨_, _, _, rfl, hx, rfl, rfl, rfl⟩
    · exact ⟨_, _, _, rfl, hx, rfl, rfl, rfl⟩
  | periodic hx => exact Or.inr ⟨_, _, _, rfl, hx, rfl, rfl, rfl⟩
  | cancel hact hi =>
    left
    refine ⟨?_, List.erase_sublist, rfl, rfl⟩
    cases a <;> first | rfl | cases hact
  | upcall hes hqueued ht hle hset => exact Or.inl ⟨rfl, List.drop_sublist _ _, rfl, rfl⟩
  | enqueue hroom => exact Or.inl ⟨rfl, .refl _, rfl, rfl⟩
  | user flags htasks horigin hcb =>
    exact Or.inl ⟨by simp [armingOf, htasks, hcb], .refl _, rfl, rfl⟩
  | repeating flags htasks horigin hcb hx hr hexp =>
    subst hr
    exact Or.inr ⟨_, _, ⟨_, _, _, _⟩, by simp [armingOf, htasks, hcb], hx, rfl, rfl, rfl⟩

/-- The kernel has been told the first alarm of the list. -/
def HeadSet (v : World Schedule) : Prop :=
  ∀ x, v.st.linked.head? = some x →
    v.st.alarmSet = some ((v.st.data x).reference, (v.st.data x).dt)

/-- Arming an alarm tells the kernel if it comes first. -/
lemma HeadSet.link (h : HeadSet v) {x : Ptr} (hx : x ∉ v.st.linked) (d : AlarmData)
    (timers : Ptr → TockTimer) (tasks : List (TockTask Upcall)) (flags : Ptr → Bool) :
    let a := { v.st with timers, tasks, flags }.link x d
    ∀ y, a.linked.head? = some y → a.alarmSet = some ((a.data y).reference, (a.data y).dt) := by
  intro a y hy
  by_cases hyx : y = x
  · subst hyx
    have hset : a.alarmSet = some (d.reference, d.dt) := if_pos hy
    simp [hset, a]
  · have hy' := hy
    have hset : a.alarmSet = v.st.alarmSet := by
      refine if_neg fun hc => hyx ?_
      exact Option.some.inj (hy.symm.trans hc)
    rcases head?_insertAlarm a.data x v.st.linked with hc | hc
    · exact absurd (Option.some.inj (hy.symm.trans hc)) hyx
    · rw [hset, h y (hc ▸ hy)]
      simp [a, Function.update_of_ne hyx]

lemma HeadSet.effect (h : HeadSet v) (heff : Effect v a v' es) : HeadSet v' := by
  cases heff with
  | oneShot hact hx => exact h.link hx _ v.st.timers v.st.tasks v.st.flags
  | periodic hx => exact h.link hx _ _ v.st.tasks v.st.flags
  | repeating flags htasks horigin hcb hx hr hexp => exact h.link hx _ v.st.timers _ flags
  | @cancel _ x hact hi =>
    intro y hy
    simp only [linked_unlink] at hy
    simp only [Schedule.unlink, hy, Option.map_some]
    split_ifs with hx
    · rfl
    · apply h y
      cases hl : v.st.linked with
      | nil => simp [hl] at hy
      | cons z l =>
        rw [hl, List.head?_cons, Option.some.injEq] at hx
        rwa [hl, List.erase_cons_tail (by simpa using hx)] at hy
  | upcall hes hqueued ht hle hset =>
    intro y hy
    rw [hset, hy]
    rfl
  | _ => exact h

/-- Arming an alarm that is not on the list changes no expiration there. -/
lemma expiration_update (ref : Ptr → ℕ) (data : Ptr → AlarmData) {x : Ptr} {l : List Ptr}
    (hx : x ∉ l) (R : ℕ) (d : AlarmData) : ∀ c ∈ l,
      expiration (Function.update ref x R) (Function.update data x d) c = expiration ref data c := by
  intro c hc
  simp [expiration, Function.update_of_ne (ne_of_mem_of_not_mem hc hx)]

/-- Along a run the order is kept by every step that places the alarm it arms right. -/
lemma Effect.inOrder (hv : Sound v) (h : InOrder (expiration v.ref v.st.data) v.st.linked)
    (hP : ∀ r ∈ armingOf v.time v.st.frequency v.ref v.st.timers v.st.tasks a,
      PlacedRight (expiration v.ref v.st.data) v.st.linked r.reference r.dt)
    (heff : Effect v a v' es) : InOrder (expiration v'.ref v'.st.data) v'.st.linked := by
  have hv' := heff.sound hv
  rcases heff.arming_cases with ⟨-, hsub, hdata, href⟩ | ⟨x, R, d, harm, hx, hlinked, hdata, href⟩
  · rw [hdata, href]
    exact List.Pairwise.sublist hsub h
  · have heq := expiration_update v.ref v.st.data hx R d
    rw [← hdata, ← href] at heq
    have hdx : v'.st.data x = d := by simp [hdata]
    have hRx : v'.ref x = R := by simp [href]
    rw [hlinked]
    refine PlacedRight.inOrder (R := R) ?_ ?_ (?_) (h.congr heq) ?_
    · rw [hv'.ref, hRx]
    · simp [expiration, hRx]
    · intro c _
      rw [hv'.ref]
      exact (Clock.ofNat_add_toNat _ _).symm
    · rw [hdx]
      exact (hP _ harm).congr heq

/-- In the other direction, if no alarm is overdue by more than half a clock period. -/
lemma Effect.placedRight (hv : Sound v) (h : InOrder (expiration v.ref v.st.data) v.st.linked)
    (heff : Effect v a v' es) {r : Arming}
    (harm : armingOf v.time v.st.frequency v.ref v.st.timers v.st.tasks a = some r)
    (hdt : r.dt.toNat < 2 ^ 31)
    (hover : ∀ c ∈ v.st.linked, r.reference ≤ expiration v.ref v.st.data c + 2 ^ 31)
    (h' : InOrder (expiration v'.ref v'.st.data) v'.st.linked) :
    PlacedRight (expiration v.ref v.st.data) v.st.linked r.reference r.dt := by
  have hv' := heff.sound hv
  rcases heff.arming_cases with ⟨hnone, -⟩ | ⟨x, R, d, harm', hx, hlinked, hdata, href⟩
  · rw [harm] at hnone
    cases hnone
  · obtain rfl : r = ⟨x, R, d.dt⟩ := Option.some.inj (harm.symm.trans harm')
    have heq := expiration_update v.ref v.st.data hx R d
    rw [← hdata, ← href] at heq
    have hdx : v'.st.data x = d := by simp [hdata]
    have hRx : v'.ref x = R := by simp [href]
    rw [hlinked] at h'
    have := InOrder.placedRight (R := R) (by rw [hv'.ref, hRx]) (by simp [expiration, hRx])
      (fun c _ => by
        rw [hv'.ref]
        exact (Clock.ofNat_add_toNat _ _).symm)
      (h.congr heq) (fun c hc => by rw [heq c hc]; exact hover c hc) (by rw [hdx]; exact hdt) h'
    rw [hdx] at this
    exact this.congr fun c hc => (heq c hc).symm

/-- In every run in which each alarm is placed right when it is armed, the list is in order of
absolute expiration and the kernel has been told the alarm that expires first. And where no alarm
is overdue by more than half a clock period, a step from there keeps the order only if it places
the alarm it arms right. -/
theorem alarms_in_order {w₀ w : World State} {tr : List Event} (h₀ : Initial w₀)
    (hrun : Run (Guarded Step Placed) w₀ tr w) :
    ∃ l, IsChain w.st.next w.st.root l ∧ InOrder (expiration w.ref w.st.data) l ∧
      (∀ x, l.head? = some x →
        w.st.alarmSet = some ((w.st.alarms x).reference, (w.st.alarms x).dt) ∧
        ∀ y ∈ l, expiration w.ref w.st.data x ≤ expiration w.ref w.st.data y) ∧
      ∀ a r w' es, w.arming a = some r → Step w a w' es → r.dt.toNat < 2 ^ 31 →
        (∀ c ∈ l, r.reference ≤ expiration w.ref w.st.data c + 2 ^ 31) →
        ((∀ l', IsChain w'.st.next w'.st.root l' → InOrder (expiration w'.ref w'.st.data) l') ↔
          Placed w a) := by
  have harming : ∀ {w v}, Stores w v → ∀ a, w.arming a
      = armingOf v.time v.st.frequency v.ref v.st.timers v.st.tasks a := fun hst a => by
    rw [arming, hst.time, hst.st.frequency, hst.ref, hst.st.timers, hst.st.waiting]
  have hplaced : ∀ {w v}, Stores w v → ∀ a, Placed w a ↔
      ∀ r ∈ armingOf v.time v.st.frequency v.ref v.st.timers v.st.tasks a,
        PlacedRight (expiration v.ref v.st.data) v.st.linked r.reference r.dt := by
    intro w v hst a
    rw [Placed, harming hst, hst.ref, hst.st.data]
    constructor
    · exact fun h r hr => h r hr _ hst.st.list.chain
    · intro h r hr l hl
      rw [hl.unique hst.st.list.chain]
      exact h r hr
  obtain ⟨v, hst, hv, hsorted, hhead⟩ := h₀.run
    (fun _ v => InOrder (expiration v.ref v.st.data) v.st.linked ∧ HeadSet v)
    (fun _ v a v' es hv h hP heff => ⟨heff.inOrder hv h.1 hP, h.2.effect heff⟩)
    (fun w v a hst hP => (hplaced hst a).mp hP) ⟨List.Pairwise.nil, fun x hx => by cases hx⟩ hrun
  have hsorted' : InOrder (expiration w.ref w.st.data) v.st.linked := by
    rw [hst.ref, hst.st.data]
    exact hsorted
  refine ⟨_, hst.st.list.chain, hsorted', fun x hx => ⟨?_, ?_⟩,
    ?_⟩
  · rw [hst.st.alarmSet, hhead x hx, ← hst.st.data]
    rfl
  · intro y hy
    obtain ⟨l, hl⟩ := List.head?_eq_some_iff.mp hx
    rw [hl] at hy hsorted'
    rcases List.mem_cons.mp hy with rfl | hy
    · exact le_rfl
    · exact (List.pairwise_cons.mp hsorted').1 y hy
  · intro a r w' es harm hstep hdt hover
    obtain ⟨v', hplan, hst'⟩ := hstep.plan hst
    have heff := hplan.effect hv
    rw [hplaced hst a, hst'.ref, hst'.st.data]
    rw [hst.ref, hst.st.data] at hover
    rw [harming hst] at harm
    constructor
    · intro h r' hr'
      obtain rfl : r = r' := Option.some.inj (harm.symm.trans hr')
      exact heff.placedRight hv hsorted harm hdt hover (h _ hst'.st.list.chain)
    · intro hP l' hl'
      rw [hl'.unique hst'.st.list.chain]
      exact heff.inOrder hv hsorted hP

/-- Alarms of which each is armed before the first of the others expires. -/
theorem alarms_in_order_on_time :
    ∃ (w : World State) (tr : List Event), Run (Guarded Step Placed) (boot 1000) tr w ∧
      IsChain w.st.next w.st.root [2, 6] ∧ InOrder (expiration w.ref w.st.data) [2, 6] ∧
      w.st.alarmSet = some (3, 3) := by
  have h : execAny (fun w a => ∀ r ∈ w.arming a, ∃ l ∈ ([[], [2], [4], [4, 2]] : List (List Ptr)),
        IsChain w.st.next w.st.root l ∧
          PlacedRight (expiration w.ref w.st.data) l r.reference r.dt) (boot 1000)
      [.timerEvery 3 (.app 1) 10 2, .timerIn 4 (some (.app 3)) 11 4, .tick 3, .upcall fun _ => 0,
        .yield, .timerIn 9 none 0 6, .tick 1, .upcall fun _ => 0, .yield]
      (fun w _ => decide (IsChain w.st.next w.st.root [2, 6]) &&
        decide (w.st.alarmSet = some (3, 3))) = true := by decide +kernel
  obtain ⟨w, tr, hrun, htest⟩ := run_of_execAny h
  simp only [Bool.and_eq_true, decide_eq_true_eq] at htest
  have hrun' : Run (Guarded Step Placed) (boot 1000) tr w :=
    hrun.mono fun _ _ _ _ hstep => ⟨.of_mem _ hstep.1, hstep.2⟩
  obtain ⟨l, hchain, hsorted, -⟩ := alarms_in_order (boot_initial 1000) hrun'
  obtain rfl := hchain.unique htest.1
  exact ⟨w, tr, hrun', htest.1, hsorted, htest.2⟩

/-- An alarm is due at 10 and has not been served when, at 20, another one is armed for 25: the new
alarm goes in front, and the kernel is told of it. -/
theorem alarms_out_of_order :
    ∃ (w : World State) (tr : List Event), Run (Guarded Step InDomain) (boot 1000) tr w ∧
      IsChain w.st.next w.st.root [4, 2] ∧ ¬ InOrder (expiration w.ref w.st.data) [4, 2] ∧
      expiration w.ref w.st.data 2 = 10 ∧ expiration w.ref w.st.data 4 = 25 ∧
      w.st.alarmSet = some (20, 5) := by
  have h : execAny (fun w a => (∀ r ∈ w.arming a, r.dt.toNat < 2 ^ 31) ∧
        a.reference w.time = w.time ∧ w.time ≤ 20) (boot 1000)
      [.timerIn 10 (some (.app 1)) 10 2, .tick 20, .timerIn 5 (some (.app 3)) 11 4]
      (fun w _ => decide (IsChain w.st.next w.st.root [4, 2]) &&
        decide (expiration w.ref w.st.data 2 = 10) && decide (expiration w.ref w.st.data 4 = 25) &&
        decide (w.st.alarmSet = some (20, 5))) = true := by decide +kernel
  obtain ⟨w, tr, hrun, htest⟩ := run_of_execAny h
  simp only [Bool.and_eq_true, decide_eq_true_eq] at htest
  obtain ⟨⟨⟨hchain, h2⟩, h4⟩, hset⟩ := htest
  refine ⟨w, tr, hrun.mono fun w _ _ _ hstep => ⟨⟨hstep.1.1, hstep.1.2.1, ?_⟩, hstep.2⟩,
    hchain, by simp [InOrder, h2, h4], h2, h4, hset⟩
  intro p _
  exact (hstep.1.2.2.trans (by decide)).trans (Nat.le_add_left _ _)

end World

end Alarm
