import Libtock.UnitTest.Session

/-!
# What a step of the world does to the sessions

Every step is one of a single session, except that the end of a runner's turn is also the start of
the next one's. With it goes the list of pending runners: the first one has its turn, the others are
queued.
-/

namespace UnitTest

open Core Tock

/-! ### The supervisor's memory -/

namespace Supervisor

variable {s : Supervisor} {l : List Ptr} {p q : Ptr}

lemma listAppend_unlinked (p q : Ptr) (s : Supervisor) :
    ((s.listAppend p).tests q).unlinked = (s.tests q).unlinked := by
  rw [listAppend]
  cases s.tail with
  | none =>
    simp only [setNext, update_tests]
    split_ifs <;> rfl
  | some last =>
    simp only [setNext, update_tests]
    split_ifs <;> rfl

@[simp] lemma listPop_tests (s : Supervisor) : s.listPop.tests = s.tests := by
  rw [listPop]
  split
  · rfl
  · dsimp only
    split_ifs <;> rfl

lemma update_unlinked_of_ne (f : UnitTestT → UnitTestT) (hq : q ≠ p) :
    ((s.update p f).tests q).unlinked = (s.tests q).unlinked := by
  rw [update_tests, if_neg hq]

lemma setPid_unlinked_of_ne (pid : ℤ) (hq : q ≠ p) :
    ((s.setPid p pid).tests q).unlinked = (s.tests q).unlinked := update_unlinked_of_ne _ hq

@[simp] lemma counted_next (t : UnitTestT) : t.counted.next = t.next := by
  rw [UnitTestT.counted]
  split_ifs <;> rfl

lemma counted_unlinked (t : UnitTestT) : t.counted.unlinked = t.unlinked.counted := by
  by_cases hresult : t.result = .passed <;> simp [UnitTestT.counted, UnitTestT.unlinked, hresult]

/-- The object of a runner that is not pending may be overwritten. -/
lemma Pending.overwrite (h : s.Pending l) (hp : p ∉ l) (f : UnitTestT → UnitTestT) :
    (s.update p f).Pending l := by
  refine ⟨h.1.congr fun q hq => ?_, h.2⟩
  have hne : q ≠ p := fun heq => hp (heq ▸ hq)
  rw [update_tests, if_neg hne]

lemma Pending.update_const (h : s.Pending l) {test : UnitTestT}
    (htest : test.next = (s.tests p).next) : (s.update p fun _ => test).Pending l := by
  refine ⟨h.1.congr fun q _ => ?_, h.2⟩
  rw [update_tests]
  split_ifs with hq
  · rw [htest, hq]
  · rfl

end Supervisor

/-! ### The sessions after a part of a callback -/

namespace World

variable {c : Processes} {w w' : World} {l : List Ptr} {p q : Ptr} {r : Part} {stack : List Frame}

lemma foldl_perform (es : List Event) (w : World) :
    (es.foldl perform w).supervisor = w.supervisor ∧ (es.foldl perform w).pc = w.pc ∧
      (es.foldl perform w).done = w.done ∧ (es.foldl perform w).messages = w.messages ∧
      (es.foldl perform w).stack = w.stack := by
  induction es generalizing w with
  | nil => exact ⟨rfl, rfl, rfl, rfl, rfl⟩
  | cons e es ih =>
    obtain ⟨hs, hpc, hdone, hm, hstack⟩ := ih (w.perform e)
    cases e <;> exact ⟨hs, hpc, hdone, hm, hstack⟩

lemma foldl_perform_notifications (es : List Event) (w : World) (pid : ℤ) :
    (es.foldl perform w).notifications pid =
      w.notifications pid + es.count (.ipcNotifyClient pid) := by
  induction es generalizing w with
  | nil => rfl
  | cons e es ih =>
    rw [List.foldl_cons, ih, List.count_cons]
    cases e with
    | ipcNotifyClient pid' =>
      by_cases hpid : pid = pid'
      · subst hpid
        simp [perform]
        omega
      · simp [perform, hpid, Ne.symm hpid]
    | _ => simp [perform]

/-- The session of any runner. -/
lemma session_carryOut (c : Processes) (w : World) (r : Part) (stack : List Frame) (q : Ptr) :
    (w.carryOut r stack).session c q =
      { pc := w.pc q
        done := w.done q
        test := (r.supervisor.tests q).unlinked
        messages := w.messages q
        notifications := w.notifications (c.pid q) + r.events.count (.ipcNotifyClient (c.pid q))
        frames := (r.frames ++ stack).filter fun f => f.test = q } := by
  obtain ⟨hs, hpc, hdone, hm, hstack⟩ := foldl_perform r.events
    { w with supervisor := r.supervisor, stack := r.frames ++ stack }
  have hn := foldl_perform_notifications r.events
    { w with supervisor := r.supervisor, stack := r.frames ++ stack } (c.pid q)
  simp only [session, carryOut, hs, hpc, hdone, hm, hstack, hn]

lemma carryOut_supervisor (w : World) (r : Part) (stack : List Frame) :
    (w.carryOut r stack).supervisor = r.supervisor :=
  (foldl_perform r.events { w with supervisor := r.supervisor, stack := r.frames ++ stack }).1

/-- A part of a callback for one runner leaves the others alone. -/
lemma session_carryOut_of_ne (hq : q ≠ p)
    (htest : (r.supervisor.tests q).unlinked = (w.supervisor.tests q).unlinked)
    (hevents : r.events.count (.ipcNotifyClient (c.pid q)) = 0)
    (hframes : ∀ f ∈ r.frames, f.test = p)
    (hstack : stack.filter (fun f => f.test = q) = w.stack.filter fun f => f.test = q) :
    (w.carryOut r stack).session c q = w.session c q := by
  have hnone : r.frames.filter (fun f => f.test = q) = [] := by
    rw [List.filter_eq_nil_iff]
    intro f hf
    simpa [hframes f hf] using hq.symm
  rw [session_carryOut, session, htest, hevents, List.filter_append, hnone, hstack, Nat.add_zero,
    List.nil_append]

/-! ### The invariant -/

/-- The list of pending runners, and the handshake with each one. -/
structure Inv (c : Processes) (w : World) (l : List Ptr) : Prop where
  pending : w.supervisor.Pending l
  ok : ∀ p, (w.session c p).Ok c p
  active : ∀ p, (w.session c p).turn = .active ↔ l.head? = some p
  queued : ∀ p, (w.session c p).turn = .queued ↔ p ∈ l.tail

lemma Inv.mem_iff (h : w.Inv c l) :
    p ∈ l ↔ (w.session c p).turn = .active ∨ (w.session c p).turn = .queued := by
  rw [h.active, h.queued]
  cases l with
  | nil => simp
  | cons first l => simp [eq_comm]

lemma Inv.not_mem (h : w.Inv c l) (hbefore : (w.session c p).turn = .before) : p ∉ l := by
  rw [h.mem_iff, hbefore]
  nofun

/-- The runner whose turn it is. -/
lemma Inv.eq_cons (h : w.Inv c l) (hactive : (w.session c p).turn = .active) :
    l = p :: l.tail := by
  have hhead := (h.active p).mp hactive
  cases l with
  | nil => cases hhead
  | cons first l =>
    cases hhead
    rfl

lemma Inv.pid (h : w.Inv c l) (hne : (w.session c p).turn ≠ .before) :
    (w.supervisor.tests p).pid = c.pid p :=
  (h.ok p).registered hne

/-! ### The effect of a step -/

/-- The supervisor searches for ever. -/
def Hung (w : World) : Prop := ∃ p, w.stack.head? = some (.searches p)

lemma not_hung (h : w.supervisorYields = true) : ¬ w.Hung := by
  rintro ⟨p, hp⟩
  simp [supervisorYields, hp, Frame.yields] at h

inductive Effect (c : Processes) (w w' : World) (a : Action) :
    List Ptr → List Ptr → List Note → Prop
  | idle {l : List Ptr} (hothers : ∀ q, w'.session c q = w.session c q) : Effect c w w' a l l []
  | own {l : List Ptr} {p : Ptr} {label : Label} {es : List Note}
      (hlabel : label = .own ∨ label = .timeout ∧ a = .timeout p)
      (hstep : (w.session c p).Step c p label (w'.session c p) es)
      (hothers : ∀ q ≠ p, w'.session c q = w.session c q) :
    Effect c w w' a l l es
  | search {l : List Ptr} {p : Ptr} {es : List Note} (hhung : ¬ w.Hung) (hhung' : w'.Hung)
      (hstep : (w.session c p).Step c p .search (w'.session c p) es)
      (hothers : ∀ q ≠ p, w'.session c q = w.session c q) :
    Effect c w w' a l l es
  | enlist {l : List Ptr} {p : Ptr} {es : List Note} (hp : p ∉ l) (hhung : ¬ w.Hung)
      (hstep : (w.session c p).Step c p (.enlist (l = [])) (w'.session c p) es)
      (hothers : ∀ q ≠ p, w'.session c q = w.session c q) :
    Effect c w w' a l (l ++ [p]) es
  /-- Other notes than the message are for the next runner. -/
  | release {l : List Ptr} {p : Ptr} {es : List Note}
      (hstep : (w.session c p).Step c p .release (w'.session c p) es)
      (hnext : ∀ q ∈ l.head?, (w.session c q).Step c q .letIn (w'.session c q)
        [.does (.ipcNotifyClient (c.pid q))])
      (hothers : ∀ q ≠ p, q ∉ l.head? → w'.session c q = w.session c q) :
    Effect c w w' a (p :: l) l
      (es ++ l.head?.toList.map fun q => .does (.ipcNotifyClient (c.pid q)))

variable {find : Search} {a : Action} {es : List Note}

lemma Effect.own_of_eq {label : Label} {x : Session} (hx : w'.session c p = x)
    (hlabel : label = .own ∨ label = .timeout ∧ a = .timeout p)
    (hstep : (w.session c p).Step c p label x es)
    (hothers : ∀ q ≠ p, w'.session c q = w.session c q) : Effect c w w' a l l es :=
  .own hlabel (hx ▸ hstep) hothers

/-! ### Steps of a runner -/

lemma effect_call (hinv : w.Inv c l) (h : Step c find w (.call p) w' es) :
    Effect c w w' (.call p) l l es ∧ w'.supervisor.Pending l := by
  simp only [Step, step] at h
  split at h
  · next hpc =>
    cases h
    have hbefore : (w.session c p).turn = .before := by simp [Session.turn, session, hpc]
    refine ⟨.own_of_eq (p := p) ?_ (.inl rfl) (.call hpc) fun q hq => ?_,
      hinv.pending.overwrite (hinv.not_mem hbefore) fun _ => (c.arguments p).initialTest⟩
    · simp only [session, Supervisor.update_tests, if_true, Function.update_self]
      rfl
    · simp only [session, Supervisor.update_unlinked_of_ne _ hq, Function.update_of_ne hq]
  · cases h

lemma effect_access (hinv : w.Inv c l) (h : Step c find w (.access p) w' es) :
    Effect c w w' (.access p) l l es ∧ w'.supervisor.Pending l := by
  simp only [Step, step] at h
  split at h
  · next pc test haccess =>
    cases h
    refine ⟨.own_of_eq (p := p) ?_ (.inl rfl) (.access (Pc.access_unlinked haccess))
      fun q hq => ?_, hinv.pending.update_const (Pc.access_next haccess)⟩
    · simp only [session, Supervisor.update_tests, if_true, Function.update_self]
    · simp only [session, Supervisor.update_unlinked_of_ne _ hq, Function.update_of_ne hq]
  · cases h

lemma effect_notify (hinv : w.Inv c l) (h : Step c find w (.notify p) w' es) :
    Effect c w w' (.notify p) l l es ∧ w'.supervisor.Pending l := by
  simp only [Step, step] at h
  split at h
  · next y hpc =>
    cases h
    refine ⟨.own_of_eq (p := p) ?_ (.inl rfl) (.notify hpc) fun q hq => ?_, hinv.pending⟩
    · simp only [session, Function.update_self]
    · simp only [session, Function.update_of_ne hq]
  · cases h

lemma effect_wake (hinv : w.Inv c l) (h : Step c find w (.wake p) w' es) :
    Effect c w w' (.wake p) l l es ∧ w'.supervisor.Pending l := by
  simp only [Step, step] at h
  split at h
  · next y hpc =>
    split at h
    · next hdone =>
      cases h
      refine ⟨.own_of_eq (p := p) ?_ (.inl rfl) (.wake hpc hdone) fun q hq => ?_, hinv.pending⟩
      · simp only [session, Function.update_self]
      · simp only [session, Function.update_of_ne hq]
    · cases h
  · cases h

lemma effect_finish {passed : Bool} {reason : Fin 72 → U8} (hinv : w.Inv c l)
    (h : Step c find w (.finish p passed reason) w' es) :
    Effect c w w' (.finish p passed reason) l l es ∧ w'.supervisor.Pending l := by
  simp only [Step, step] at h
  split at h
  · next i hpc =>
    cases h
    refine ⟨.own_of_eq (p := p) ?_ (.inl rfl) (.finish passed reason hpc) fun q hq => ?_,
      hinv.pending⟩
    · simp only [session, Function.update_self]
    · simp only [session, Function.update_of_ne hq]
  · cases h

lemma effect_continueCallback (hinv : w.Inv c l) (h : Step c find w (.continueCallback p) w' es) :
    Effect c w w' (.continueCallback p) l l es ∧ w'.supervisor.Pending l := by
  simp only [Step, step] at h
  split at h
  · next hyields =>
    cases h
    refine ⟨.own_of_eq (p := p) ?_ (.inl rfl) (.continueCallback hyields.1 hyields.2)
      fun q hq => ?_, hinv.pending⟩
    · simp only [session, Function.update_self]
    · have hpid : c.pid q ≠ c.pid p := fun heq => hq (c.pid_injective heq)
      simp only [session, Function.update_of_ne hq, Function.update_of_ne hpid]
  · cases h

lemma effect_expire (hinv : w.Inv c l) (h : Step c find w (.expire p) w' es) :
    Effect c w w' (.expire p) l l es ∧ w'.supervisor.Pending l := by
  simp only [Step, step] at h
  split at h
  · cases h
    exact ⟨.idle fun q => rfl, hinv.pending⟩
  · cases h

/-! ### Callbacks -/

lemma effect_timeout (hinv : w.Inv c l) (h : Step c find w (.timeout p) w' es) :
    Effect c w w' (.timeout p) l l es ∧ w'.supervisor.Pending l := by
  simp only [Step, step] at h
  split at h
  · cases h
    refine ⟨.own_of_eq (p := p) ?_ (.inr ⟨rfl, rfl⟩) .timeout fun q hq => ?_, ?_⟩
    · rw [session_carryOut]
      simp [session, Supervisor.beginTimeout, Supervisor.update_tests, Frame.test,
        UnitTestT.unlinked]
    · have htest : ((w.supervisor.beginTimeout p).supervisor.tests q).unlinked =
          (w.supervisor.tests q).unlinked := by
        simp only [Supervisor.beginTimeout, Supervisor.update_unlinked_of_ne _ hq]
      exact session_carryOut_of_ne hq htest rfl
        (by simp [Supervisor.beginTimeout, Frame.test]) rfl
    · rw [carryOut_supervisor]
      exact hinv.pending.update (f := fun t => { t with result := .timeout }) fun _ => rfl
  · cases h

/-- The world when a message is taken. -/
def take (w : World) (p : Ptr) : World :=
  { w with messages := Function.update w.messages p (w.messages p - 1) }

lemma session_take_of_ne (hq : q ≠ p) : (w.take p).session c q = w.session c q := by
  simp only [session, take, Function.update_of_ne hq]

lemma session_take_carryOut (c : Processes) (w : World) (r : Part) (p : Ptr) :
    ((w.take p).carryOut r w.stack).session c p =
      { w.session c p with
        messages := w.messages p - 1
        test := (r.supervisor.tests p).unlinked
        notifications := w.notifications (c.pid p) + r.events.count (.ipcNotifyClient (c.pid p))
        frames := r.frames.filter (fun f => f.test = p) ++ (w.session c p).frames } := by
  rw [session_carryOut]
  simp only [session, take, Function.update_self, List.filter_append]

/-- A first part that only writes to the object of its runner. -/
lemma session_take_carryOut_of_ne (hq : q ≠ p)
    (htest : (r.supervisor.tests q).unlinked = (w.supervisor.tests q).unlinked)
    (hevents : r.events.count (.ipcNotifyClient (c.pid q)) = 0)
    (hframes : ∀ f ∈ r.frames, f.test = p) :
    ((w.take p).carryOut r w.stack).session c q = w.session c q :=
  (session_carryOut_of_ne (w := w.take p) hq htest hevents hframes rfl).trans
    (session_take_of_ne hq)

lemma count_notify (c : Processes) (p q : Ptr) :
    [Event.ipcNotifyClient (c.pid p)].count (.ipcNotifyClient (c.pid q)) =
      if q = p then 1 else 0 := by
  by_cases hq : q = p
  · subst hq
    simp
  · have hpid : c.pid p ≠ c.pid q := fun heq => hq (c.pid_injective heq).symm
    simp [hpid, hq]

lemma count_notify_of_ne (hq : q ≠ p) :
    [Event.ipcNotifyClient (c.pid p)].count (.ipcNotifyClient (c.pid q)) = 0 := by
  rw [count_notify, if_neg hq]

end World

namespace Supervisor

variable {s : Supervisor} {l : List Ptr} {p : Ptr} {find : Search} {c : Processes} {found : Bool}

/-- A search that returns does not find a runner that starts, which becomes the last one. -/
lemma beginInit_eq (h : s.Pending l) (hp : p ∉ l) (hpids : ∀ q ∈ l, (s.tests q).pid = c.pid q)
    (hrun : find.run (s.setPid p (c.pid p)) p = some found) :
    s.beginInit find (c.pid p) p =
      some ⟨(s.setPid p (c.pid p)).listAppend p,
        if l = [] then [.ipcNotifyClient (c.pid p)] else [], []⟩ := by
  obtain rfl : found = false := by
    rw [find.sound h.setPid hrun]
    exact decide_eq_false hp
  have hpending : ((s.setPid p (c.pid p)).listAppend p).Pending (l ++ [p]) := h.setPid.append hp
  have hpid (q : Ptr) : (((s.setPid p (c.pid p)).listAppend p).tests q).pid =
      if q = p then c.pid p else (s.tests q).pid := by
    refine (congrArg UnitTestT.pid (listAppend_unlinked p q _)).trans ?_
    simp only [UnitTestT.unlinked, setPid, update_tests]
    split_ifs <;> rfl
  have hhead := hpending.1.head_eq
  cases l with
  | nil =>
    simp only [List.nil_append, List.head?_cons] at hhead
    simp only [beginInit, hrun, Bool.false_eq_true, if_false, hhead, hpid, if_true]
  | cons first l =>
    simp only [List.cons_append, List.head?_cons] at hhead
    have hne : first ≠ p := fun heq => hp (heq ▸ List.mem_cons_self)
    have hother : c.pid first ≠ c.pid p := fun heq => hne (c.pid_injective heq)
    simp only [beginInit, hrun, Bool.false_eq_true, if_false, hhead, hpid, hne,
      hpids first List.mem_cons_self, hother, reduceCtorEq]

/-- The notifications at the end of a turn. -/
def releaseEvents (c : Processes) (p : Ptr) (l : List Ptr) : List Event :=
  .ipcNotifyClient (c.pid p) :: l.head?.toList.map fun q => .ipcNotifyClient (c.pid q)

lemma endCleanup_eq (h : s.Pending (p :: l)) (hpids : ∀ q ∈ p :: l, (s.tests q).pid = c.pid q) :
    s.endCleanup p = ⟨s.listPop, releaseEvents c p l, []⟩ := by
  have hhead := h.pop.1.head_eq
  cases l with
  | nil =>
    simp only [List.head?_nil] at hhead
    simp [endCleanup, releaseEvents, hhead, hpids p List.mem_cons_self]
  | cons q l =>
    simp only [List.head?_cons] at hhead
    simp [endCleanup, releaseEvents, hhead, hpids p List.mem_cons_self, hpids q]

lemma count_releaseEvents (hp : p ∉ l) (q : Ptr) :
    (releaseEvents c p l).count (.ipcNotifyClient (c.pid q)) =
      if q = p ∨ q ∈ l.head? then 1 else 0 := by
  cases l with
  | nil => simp [releaseEvents, World.count_notify]
  | cons first l =>
    have hne : first ≠ p := fun heq => hp (heq ▸ List.mem_cons_self)
    have hcount : (releaseEvents c p (first :: l)).count (.ipcNotifyClient (c.pid q)) =
        (if q = p then 1 else 0) + if q = first then 1 else 0 := by
      rw [← World.count_notify c, ← World.count_notify c, ← List.count_append]
      rfl
    rw [hcount]
    by_cases hq : q = p
    · subst hq
      simp [Ne.symm hne]
    · simp [hq, eq_comm]

end Supervisor

namespace World

variable {c : Processes} {w w' : World} {l : List Ptr} {p q : Ptr} {r : Part} {stack : List Frame}
  {find : Search} {a : Action} {es : List Note}

lemma Inv.pids (h : w.Inv c l) : ∀ q ∈ l, (w.supervisor.tests q).pid = c.pid q := by
  intro q hq
  refine h.pid fun hbefore => h.not_mem hbefore hq

lemma step_service (h : Step c find w (.service p) w' es) :
    0 < w.messages p ∧ ¬ w.Hung ∧ ∃ r, w.supervisor.beginService find (c.pid p) p = some r ∧
      w' = (w.take p).carryOut r w.stack ∧
      es = .handles (c.pid p) (w.supervisor.tests p).cmd (w.supervisor.tests p).current ::
        r.events.map .does := by
  simp only [Step, step] at h
  split at h
  · next hmessage =>
    obtain ⟨r, hr, heq⟩ := Option.map_eq_some_iff.mp h
    cases heq
    exact ⟨hmessage.1, not_hung hmessage.2, r, hr, rfl, rfl⟩
  · cases h

/-- The runner whose message is taken has been registered, unless it is the first one. -/
lemma Inv.pid_of_message (h : w.Inv c l) (hmessage : 0 < w.messages p)
    (hcmd : (w.supervisor.tests p).cmd ≠ .testInit) : (w.supervisor.tests p).pid = c.pid p := by
  obtain ⟨y, hpc, hy, -⟩ := (h.ok p).of_message hmessage
  refine h.pid (Session.turn_ne_before hpc ?_)
  rintro rfl
  exact hcmd hy

lemma effect_init (hinv : w.Inv c l) (hcmd : (w.supervisor.tests p).cmd = .testInit)
    (h : Step c find w (.service p) w' es) :
    ∃ l', Effect c w w' (.service p) l l' es ∧ w'.supervisor.Pending l' := by
  obtain ⟨hmessage, hhung, r, hr, rfl, rfl⟩ := step_service h
  simp only [Supervisor.beginService, hcmd] at hr ⊢
  have hbefore : (w.session c p).turn = .before := by
    have hpc := (hinv.ok p).waits_testInit hmessage hcmd
    exact Session.turn_waits_testInit hpc (Nat.add_pos_left hmessage _)
  have hp := hinv.not_mem hbefore
  cases hrun : find.run (w.supervisor.setPid p (c.pid p)) p with
  | none =>
    simp only [Supervisor.beginInit, hrun, Option.some.injEq] at hr
    subst hr
    have hx : ((w.take p).carryOut ⟨w.supervisor.setPid p (c.pid p), [], [.searches p]⟩
        w.stack).session c p =
          { w.session c p with
            messages := w.messages p - 1
            test := { (w.session c p).test with pid := c.pid p }
            frames := .searches p :: (w.session c p).frames } := by
      rw [session_take_carryOut]
      simp [session, Supervisor.setPid, Supervisor.update_tests, Frame.test, UnitTestT.unlinked]
    refine ⟨l, .search (p := p) hhung ⟨p, rfl⟩ ?_ fun q hq => ?_, ?_⟩
    · rw [hx]
      exact .searches hmessage hcmd
    · exact session_take_carryOut_of_ne hq (Supervisor.setPid_unlinked_of_ne _ hq) rfl
        (by simp [Frame.test])
    · rw [carryOut_supervisor]
      exact hinv.pending.setPid
  | some found =>
    rw [Supervisor.beginInit_eq hinv.pending hp hinv.pids hrun, Option.some.injEq] at hr
    subst hr
    have hevents : (if l = [] then [Event.ipcNotifyClient (c.pid p)] else []).map Note.does =
        if decide (l = []) = true then [.does (.ipcNotifyClient (c.pid p))] else [] := by
      by_cases hl : l = [] <;> simp [hl]
    refine ⟨l ++ [p], .enlist hp hhung ?_ fun q hq => ?_, ?_⟩
    · have hx : ((w.take p).carryOut ⟨(w.supervisor.setPid p (c.pid p)).listAppend p,
          if l = [] then [.ipcNotifyClient (c.pid p)] else [], []⟩ w.stack).session c p =
          { w.session c p with
            messages := w.messages p - 1
            test := { (w.session c p).test with pid := c.pid p }
            notifications :=
              w.notifications (c.pid p) + if decide (l = []) = true then 1 else 0 } := by
        rw [session_take_carryOut, Supervisor.listAppend_unlinked]
        by_cases hl : l = [] <;>
          simp [hl, session, Supervisor.setPid, Supervisor.update_tests, UnitTestT.unlinked]
      rw [hx, hevents]
      exact .init hmessage hcmd
    · refine session_take_carryOut_of_ne hq ?_ ?_ (by simp)
      · rw [Supervisor.listAppend_unlinked]
        exact Supervisor.setPid_unlinked_of_ne _ hq
      · by_cases hl : l = [] <;> simp only [hl, if_true, if_false, List.count_nil]
        exact count_notify_of_ne hq
    · rw [carryOut_supervisor]
      exact hinv.pending.setPid.append hp

lemma effect_start (hinv : w.Inv c l) (hcmd : (w.supervisor.tests p).cmd = .testStart)
    (h : Step c find w (.service p) w' es) :
    Effect c w w' (.service p) l l es ∧ w'.supervisor.Pending l := by
  obtain ⟨hmessage, -, r, hr, rfl, rfl⟩ := step_service h
  have hpid := hinv.pid_of_message hmessage (by simp [hcmd])
  simp only [Supervisor.beginService, hcmd, Supervisor.beginStart, hpid, Option.some.injEq]
    at hr ⊢
  subst hr
  refine ⟨.own_of_eq (p := p) ?_ (.inl rfl) (.start hmessage hcmd) fun q hq => ?_, ?_⟩
  · rw [session_take_carryOut]
    simp [session]
  · refine session_take_carryOut_of_ne hq rfl ?_ (by simp)
    exact (List.count_cons_of_ne (by simp)).trans (count_notify_of_ne hq)
  · rw [carryOut_supervisor]
    exact hinv.pending

lemma effect_end (hinv : w.Inv c l) (hcmd : (w.supervisor.tests p).cmd = .testEnd)
    (h : Step c find w (.service p) w' es) :
    Effect c w w' (.service p) l l es ∧ w'.supervisor.Pending l := by
  obtain ⟨hmessage, -, r, hr, rfl, rfl⟩ := step_service h
  simp only [Supervisor.beginService, hcmd, Option.some.injEq] at hr ⊢
  subst hr
  by_cases hresult : (w.supervisor.tests p).result = .timeout
  · simp only [Supervisor.beginEnd, hresult, ne_eq, not_true_eq_false, if_false]
    refine ⟨.own_of_eq (p := p) ?_ (.inl rfl) (.stopTimeout hmessage hcmd hresult)
      fun q hq => session_take_carryOut_of_ne hq rfl rfl (by simp), ?_⟩
    · rw [session_take_carryOut]
      simp [session]
    · rw [carryOut_supervisor]
      exact hinv.pending
  · simp only [Supervisor.beginEnd, hresult, ne_eq, not_false_eq_true, if_true]
    refine ⟨.own_of_eq (p := p) ?_ (.inl rfl) (.stop hmessage hcmd hresult) fun q hq => ?_, ?_⟩
    · rw [session_take_carryOut]
      simp [session, Supervisor.update_tests, Frame.test, Supervisor.counted_unlinked]
    · exact session_take_carryOut_of_ne hq
        (Supervisor.update_unlinked_of_ne UnitTestT.counted hq) rfl (by simp [Frame.test])
    · rw [carryOut_supervisor]
      exact hinv.pending.update Supervisor.counted_next

/-- The end of a turn, in a world where only the session of the runner differs. -/
lemma effect_release {w₀ : World} (hinv : w.Inv c (p :: l))
    (hw₀ : ∀ q ≠ p, w₀.session c q = w.session c q)
    (hstack : ∀ q ≠ p, stack.filter (fun f => f.test = q) = w₀.stack.filter fun f => f.test = q)
    (hw' : w' = w₀.carryOut ⟨w.supervisor.listPop, Supervisor.releaseEvents c p l, []⟩ stack)
    (hstep : (w.session c p).Step c p .release (w'.session c p) es) :
    Effect c w w' a (p :: l) l
        (es ++ l.head?.toList.map fun q => .does (.ipcNotifyClient (c.pid q))) ∧
      w'.supervisor.Pending l := by
  have hp : p ∉ l := (List.nodup_cons.mp hinv.pending.1.nodup).1
  have hsession (q : Ptr) (hq : q ≠ p) : w'.session c q =
      { w.session c q with
        notifications := (w.session c q).notifications + if q ∈ l.head? then 1 else 0 } := by
    have htest : (w.supervisor.tests q).unlinked = (w₀.supervisor.tests q).unlinked :=
      (congrArg Session.test (hw₀ q hq)).symm
    rw [hw', session_carryOut, Supervisor.count_releaseEvents hp, List.nil_append, hstack q hq,
      ← hw₀ q hq]
    simp only [session, Supervisor.listPop_tests, htest, hq, false_or]
  refine ⟨.release hstep (fun q hq => ?_) fun q hq hne => ?_, ?_⟩
  · have hmem : q ∈ l := List.mem_of_mem_head? hq
    have hne : q ≠ p := fun heq => hp (heq ▸ hmem)
    rw [hsession q hne, if_pos hq]
    exact .letIn ((hinv.queued q).mpr hmem)
  · simp only [hsession q hq, if_neg hne, Nat.add_zero]
  · rw [hw', carryOut_supervisor]
    exact hinv.pending.pop

lemma effect_cleanup (hinv : w.Inv c l) (hcmd : (w.supervisor.tests p).cmd = .testCleanup)
    (h : Step c find w (.service p) w' es) :
    ∃ l', Effect c w w' (.service p) l l' es ∧ w'.supervisor.Pending l' := by
  obtain ⟨hmessage, -, r, hr, rfl, rfl⟩ := step_service h
  simp only [Supervisor.beginService, hcmd, Option.some.injEq] at hr ⊢
  subst hr
  by_cases hresult : (w.supervisor.tests p).result = .timeout
  · have hactive : (w.session c p).turn = .active := by
      have hpc := (hinv.ok p).waits_testCleanup hmessage hcmd
      exact Session.turn_waits_testCleanup hpc (Nat.add_pos_left hmessage _)
    obtain ⟨l, rfl⟩ : ∃ l', l = p :: l' := ⟨_, hinv.eq_cons hactive⟩
    have hp : p ∉ l := (List.nodup_cons.mp hinv.pending.1.nodup).1
    simp only [Supervisor.beginCleanup, hresult, ne_eq, not_true_eq_false, if_false,
      Supervisor.endCleanup_eq hinv.pending hinv.pids]
    have hnotes : (Supervisor.releaseEvents c p l).map Note.does =
        .does (.ipcNotifyClient (c.pid p)) ::
          l.head?.toList.map fun q => .does (.ipcNotifyClient (c.pid q)) := by
      simp [Supervisor.releaseEvents]
    rw [hnotes]
    have hx : ((w.take p).carryOut ⟨w.supervisor.listPop, Supervisor.releaseEvents c p l, []⟩
        w.stack).session c p =
          { w.session c p with
            messages := w.messages p - 1
            notifications := w.notifications (c.pid p) + 1 } := by
      rw [session_take_carryOut, Supervisor.count_releaseEvents hp]
      simp [session]
    have hstep : (w.session c p).Step c p .release
        (((w.take p).carryOut ⟨w.supervisor.listPop, Supervisor.releaseEvents c p l, []⟩
          w.stack).session c p)
        [.handles (c.pid p) .testCleanup (w.supervisor.tests p).current,
          .does (.ipcNotifyClient (c.pid p))] := by
      rw [hx]
      exact .cleanupTimeout hmessage hcmd hresult
    have hothers (q : Ptr) (hq : q ≠ p) : (w.take p).session c q = w.session c q :=
      session_take_of_ne hq
    exact ⟨l, effect_release hinv hothers (fun _ _ => rfl) rfl hstep⟩
  · simp only [Supervisor.beginCleanup, hresult, ne_eq, not_false_eq_true, if_true]
    refine ⟨l, .own_of_eq (p := p) ?_ (.inl rfl) (.cleanup hmessage hcmd hresult)
      fun q hq => session_take_carryOut_of_ne hq rfl ?_ (by simp [Frame.test]), ?_⟩
    · rw [session_take_carryOut]
      simp [session, Frame.test, printTestSummary]
    · simp [printTestSummary]
    · rw [carryOut_supervisor]
      exact hinv.pending

lemma effect_service (hinv : w.Inv c l) (h : Step c find w (.service p) w' es) :
    ∃ l', Effect c w w' (.service p) l l' es ∧ w'.supervisor.Pending l' := by
  cases hcmd : (w.supervisor.tests p).cmd with
  | testInit => exact effect_init hinv hcmd h
  | testStart => exact ⟨l, effect_start hinv hcmd h⟩
  | testEnd => exact ⟨l, effect_end hinv hcmd h⟩
  | testCleanup => exact effect_cleanup hinv hcmd h
  | other v =>
    obtain ⟨y, -, hy, -⟩ := (hinv.ok p).of_message (step_service h).1
    have hother : y.cmd = .other v := hy.symm.trans hcmd
    cases y <;> cases hother

/-! ### The next part of a callback -/

/-- A part of a callback for the runner `p`. -/
lemma session_resume (hr : ∀ f ∈ r.frames, f.test = p) :
    (w.carryOut r stack).session c p =
      { w.session c p with
        test := (r.supervisor.tests p).unlinked
        notifications := w.notifications (c.pid p) + r.events.count (.ipcNotifyClient (c.pid p))
        frames := r.frames ++ stack.filter fun f => f.test = p } := by
  have hframes : r.frames.filter (fun f => f.test = p) = r.frames := by
    rw [List.filter_eq_self]
    intro f hf
    simp [hr f hf]
  rw [session_carryOut, List.filter_append, hframes, session]

lemma filter_stack {f : Frame} (hstack : w.stack = f :: stack) (hf : f.test = p) (hq : q ≠ p) :
    stack.filter (fun f => f.test = q) = w.stack.filter fun f => f.test = q := by
  rw [hstack, List.filter_cons_of_neg]
  simpa [hf] using hq.symm

/-- A part that notifies nobody. -/
lemma effect_resume_of_quiet {f : Frame} (hinv : w.Inv c l)
    (hstack : w.stack = f :: stack) (hf : f.test = p) (r : Part)
    (hs : r.supervisor = w.supervisor) (hevents : ∀ pid, r.events.count (.ipcNotifyClient pid) = 0)
    (hr : ∀ f ∈ r.frames, f.test = p)
    (hstep : (w.session c p).Step c p .own
      { w.session c p with frames := r.frames ++ stack.filter fun f => f.test = p } es) :
    Effect c w (w.carryOut r stack) a l l es ∧ (w.carryOut r stack).supervisor.Pending l := by
  refine ⟨.own_of_eq (p := p) ?_ (.inl rfl) hstep fun q hq => ?_, ?_⟩
  · rw [session_resume hr, hs, hevents, Nat.add_zero]
    rfl
  · exact session_carryOut_of_ne hq (by rw [hs]) (hevents _) hr (filter_stack hstack hf hq)
  · rw [carryOut_supervisor, hs]
    exact hinv.pending

lemma effect_resume (hinv : w.Inv c l) (h : Step c find w .resume w' es) :
    ∃ l', Effect c w w' .resume l l' es ∧ w'.supervisor.Pending l' := by
  cases hstack : w.stack with
  | nil => simp [Step, step, hstack] at h
  | cons f stack =>
    simp only [Step, step, hstack] at h
    obtain ⟨r, hr, heq⟩ := Option.map_eq_some_iff.mp h
    cases heq
    have hframes : (w.session c f.test).frames =
        f :: stack.filter fun g => g.test = f.test := by
      simp [session, hstack]
    cases f with
    | searches p => cases hr
    | result caller p =>
      cases hr
      exact ⟨l, effect_resume_of_quiet hinv hstack rfl _ rfl (fun _ => rfl) (by simp [Frame.test])
        (.result hframes rfl)⟩
    | outcome caller p printed =>
      cases hr
      exact ⟨l, effect_resume_of_quiet hinv hstack rfl _ rfl (by simp [printTestResult])
        (by simp [Frame.test]) (.outcome hframes)⟩
    | reported caller p =>
      cases caller with
      | timeout =>
        cases hr
        exact ⟨l, effect_resume_of_quiet hinv hstack rfl _ rfl (by simp [printTestSummary])
          (by simp [Frame.test]) (.reportedTimeout hframes)⟩
      | service =>
        obtain ⟨i, hpc⟩ := (hinv.ok p).waits_of_reported hframes
        have hpid := hinv.pid (Session.turn_ne_before hpc (by simp))
        simp only [Supervisor.resume, hpid, Option.some.injEq] at hr
        subst hr
        refine ⟨l, .own_of_eq (p := p) ?_ (.inl rfl) (.reported hframes) fun q hq => ?_, ?_⟩
        · rw [session_resume, World.count_notify, if_pos rfl]
          · rfl
          · simp
        · exact session_carryOut_of_ne hq rfl (count_notify_of_ne hq) (by simp)
            (filter_stack hstack rfl hq)
        · rw [carryOut_supervisor]
          exact hinv.pending
    | summarized caller p =>
      cases caller with
      | timeout =>
        cases hr
        exact ⟨l, effect_resume_of_quiet hinv hstack rfl _ rfl (fun _ => rfl) (by simp)
          (.summarizedTimeout hframes)⟩
      | service =>
        have hpc := (hinv.ok p).waits_of_summarized hframes
        have hactive := Session.turn_waits_testCleanup hpc
          (Nat.add_pos_right _ (Session.owed_pos hframes rfl))
        obtain ⟨l, rfl⟩ : ∃ l', l = p :: l' := ⟨_, hinv.eq_cons hactive⟩
        have hp : p ∉ l := (List.nodup_cons.mp hinv.pending.1.nodup).1
        simp only [Supervisor.resume, Supervisor.endCleanup_eq hinv.pending hinv.pids,
          Option.some.injEq] at hr
        subst hr
        have hnotes : (Supervisor.releaseEvents c p l).map Note.does =
            [.does (.ipcNotifyClient (c.pid p))] ++
              l.head?.toList.map fun q => .does (.ipcNotifyClient (c.pid q)) := by
          simp [Supervisor.releaseEvents]
        rw [hnotes]
        refine ⟨l, effect_release hinv (fun _ _ => rfl) (fun q hq => filter_stack hstack rfl hq)
          rfl ?_⟩
        rw [session_resume, Supervisor.count_releaseEvents hp, if_pos (.inl rfl),
          Supervisor.listPop_tests]
        · exact .summarized hframes
        · simp

/-! ### Any step -/

lemma effect_of_step (hinv : w.Inv c l) (h : Step c find w a w' es) :
    ∃ l', Effect c w w' a l l' es ∧ w'.supervisor.Pending l' := by
  cases a with
  | call p => exact ⟨l, effect_call hinv h⟩
  | access p => exact ⟨l, effect_access hinv h⟩
  | notify p => exact ⟨l, effect_notify hinv h⟩
  | wake p => exact ⟨l, effect_wake hinv h⟩
  | finish p passed reason => exact ⟨l, effect_finish hinv h⟩
  | continueCallback p => exact ⟨l, effect_continueCallback hinv h⟩
  | expire p => exact ⟨l, effect_expire hinv h⟩
  | service p => exact effect_service hinv h
  | timeout p => exact ⟨l, effect_timeout hinv h⟩
  | resume => exact effect_resume hinv h

end World

end UnitTest
