import Libtock.UnitTest.Progress

/-!
# Before or after the last `TestEnd`

A runner whose last `TestEnd` was taken before its test was marked goes on to its `TestCleanup`,
and leaves the list. One that was marked before does not.
-/

namespace UnitTest

open Core Tock

namespace Session

variable {c : Processes} {p : Ptr} {x x' : Session} {label : Label} {es : List Note} {n : ℕ}

/-! ### Behind the last test -/

structure Bounded (n : ℕ) (x : Session) : Prop where
  bound : x.pc.index n ≤ n
  body : x.pc.inBody = true → x.pc.index n < n

/-- The `TestEnd` of the last of `n` tests has been taken, and is answered. -/
def Behind (n : ℕ) (x : Session) : Prop :=
  match x.pc with
  | .waits (.testEnd i) => i + 1 = n ∧ (0 < x.owed + x.notifications ∨ x.done = true)
  | .increments i => i + 1 = n
  | .loops i => i = n
  | .setsCmd .testCleanup | .notifies .testCleanup | .waits .testCleanup | .returned => True
  | _ => False

lemma Bounded.access (h : x.Bounded (c.arguments p).testCount.toNat) {pc : Pc} {test : UnitTestT}
    (haccess : x.pc.access (c.arguments p) x.test = some (pc, test)) :
    ({ x with pc, test } : Session).Bounded (c.arguments p).testCount.toNat := by
  obtain ⟨hbound, hbody⟩ := h
  cases hpc : x.pc with
  | loops i =>
    simp only [hpc, Pc.access] at haccess
    split at haccess
    · next hi =>
      cases haccess
      exact ⟨hi.le, fun _ => hi⟩
    · cases haccess
      exact ⟨le_rfl, fun h => absurd h Bool.false_ne_true⟩
  | increments i =>
    simp only [hpc, Pc.access, Option.some.injEq, Prod.mk.injEq] at haccess
    obtain ⟨rfl, -⟩ := haccess
    rw [hpc] at hbody
    exact ⟨hbody rfl, fun h => absurd h Bool.false_ne_true⟩
  | readsResult i passed reason =>
    simp only [hpc, Pc.access, Option.some.injEq, Prod.mk.injEq] at haccess
    obtain ⟨rfl, -⟩ := haccess
    rw [hpc] at hbound hbody
    split_ifs <;> exact ⟨hbound, hbody⟩
  | setsCmd y | writesResult i passed reason | writesReason i reason =>
    simp only [hpc, Pc.access, Option.some.injEq, Prod.mk.injEq] at haccess
    obtain ⟨rfl, -⟩ := haccess
    rw [hpc] at hbound hbody
    exact ⟨hbound, hbody⟩
  | _ => simp [hpc, Pc.access] at haccess

lemma Step.bounded (hstep : Step c p x label x' es)
    (h : x.Bounded (c.arguments p).testCount.toNat) :
    x'.Bounded (c.arguments p).testCount.toNat := by
  obtain ⟨hbound, hbody⟩ := h
  cases hstep with
  | call hpc => exact ⟨Nat.zero_le _, nofun⟩
  | access hpc => exact Bounded.access ⟨hbound, hbody⟩ hpc
  | notify hpc =>
    rw [hpc] at hbound hbody
    exact ⟨hbound, hbody⟩
  | @wake y hpc hdone =>
    rw [hpc] at hbound hbody
    cases y with
    | testInit => exact ⟨Nat.zero_le _, nofun⟩
    | testStart i | testEnd i | testCleanup => exact ⟨hbound, hbody⟩
  | finish _ _ hpc =>
    rw [hpc] at hbound hbody
    exact ⟨hbound, hbody⟩
  | _ => exact ⟨hbound, hbody⟩

lemma behind_of_testCleanup (hpc : x.pc = .waits .testCleanup) : x.Behind n := by
  simp only [Behind, hpc]

lemma Behind.not_writes (h : x.Behind n) : x.pc.writes = false := by
  cases hpc : x.pc <;> simp_all [Behind, Pc.writes]

lemma behind_congr (hpc : x'.pc = x.pc) (ho : x'.owed = x.owed)
    (hn : x'.notifications = x.notifications) (hdone : x'.done = x.done) :
    x'.Behind n ↔ x.Behind n := by
  simp only [Behind, hpc, ho, hn, hdone]

/-- A read or write of the shared object is behind the last test before and after, or neither. -/
lemma behind_access_iff (hbounded : x.Bounded (c.arguments p).testCount.toNat) {pc : Pc}
    {test : UnitTestT} (haccess : x.pc.access (c.arguments p) x.test = some (pc, test)) :
    ({ x with pc, test } : Session).Behind (c.arguments p).testCount.toNat ↔
      x.Behind (c.arguments p).testCount.toNat := by
  have hbound := hbounded.bound
  cases hpc : x.pc with
  | loops i =>
    simp only [hpc, Pc.index] at hbound
    simp only [hpc, Pc.access] at haccess
    split at haccess
    · next hi =>
      cases haccess
      simp only [Behind, hpc, false_iff]
      omega
    · next hi =>
      cases haccess
      simp only [Behind, hpc, true_iff]
      omega
  | readsResult i passed reason =>
    simp only [hpc, Pc.access, Option.some.injEq, Prod.mk.injEq] at haccess
    obtain ⟨rfl, -⟩ := haccess
    split_ifs <;> simp only [Behind, hpc]
  | setsCmd y =>
    simp only [hpc, Pc.access, Option.some.injEq, Prod.mk.injEq] at haccess
    obtain ⟨rfl, -⟩ := haccess
    cases y <;> simp only [Behind, hpc]
  | increments i | writesResult i passed reason | writesReason i reason =>
    simp only [hpc, Pc.access, Option.some.injEq, Prod.mk.injEq] at haccess
    obtain ⟨rfl, -⟩ := haccess
    simp only [Behind, hpc]
  | _ => simp [hpc, Pc.access] at haccess

/-- A step leads behind the last test, or back, only if it takes the `TestEnd` of that test before
the test is marked. -/
lemma Step.behind_iff (hstep : Step c p x label x' es) (hok : x.Ok c p)
    (hbounded : x.Bounded (c.arguments p).testCount.toNat)
    (hpos : 0 < (c.arguments p).testCount.toNat) :
    (x'.Behind (c.arguments p).testCount.toNat ↔ x.Behind (c.arguments p).testCount.toNat) ∨
      x'.Behind (c.arguments p).testCount.toNat ∧ (∃ i, .handles (c.pid p) .testEnd i ∈ es) ∧
        x.test.cmd = .testEnd ∧ x.test.result ≠ .timeout ∧
        ∃ i, x.pc = .waits (.testEnd i) ∧ i + 1 = (c.arguments p).testCount.toNat := by
  cases hstep with
  | call hpc => exact .inl (by simp only [Behind, hpc])
  | access hpc => exact .inl (behind_access_iff hbounded hpc)
  | @notify y hpc =>
    obtain ⟨-, hn, ho⟩ := hok.of_away (by rw [hpc]; rfl)
    rw [owed] at ho
    left
    cases y <;> simp [Behind, hpc, hn, owed, ho]
  | @wake y hpc hdone =>
    left
    cases y with
    | testInit => simpa [Behind, hpc, Sync.next] using hpos.ne
    | testStart i | testCleanup => simp only [Behind, hpc, Sync.next]
    | testEnd i => simp [Behind, hpc, hdone, Sync.next]
  | finish _ _ hpc => exact .inl (by simp only [Behind, hpc])
  | continueCallback hn _ =>
    obtain ⟨y, hpc, -⟩ := hok.waits (by omega)
    have htoken : 0 < x.owed + x.notifications := by omega
    left
    cases y with
    | testEnd i => simp [Behind, hpc, htoken]
    | testInit | testStart i | testCleanup => simp only [Behind, hpc]
  | searches hmessage hcmd | init hmessage hcmd =>
    have hpc := hok.waits_testInit hmessage hcmd
    exact .inl (by simp only [Behind, hpc])
  | start hmessage hcmd =>
    obtain ⟨i, hpc⟩ := hok.waits_testStart hmessage hcmd
    exact .inl (by simp only [Behind, hpc])
  | stop hmessage hcmd hresult =>
    obtain ⟨i, hpc⟩ := hok.waits_testEnd hmessage hcmd
    obtain ⟨-, -, -, -, hn, ho, hdone⟩ := hok.of_message hmessage
    by_cases hlast : i + 1 = (c.arguments p).testCount.toNat
    · refine .inr ⟨?_, ⟨_, List.mem_cons_self⟩, hcmd, hresult, i, hpc, hlast⟩
      simp only [Behind, hpc]
      exact ⟨hlast, .inl (Nat.add_pos_left (owed_pos (f := .result .service p) rfl rfl) _)⟩
    · exact .inl (by simp [Behind, hpc, hlast])
  | stopTimeout hmessage hcmd _ =>
    obtain ⟨i, hpc⟩ := hok.waits_testEnd hmessage hcmd
    exact .inl (behind_congr rfl rfl rfl rfl)
  | cleanup hmessage hcmd _ | cleanupTimeout hmessage hcmd _ =>
    have hpc := hok.waits_testCleanup hmessage hcmd
    exact .inl (iff_of_true (behind_of_testCleanup hpc) (behind_of_testCleanup hpc))
  | timeout =>
    exact .inl (behind_congr rfl (List.countP_cons_of_neg Bool.false_ne_true) rfl rfl)
  | @result caller printed frames hframes _ =>
    exact .inl (behind_congr rfl (owed_eq hframes rfl (by cases caller <;> rfl)) rfl rfl)
  | @outcome caller printed frames hframes =>
    exact .inl (behind_congr rfl (owed_eq hframes rfl (by cases caller <;> rfl)) rfl rfl)
  | reported hframes =>
    obtain ⟨i, hpc⟩ := hok.waits_of_reported hframes
    have ho := owed_pos hframes rfl
    left
    simp only [Behind, hpc]
    exact and_congr_right fun _ => iff_of_true (.inl (by omega)) (.inl (by omega))
  | reportedTimeout hframes => exact .inl (behind_congr rfl (owed_eq hframes rfl rfl) rfl rfl)
  | summarized hframes =>
    have hpc := hok.waits_of_summarized hframes
    exact .inl (iff_of_true (behind_of_testCleanup hpc) (behind_of_testCleanup hpc))
  | summarizedTimeout hframes =>
    exact .inl (behind_congr rfl (owed_of_frames hframes).symm rfl rfl)
  | letIn hqueued =>
    have hpc := (turn_eq_queued.mp hqueued).1
    exact .inl (by simp only [Behind, hpc])

/-- Who has sent a `TestCleanup` that was taken is behind its tests. -/
lemma Left.behind (h : x.Left) : x.Behind n := by
  rcases h with hpc | ⟨hpc, -⟩
  · simp only [Behind, hpc]
  · exact behind_of_testCleanup hpc

/-- The mark stays, unless the runner is just about to write a result. -/
lemma Step.marked (hstep : Step c p x label x' es) (hresult : x.test.result = .timeout)
    (hcalled : x.pc ≠ .notCalled)
    (hwrites : x.pc.writes = true → x'.pc = x.pc) : x'.test.result = .timeout := by
  cases hstep with
  | call hpc => exact absurd hpc hcalled
  | @access pc test haccess =>
    cases hpc : x.pc with
    | loops i =>
      simp only [hpc, Pc.access] at haccess
      split at haccess <;>
        · cases haccess
          exact hresult
    | writesResult i passed reason =>
      simp only [hpc, Pc.access, Option.some.injEq, Prod.mk.injEq] at haccess
      cases haccess.1.trans ((hwrites (by rw [hpc]; rfl)).trans hpc)
    | setsCmd y | readsResult i passed reason | writesReason i reason | increments i =>
      simp only [hpc, Pc.access, Option.some.injEq, Prod.mk.injEq] at haccess
      obtain ⟨-, rfl⟩ := haccess
      exact hresult
    | _ => simp [hpc, Pc.access] at haccess
  | stop _ _ hne => exact absurd hresult hne
  | timeout => rfl
  | _ => exact hresult

end Session

namespace World

variable {c : Processes} {find : Search} {w w' : World} {l l' : List Ptr} {p q : Ptr} {a : Action}
  {es tr tr' : List Note} {s : Supervisor}

/-- A step of the world is one of the runner, or nothing to it. -/
lemma Effect.session_cases (h : Effect c w w' a l l' es) (q : Ptr) :
    w'.session c q = w.session c q ∨
      ∃ label es', (w.session c q).Step c q label (w'.session c q) es' ∧ es' ⊆ es := by
  have hone {p : Ptr} {label : Label} (hstep : (w.session c p).Step c p label (w'.session c p) es)
      (hothers : ∀ q ≠ p, w'.session c q = w.session c q) : w'.session c q = w.session c q ∨
      ∃ label es', (w.session c q).Step c q label (w'.session c q) es' ∧ es' ⊆ es := by
    by_cases hq : q = p
    · subst hq
      exact .inr ⟨label, es, hstep, List.Subset.refl _⟩
    · exact .inl (hothers q hq)
  cases h with
  | idle hothers => exact .inl (hothers q)
  | own _ hstep hothers => exact hone hstep hothers
  | search _ _ hstep hothers => exact hone hstep hothers
  | enlist _ _ hstep hothers => exact hone hstep hothers
  | @release _ p es hstep hnext hothers =>
    by_cases hq : q = p
    · subst hq
      exact .inr ⟨_, es, hstep, List.subset_append_left _ _⟩
    · by_cases hhead : q ∈ l'.head?
      · refine .inr ⟨_, _, hnext q hhead, List.subset_append_of_subset_right _ ?_⟩
        rw [Option.mem_def.mp hhead]
        exact List.Subset.refl _
      · exact .inl (hothers q hq hhead)

lemma bounded_of_run (h : Run (Step c find) (initial s) tr w) (p : Ptr) :
    (∃ l, w.Inv c l) ∧ (w.session c p).Bounded (c.arguments p).testCount.toNat := by
  refine h.trace_invariant (fun _ w => (∃ l, w.Inv c l) ∧
    (w.session c p).Bounded (c.arguments p).testCount.toNat) ?_
    ⟨⟨[], inv_initial s⟩, ⟨Nat.zero_le _, nofun⟩⟩
  rintro tr w a w' es ⟨⟨l, hinv⟩, hbounded⟩ hstep
  obtain ⟨l', heffect, hpending⟩ := effect_of_step hinv hstep
  refine ⟨⟨l', hinv.effect heffect hpending⟩, ?_⟩
  rcases heffect.session_cases p with heq | ⟨label, es', hsession, -⟩
  · rwa [heq]
  · exact hsession.bounded hbounded

/-- Only the service callback for a runner handles its messages. -/
lemma eq_service_of_handles (h : Step c find w a w' es) {cmd : UnitTestCmd} {i : U32}
    (hmem : .handles (c.pid p) cmd i ∈ es) : a = .service p := by
  cases a with
  | service q =>
    obtain ⟨-, -, r, -, -, rfl⟩ := step_service h
    rcases List.mem_cons.mp hmem with heq | hmem
    · have hpid : c.pid p = c.pid q := by simp_all
      rw [c.pid_injective hpid]
    · simp at hmem
  | resume =>
    simp only [Step, step] at h
    split at h
    · obtain ⟨r, -, heq⟩ := Option.map_eq_some_iff.mp h
      cases heq
      simp at hmem
    · cases h
  | call q | access q | notify q | finish q _ _ | continueCallback q | expire q | timeout q =>
    simp only [Step, step] at h
    split at h <;> cases h
    simp at hmem
  | wake q =>
    simp only [Step, step] at h
    split at h
    · split at h <;> cases h
      simp at hmem
    · cases h

/-! ### The order of the last `TestEnd` and the mark -/

/-- On the way to `w` a `TestEnd` of the runner was taken, from a world in which `Q` held. -/
def TookEnd (c : Processes) (find : Search) (s : Supervisor) (tr : List Note) (w : World) (p : Ptr)
    (Q : World → Prop) : Prop :=
  ∃ tr₁ w₁ es w₂ tr₂, Run (Step c find) (initial s) tr₁ w₁ ∧ Step c find w₁ (.service p) w₂ es ∧
    Run (Step c find) w₂ tr₂ w ∧ tr = tr₁ ++ es ++ tr₂ ∧
    (w₁.supervisor.tests p).cmd = .testEnd ∧ Q w₁

/-- The `TestEnd` of the runner's last test was taken before the test was marked. -/
def EndedFirst (c : Processes) (find : Search) (s : Supervisor) (tr : List Note) (w : World)
    (p : Ptr) : Prop :=
  TookEnd c find s tr w p fun w₁ => (w₁.supervisor.tests p).result ≠ .timeout ∧
    ∃ i, w₁.pc p = .waits (.testEnd i) ∧ i + 1 = (c.arguments p).testCount.toNat

/-- The test was marked when its `TestEnd` was taken. -/
def MarkedFirst (c : Processes) (find : Search) (s : Supervisor) (tr : List Note) (w : World)
    (p : Ptr) : Prop :=
  TookEnd c find s tr w p fun w₁ => (w₁.supervisor.tests p).result = .timeout

lemma behind_of_service (h : Step c find w (.service p) w' es)
    (hcmd : (w.supervisor.tests p).cmd = .testEnd)
    (hresult : (w.supervisor.tests p).result ≠ .timeout) {i n : ℕ}
    (hpc : w.pc p = .waits (.testEnd i)) (hlast : i + 1 = n) : (w'.session c p).Behind n := by
  obtain ⟨hmessage, -, r, hr, rfl, rfl⟩ := step_service h
  simp only [Supervisor.beginService, hcmd, Supervisor.beginEnd, hresult, ne_eq,
    not_false_eq_true, if_true, Option.some.injEq] at hr
  subst hr
  rw [session_take_carryOut]
  have hframes : [Frame.result .service p].filter (fun f => f.test = p) = [.result .service p] :=
    by simp [Frame.test]
  simp only [Session.Behind, session, hpc, hframes]
  refine ⟨hlast, .inl (Nat.add_pos_left ?_ _)⟩
  exact Session.owed_pos (f := .result .service p) rfl rfl

lemma behind_of_run (h : Run (Step c find) w tr w') (hinv : w.Inv c l)
    (hbounded : (w.session c p).Bounded (c.arguments p).testCount.toNat)
    (hpos : 0 < (c.arguments p).testCount.toNat)
    (hbehind : (w.session c p).Behind (c.arguments p).testCount.toNat) :
    (w'.session c p).Behind (c.arguments p).testCount.toNat := by
  have hinvariant := h.trace_invariant (fun _ w => (∃ l, w.Inv c l) ∧
    (w.session c p).Bounded (c.arguments p).testCount.toNat ∧
    (w.session c p).Behind (c.arguments p).testCount.toNat) ?_ ⟨⟨l, hinv⟩, hbounded, hbehind⟩
  · exact hinvariant.2.2
  rintro tr w a w' es ⟨⟨l, hinv⟩, hbounded, hbehind⟩ hstep
  obtain ⟨l', heffect, hpending⟩ := effect_of_step hinv hstep
  refine ⟨⟨l', hinv.effect heffect hpending⟩, ?_⟩
  rcases heffect.session_cases p with heq | ⟨label, es', hsession, -⟩
  · rw [heq]
    exact ⟨hbounded, hbehind⟩
  · refine ⟨hsession.bounded hbounded, ?_⟩
    rcases hsession.behind_iff (hinv.ok p) hbounded hpos with hiff | ⟨hbehind', -⟩
    · exact hiff.mpr hbehind
    · exact hbehind'

/-- The runner is behind its tests if the last `TestEnd` came first. -/
lemma EndedFirst.behind (h : EndedFirst c find s tr w p) :
    0 < (c.arguments p).testCount.toNat ∧
      (w.session c p).Behind (c.arguments p).testCount.toNat := by
  obtain ⟨tr₁, w₁, es, w₂, tr₂, hrun₁, hstep, hrun₂, -, hcmd, hresult, i, hpc, hlast⟩ := h
  obtain ⟨⟨l, hinv⟩, -⟩ := bounded_of_run hrun₁ p
  obtain ⟨⟨l', hinv'⟩, hbounded'⟩ := bounded_of_run (hrun₁.snoc _ hstep) p
  have hpos : 0 < (c.arguments p).testCount.toNat := by omega
  exact ⟨hpos, behind_of_run hrun₂ hinv' hbounded' hpos
    (behind_of_service hstep hcmd hresult hpc hlast)⟩

/-- And only then. -/
lemma endedFirst_of_behind (h : Run (Step c find) (initial s) tr w)
    (hpos : 0 < (c.arguments p).testCount.toNat)
    (hbehind : (w.session c p).Behind (c.arguments p).testCount.toNat) :
    EndedFirst c find s tr w p := by
  refine (h.trace_invariant (fun tr w => Run (Step c find) (initial s) tr w ∧
    ((w.session c p).Behind (c.arguments p).testCount.toNat → EndedFirst c find s tr w p)) ?_
    ⟨.nil, fun h => (by cases h)⟩).2 hbehind
  rintro tr w a w' es ⟨hrun, hfirst⟩ hstep
  refine ⟨hrun.snoc a hstep, fun hbehind => ?_⟩
  have hextend (h : (w.session c p).Behind (c.arguments p).testCount.toNat) :
      EndedFirst c find s (tr ++ es) w' p := by
    obtain ⟨tr₁, w₁, es₁, w₂, tr₂, hrun₁, hstep₁, hrun₂, rfl, hend⟩ := hfirst h
    exact ⟨tr₁, w₁, es₁, w₂, tr₂ ++ es, hrun₁, hstep₁, hrun₂.snoc a hstep,
      (List.append_assoc _ _ _), hend⟩
  obtain ⟨⟨l, hinv⟩, hbounded⟩ := bounded_of_run hrun p
  obtain ⟨l', heffect, -⟩ := effect_of_step hinv hstep
  rcases heffect.session_cases p with heq | ⟨label, es', hsession, hes⟩
  · exact hextend (heq ▸ hbehind)
  · rcases hsession.behind_iff (hinv.ok p) hbounded hpos with
      hiff | ⟨-, ⟨i, hmem⟩, hcmd, hresult, j, hpc, hlast⟩
    · exact hextend (hiff.mp hbehind)
    · obtain rfl := eq_service_of_handles hstep (hes hmem)
      exact ⟨tr, w, es, w', [], hrun, hstep, .nil, (List.append_nil _).symm, hcmd, hresult, j,
        hpc, hlast⟩

/-- There are tests, if one has ended. -/
lemma testCount_pos (h : Run (Step c find) (initial s) tr w) {i : U32}
    (hmem : .handles (c.pid p) .testEnd i ∈ tr) : 0 < (c.arguments p).testCount.toNat := by
  have hinvariant := h.trace_invariant (fun tr w => Run (Step c find) (initial s) tr w ∧
    (.handles (c.pid p) .testEnd i ∈ tr → 0 < (c.arguments p).testCount.toNat)) ?_
    ⟨.nil, fun h => (by cases h)⟩
  · exact hinvariant.2 hmem
  rintro tr w a w' es ⟨hrun, hpos⟩ hstep
  refine ⟨hrun.snoc a hstep, fun hmem => ?_⟩
  rcases List.mem_append.mp hmem with hmem | hmem
  · exact hpos hmem
  · obtain rfl := eq_service_of_handles hstep hmem
    obtain ⟨⟨l, hinv⟩, hbounded⟩ := bounded_of_run hrun p
    obtain ⟨hmessage, -, r, -, -, rfl⟩ := step_service hstep
    have hhandled : .testEnd = (w.supervisor.tests p).cmd ∧ i = (w.supervisor.tests p).current := by
      simpa using hmem
    have hcmd : (w.session c p).test.cmd = .testEnd := hhandled.1.symm
    obtain ⟨j, hpc⟩ := (hinv.ok p).waits_testEnd hmessage hcmd
    have hbody := hbounded.body
    rw [hpc] at hbody
    exact Nat.zero_lt_of_lt (hbody rfl)

/-! ### The way to the `TestCleanup` -/

/-- How many steps the runner is away from the `TestCleanup` that is taken. -/
def stepsLeft (w : World) (p : Ptr) : ℕ :=
  match w.pc p with
  | .waits (.testEnd _) => if w.done p then 6 else 7
  | .increments _ => 5
  | .loops _ => 4
  | .setsCmd _ => 3
  | .notifies _ => 2
  | .waits .testCleanup => if 0 < w.messages p then 1 else 0
  | _ => 0

lemma step_access {pc : Pc} {test : UnitTestT}
    (h : (w.pc p).access (c.arguments p) (w.supervisor.tests p) = some (pc, test)) :
    Step c find w (.access p)
      { w with
        supervisor := w.supervisor.update p fun _ => test
        pc := Function.update w.pc p pc } [] := by
  simp only [Step, step, h]

/-- The `TestCleanup` of a marked runner is answered at once. -/
lemma step_cleanup (find : Search) (hstack : w.stack = []) (hmessage : 0 < w.messages p)
    (hcmd : (w.supervisor.tests p).cmd = .testCleanup)
    (hresult : (w.supervisor.tests p).result = .timeout) :
    ∃ w' es, Step c find w (.service p) w' es ∧ w'.stack = [] ∧ w'.pc p = w.pc p ∧
      w'.messages p = w.messages p - 1 := by
  have hpart : w.supervisor.beginService find (c.pid p) p =
      some (w.supervisor.endCleanup p) := by
    simp [Supervisor.beginService, hcmd, Supervisor.beginCleanup, hresult]
  have hyields : w.supervisorYields = true := by simp [supervisorYields, hstack]
  have hperform := foldl_perform (w.supervisor.endCleanup p).events { w.take p with
    supervisor := (w.supervisor.endCleanup p).supervisor
    stack := (w.supervisor.endCleanup p).frames ++ w.stack }
  refine ⟨(w.take p).carryOut (w.supervisor.endCleanup p) w.stack,
    .handles (c.pid p) (w.supervisor.tests p).cmd (w.supervisor.tests p).current ::
      (w.supervisor.endCleanup p).events.map .does, ?_, ?_, ?_, ?_⟩
  · simp only [Step, step, hmessage, hyields, and_self, if_true, hpart, Option.map_some]
    rfl
  · rw [carryOut, hperform.2.2.2.2, hstack]
    rfl
  · rw [carryOut, hperform.2.1]
    rfl
  · rw [carryOut, hperform.2.2.2.1]
    exact Function.update_self _ _ _

/-- The runner's own next step, or that of the supervisor, which runs nothing else. -/
lemma exists_step_of_behind {n : ℕ} (find : Search) (hinv : w.Inv c l) (hstack : w.stack = [])
    (hresult : (w.supervisor.tests p).result = .timeout)
    (hn : (c.arguments p).testCount.toNat = n) (hbehind : (w.session c p).Behind n)
    (hleft : ¬ (w.session c p).Left) :
    ∃ a w' es, Step c find w a w' es ∧ w'.stack = [] ∧ w'.stepsLeft p < w.stepsLeft p := by
  have hpc : (w.session c p).pc = w.pc p := rfl
  rw [Session.Behind, hpc] at hbehind
  cases hp : w.pc p with
  | waits y =>
    cases y with
    | testEnd i =>
      have ho : (w.session c p).owed = 0 := by simp [Session.owed, session, hstack]
      simp only [hp, ho, zero_add] at hbehind
      cases hdone : w.done p with
      | true =>
        refine ⟨.wake p, { w with pc := Function.update w.pc p (Sync.testEnd i).next },
          [.wakes (c.pid p) (.testEnd i)], ?_, hstack, ?_⟩
        · simp [Step, step, hp, hdone]
        · simp [stepsLeft, hp, hdone, Sync.next]
      | false =>
        have hnotified : 0 < w.notifications (c.pid p) := by
          rcases hbehind.2 with hnotified | hdone'
          · exact hnotified
          · cases hdone.symm.trans hdone'
        refine ⟨.continueCallback p, { w with
          notifications :=
            Function.update w.notifications (c.pid p) (w.notifications (c.pid p) - 1)
          done := Function.update w.done p true }, [], ?_, hstack, ?_⟩
        · simp [Step, step, hp, hnotified, Pc.yields]
        · simp [stepsLeft, hp, hdone]
    | testCleanup =>
      have hmessage : 0 < w.messages p := by
        by_contra hnone
        exact hleft (.inr ⟨hp, Nat.eq_zero_of_not_pos hnone⟩)
      obtain ⟨w', es, hstep, hstack', hpc', hm⟩ := step_cleanup (c := c) find hstack
        hmessage ((hinv.ok p).cmd _ (.inr hp)) hresult
      have hone : w.messages p = 1 := (hinv.ok p).messages_eq_one hmessage
      refine ⟨.service p, w', es, hstep, hstack', ?_⟩
      simp [stepsLeft, hpc', hp, hm, hone]
    | _ => simp [hp] at hbehind
  | increments i =>
    refine ⟨.access p, _, _, step_access (by rw [hp]; rfl), hstack, ?_⟩
    simp [stepsLeft, hp]
  | loops i =>
    have hend : ¬ i < (c.arguments p).testCount.toNat := by
      simp only [hp] at hbehind
      omega
    refine ⟨.access p, _, _, step_access (by rw [hp, Pc.access, if_neg hend]), hstack, ?_⟩
    simp [stepsLeft, hp]
  | setsCmd y =>
    refine ⟨.access p, _, _, step_access (by rw [hp]; rfl), hstack, ?_⟩
    simp [stepsLeft, hp]
  | notifies y =>
    obtain rfl : y = .testCleanup := by cases y <;> simp_all
    refine ⟨.notify p, { w with
      pc := Function.update w.pc p (.waits .testCleanup)
      done := Function.update w.done p false
      messages := Function.update w.messages p (w.messages p + 1) }, [.asks (c.pid p) .testCleanup],
      ?_, hstack, ?_⟩
    · simp [Step, step, hp]
    · simp [stepsLeft, hp]
  | returned => exact absurd (.inl hp) hleft
  | _ => simp [hp] at hbehind

/-- What the timeout has written stays: the runner is not between the read and the write of its
result. -/
def KeepsMark (p : Ptr) (w : World) (a : Action) : Prop := (w.pc p).writes = true → a ≠ .access p

lemma pc_eq_of_writes (h : Step c find w a w' es) (hwrites : (w.pc p).writes = true)
    (ha : a ≠ .access p) : w'.pc p = w.pc p := by
  have hne {q : Ptr} {pc : Pc} (hq : w.pc q = pc) (hpc : pc.writes = false) : p ≠ q := by
    rintro rfl
    rw [hq, hpc] at hwrites
    cases hwrites
  cases a with
  | call q =>
    simp only [Step, step] at h
    split at h
    · next hq =>
      cases h
      exact Function.update_of_ne (hne hq rfl) _ _
    · cases h
  | access q =>
    have hpq : p ≠ q := fun heq => ha (by rw [heq])
    simp only [Step, step] at h
    split at h <;> cases h
    exact Function.update_of_ne hpq _ _
  | notify q =>
    simp only [Step, step] at h
    split at h
    · next hq =>
      cases h
      exact Function.update_of_ne (hne hq rfl) _ _
    · cases h
  | wake q =>
    simp only [Step, step] at h
    split at h
    · next hq =>
      split at h <;> cases h
      exact Function.update_of_ne (hne hq rfl) _ _
    · cases h
  | finish q _ _ =>
    simp only [Step, step] at h
    split at h
    · next hq =>
      cases h
      exact Function.update_of_ne (hne hq rfl) _ _
    · cases h
  | continueCallback q | expire q =>
    simp only [Step, step] at h
    split at h <;> cases h
    rfl
  | service q =>
    obtain ⟨-, -, r, -, rfl, -⟩ := step_service h
    rw [carryOut, (foldl_perform _ _).2.1]
    rfl
  | timeout q =>
    simp only [Step, step] at h
    split at h <;> cases h
    rw [carryOut, (foldl_perform _ _).2.1]
  | resume =>
    simp only [Step, step] at h
    split at h
    · obtain ⟨r, -, heq⟩ := Option.map_eq_some_iff.mp h
      cases heq
      rw [carryOut, (foldl_perform _ _).2.1]
    · cases h

/-- The test of a runner that has been let in, or was to be, is marked. -/
structure Marked (c : Processes) (p : Ptr) (w : World) : Prop where
  inv : ∃ l, w.Inv c l
  bounded : (w.session c p).Bounded (c.arguments p).testCount.toNat
  result : (w.session c p).test.result = .timeout
  enlisted : (w.session c p).turn ≠ .before

lemma Marked.step (h : w.Marked c p) (hkeeps : KeepsMark p w a) (hstep : Step c find w a w' es)
    (hpos : 0 < (c.arguments p).testCount.toNat) :
    w'.Marked c p ∧ ((w'.session c p).Behind (c.arguments p).testCount.toNat ↔
      (w.session c p).Behind (c.arguments p).testCount.toNat) := by
  obtain ⟨⟨l, hinv⟩, hbounded, hresult, henlisted⟩ := h
  obtain ⟨l', heffect, hpending⟩ := effect_of_step hinv hstep
  have hinv' := hinv.effect heffect hpending
  rcases heffect.session_cases p with heq | ⟨label, es', hsession, -⟩
  · rw [heq]
    exact ⟨⟨⟨l', hinv'⟩, heq ▸ hbounded, heq ▸ hresult, heq ▸ henlisted⟩, Iff.rfl⟩
  · refine ⟨⟨⟨l', hinv'⟩, hsession.bounded hbounded, hsession.marked hresult ?_ ?_,
      hsession.turn_ne_before_of_moves (hinv.ok p) henlisted⟩, ?_⟩
    · intro hpc
      exact henlisted (by simp [Session.turn, hpc])
    · exact fun hwrites => pc_eq_of_writes hstep hwrites (hkeeps hwrites)
    · rcases hsession.behind_iff (hinv.ok p) hbounded hpos with hiff | ⟨-, -, -, hne, -⟩
      · exact hiff
      · exact absurd hresult hne

/-- A marked runner does not get behind its tests. -/
lemma Marked.behind_of_run (h : w.Marked c p)
    (hrun : Run (Guarded (Step c find) (KeepsMark p)) w tr w')
    (hpos : 0 < (c.arguments p).testCount.toNat)
    (hbehind : (w'.session c p).Behind (c.arguments p).testCount.toNat) :
    (w.session c p).Behind (c.arguments p).testCount.toNat := by
  refine (hrun.trace_invariant (fun _ w' => w'.Marked c p ∧
    ((w'.session c p).Behind (c.arguments p).testCount.toNat →
      (w.session c p).Behind (c.arguments p).testCount.toNat)) ?_ ⟨h, id⟩).2 hbehind
  rintro tr w a w' es ⟨hmarked, hback⟩ ⟨hkeeps, hstep⟩
  obtain ⟨hmarked', hiff⟩ := hmarked.step hkeeps hstep hpos
  exact ⟨hmarked', fun hbehind => hback (hiff.mp hbehind)⟩

/-- Behind its tests, with nothing else going on, it gets to its `TestCleanup`. -/
lemma Marked.exists_left {m : ℕ} (h : w.Marked c p) (hstack : w.stack = [])
    (hpos : 0 < (c.arguments p).testCount.toNat)
    (hbehind : (w.session c p).Behind (c.arguments p).testCount.toNat)
    (hm : w.stepsLeft p = m) :
    ∃ tr w', Run (Guarded (Step c find) (KeepsMark p)) w tr w' ∧ w'.stack = [] ∧
      (w'.session c p).Left ∧ (w'.session c p).turn ≠ .before := by
  induction m using Nat.strong_induction_on generalizing w with
  | h m ih =>
    by_cases hleft : (w.session c p).Left
    · exact ⟨[], w, .nil, hstack, hleft, h.enlisted⟩
    · obtain ⟨l, hinv⟩ := h.inv
      obtain ⟨a, w₁, es, hstep, hstack₁, hlt⟩ :=
        exists_step_of_behind find hinv hstack h.result rfl hbehind hleft
      have hkeeps : KeepsMark p w a := fun hwrites => by cases hbehind.not_writes.symm.trans hwrites
      obtain ⟨h₁, hiff⟩ := h.step hkeeps hstep hpos
      obtain ⟨tr, w', hrun, hend⟩ := ih _ (hm ▸ hlt) h₁ hstack₁ (hiff.mpr hbehind) rfl
      exact ⟨es ++ tr, w', (Run.single ⟨hkeeps, hstep⟩).trans hrun, hend⟩

/-! ### When the queue moves on -/

/-- The runner's `TestCleanup` has not been sent, or is on its way. -/
def CleanupToCome (w : World) (p : Ptr) : Prop :=
  w.pc p ≠ .returned ∧ (w.pc p = .waits .testCleanup → 0 < w.messages p)

lemma left_iff_not_cleanupToCome : (w.session c p).Left ↔ ¬ w.CleanupToCome p := by
  rw [CleanupToCome, not_and_or, not_not, Classical.not_imp, Nat.not_lt, Nat.le_zero]
  exact Iff.rfl

lemma TimedOut.marked (hp : w.TimedOut c tr p) (h : Run (Step c find) (initial s) tr w) :
    w.Marked c p := by
  obtain ⟨i, hend⟩ := hp.ended
  obtain ⟨hinv, hbounded⟩ := bounded_of_run h p
  obtain ⟨l, -, hpast⟩ := past_of_run h
  exact ⟨hinv, hbounded, hp.result, (hpast p).ended i hend⟩

/-- A runner that has left the list is behind its tests. -/
lemma Unblocked.behind {n : ℕ} (hunblocked : w.Unblocked c tr p)
    (h : Run (Step c find) (initial s) tr w) (hne : (w.session c p).turn ≠ .before) :
    (w.session c p).Behind n := by
  obtain ⟨l, hinv, hpast⟩ := past_of_run h
  have hnot := (unblocked_iff_not_mem hinv hpast).mp hunblocked
  rw [hinv.mem_iff, not_or] at hnot
  have hafter : (w.session c p).turn = .after := by
    cases hturn : (w.session c p).turn <;> simp_all
  exact (Session.left_of_after hafter).behind

/-- With nothing else going on, it is off the list when its `TestCleanup` has been taken. -/
lemma unblocked_iff_left (h : Run (Step c find) (initial s) tr w) (hstack : w.stack = [])
    (hne : (w.session c p).turn ≠ .before) : w.Unblocked c tr p ↔ (w.session c p).Left := by
  obtain ⟨l, hinv, hpast⟩ := past_of_run h
  rw [unblocked_iff_not_mem hinv hpast]
  exact not_mem_iff_left hinv hstack hne

/-- A runner that was marked when its `TestEnd` was taken stays on the list. -/
lemma MarkedFirst.not_unblocked (hmarked : MarkedFirst c find s tr w p)
    (h' : Run (Step c find) w tr' w') : ¬ w'.Unblocked c (tr ++ tr') p := by
  obtain ⟨tr₁, w₁, es, w₂, tr₂, hrun₁, hstep, hrun₂, rfl, hcmd, hresult⟩ := hmarked
  obtain ⟨⟨l₁, hinv₁⟩, -⟩ := bounded_of_run hrun₁ p
  obtain ⟨⟨l₂, hinv₂⟩, -⟩ := bounded_of_run (hrun₁.snoc _ hstep) p
  have hstuck := stuck_of_testEnd hinv₁ hstep hcmd hresult
  obtain ⟨l', hinv', hpast'⟩ := past_of_run (((hrun₁.snoc _ hstep).trans hrun₂).trans h')
  rw [unblocked_iff_not_mem hinv' hpast', not_not, hinv'.mem_iff]
  exact .inl (stuck_of_run (hrun₂.trans h') hinv₂ hstuck).2.active

/-- After a timeout and a `TestEnd` the queue can move on, and the mark stay, if and only if the
last `TestEnd` was taken before the mark; it has moved on if moreover the `TestCleanup` is not
still to come. It never does so any more if a `TestEnd` was taken after the mark. -/
theorem unblocked_iff (h : Run (Step c find) (initial s) tr w) (hstack : w.stack = [])
    (hp : w.TimedOut c tr p) :
    ((∃ tr' w', Run (Guarded (Step c find) (KeepsMark p)) w tr' w' ∧
        w'.Unblocked c (tr ++ tr') p) ↔ EndedFirst c find s tr w p) ∧
      (w.Unblocked c tr p ↔ EndedFirst c find s tr w p ∧ ¬ w.CleanupToCome p) ∧
      (MarkedFirst c find s tr w p → ∀ tr' w', Run (Step c find) w tr' w' →
        ¬ w'.Unblocked c (tr ++ tr') p) := by
  obtain ⟨i, hend⟩ := hp.ended
  have hpos := testCount_pos h hend
  have hmarked := hp.marked h
  refine ⟨⟨?_, ?_⟩, ?_, fun hfirst tr' w' h' => hfirst.not_unblocked h'⟩
  · rintro ⟨tr', w', h', hunblocked⟩
    have hrun := h.trans h'.of_guarded
    obtain ⟨l', -, hpast'⟩ := past_of_run hrun
    have hne := (hpast' p).ended i (List.mem_append_left _ hend)
    exact endedFirst_of_behind h hpos
      (hmarked.behind_of_run h' hpos (hunblocked.behind hrun hne))
  · intro hfirst
    obtain ⟨tr', w', h', hstack', hleft, hne⟩ :=
      hmarked.exists_left hstack hpos hfirst.behind.2 rfl
    exact ⟨tr', w', h', (unblocked_iff_left (h.trans h'.of_guarded) hstack' hne).mpr hleft⟩
  · rw [unblocked_iff_left h hstack hmarked.enlisted, ← left_iff_not_cleanupToCome (c := c)]
    exact ⟨fun hleft => ⟨endedFirst_of_behind h hpos hleft.behind, hleft⟩, And.right⟩

/-! ### Two orders -/

/-- The first runner has sent the `TestEnd` of its only test. The timer has expired, but its
callback waits. The second runner has come. -/
def sampleBeforeEnd : List Action := List.flatten [
  [.call 1], sends 1, [.service 1], awakes 1, [.call 2], sends 2, [.service 2],
  [.access 1], sends 1, [.service 1], awakes 1,
  [.expire 1, .finish 1 true fun _ => 0, .access 1, .access 1, .access 1], sends 1]

/-- The callback runs while the result is printed, and marks the test. The first runner goes on to
its `TestCleanup`. -/
def sampleAfterEnd : List Action := List.flatten [
  [.resume, .timeout 1, .resume, .resume, .resume, .resume, .resume, .resume], awakes 1,
  [.access 1, .access 1], sends 1, [.service 1]]

theorem unblocked_iff_sampleAfterEnd : ∃ tr w,
    Run (Step sampleProcesses (.walk 2)) (initial sampleSupervisor) tr w ∧ w.stack = [] ∧
      w.TimedOut sampleProcesses tr 1 ∧
      EndedFirst sampleProcesses (.walk 2) sampleSupervisor tr w 1 ∧
      w.Unblocked sampleProcesses tr 1 ∧ w.notifications 2 = 1 := by
  have hplay : (play (World.step sampleProcesses (.walk 2)) (initial sampleSupervisor)
      sampleBeforeEnd).any (fun r₁ =>
        ((r₁.1.supervisor.tests 1).cmd = .testEnd ∧
          (r₁.1.supervisor.tests 1).result ≠ .timeout ∧ r₁.1.pc 1 = .waits (.testEnd 0)) &&
        (r₁.1.step sampleProcesses (.walk 2) (.service 1)).any fun r₂ =>
          .handles 1 .testEnd 0 ∈ r₂.2 &&
          (play (World.step sampleProcesses (.walk 2)) r₂.1 sampleAfterEnd).any fun r₃ =>
            r₃.1.stack.isEmpty ∧ (r₃.1.supervisor.tests 1).result = .timeout ∧
              r₃.1.pc 1 = .waits .testCleanup ∧ r₃.1.messages 1 = 0 ∧
              r₃.1.notifications 2 = 1) = true := by
    decide +kernel
  obtain ⟨tr₁, w₁, hrun₁, hrest⟩ := run_of_play_any sampleBeforeEnd hplay
  obtain ⟨hbefore, hrest⟩ := Bool.and_eq_true_iff.mp hrest
  obtain ⟨⟨w₂, es⟩, hstep, hrest⟩ := (Option.any_eq_true _ _).mp hrest
  obtain ⟨hhandled, hrest⟩ := Bool.and_eq_true_iff.mp hrest
  obtain ⟨tr₂, w, hrun₂, hfacts⟩ := run_of_play_any sampleAfterEnd hrest
  obtain ⟨hcmd, hresult₁, hpc₁⟩ := of_decide_eq_true hbefore
  obtain ⟨hstack, hresult, hpc, hmessages, hnotified⟩ := of_decide_eq_true hfacts
  have hrun := (hrun₁.snoc _ hstep).trans hrun₂
  have hempty : w.stack = [] := List.isEmpty_iff.mp hstack
  have htimeout : w.TimedOut sampleProcesses (tr₁ ++ es ++ tr₂) 1 :=
    ⟨hresult, 0, List.mem_append_left _ (List.mem_append_right _ (of_decide_eq_true hhandled))⟩
  have hfirst : EndedFirst sampleProcesses (.walk 2) sampleSupervisor (tr₁ ++ es ++ tr₂) w 1 :=
    ⟨tr₁, w₁, es, w₂, tr₂, hrun₁, hstep, hrun₂, rfl, hcmd, hresult₁, 0, hpc₁, rfl⟩
  have hcome : ¬ w.CleanupToCome 1 := fun h => (h.2 hpc).ne' hmessages
  exact ⟨_, w, hrun, hempty, htimeout, hfirst,
    (unblocked_iff hrun hempty htimeout).2.1.mpr ⟨hfirst, hcome⟩, hnotified⟩

/-- Its test takes too long, and then ends. -/
def sampleTimeout : List Action := List.flatten [
  [.call 1], sends 1, [.service 1], awakes 1,
  [.access 1], sends 1, [.service 1], awakes 1,
  [.expire 1, .timeout 1, .resume, .resume, .resume, .resume],
  [.finish 1 true fun _ => 0, .access 1, .access 1], sends 1, [.service 1]]

/-- The runner stays on the list, and nobody else gets a turn. -/
theorem not_unblocked : ∃ tr w,
    Run (Step sampleProcesses .asWritten) (initial sampleSupervisor) tr w ∧ w.stack = [] ∧
      w.TimedOut sampleProcesses tr 1 ∧ ¬ w.Unblocked sampleProcesses tr 1 := by
  have hplay : (play (World.step sampleProcesses .asWritten) (initial sampleSupervisor)
      sampleTimeout).any (fun r => r.1.stack.isEmpty ∧
        (r.1.supervisor.tests 1).result = .timeout ∧ .handles 1 .testEnd 0 ∈ r.2 ∧
        r.1.pc 1 = .waits (.testEnd 0) ∧ r.1.messages 1 = 0 ∧ r.1.notifications 1 = 0 ∧
        r.1.done 1 = false) := by
    decide +kernel
  obtain ⟨tr, w, hrun, hfacts⟩ := run_of_play_any sampleTimeout hplay
  obtain ⟨hstack, hresult, hend, hpc, hm, hn, hdone⟩ := of_decide_eq_true hfacts
  have hempty : w.stack = [] := List.isEmpty_iff.mp hstack
  have ho : (w.session sampleProcesses 1).owed = 0 := by simp [Session.owed, session, hempty]
  have hstuck : (w.session sampleProcesses 1).Stuck := ⟨hresult, ⟨0, hpc⟩, hm, hn, ho, hdone⟩
  obtain ⟨l, hinv, hpast⟩ := past_of_run hrun
  refine ⟨tr, w, hrun, hempty, ⟨hresult, 0, hend⟩, ?_⟩
  rw [unblocked_iff_not_mem hinv hpast, not_not, hinv.mem_iff]
  exact .inl hstuck.active

end World

end UnitTest
