import Libtock.UnitTest.Turns

/-!
# After a timeout

The queue moves on when a `TestCleanup` is handled. The `TestEnd` of a test that has timed out is
not answered: its runner never sends a `TestCleanup`, and those behind it wait for ever.
-/

namespace UnitTest

open Core Tock

/-- The shared object is used between the call and the return. -/
lemma Pc.ne_of_access {a : Arguments} {pc pc' : Pc} {test test' : UnitTestT}
    (h : pc.access a test = some (pc', test')) :
    pc ≠ .returned ∧ pc' ≠ .returned ∧ pc' ≠ .notCalled := by
  cases pc with
  | loops i =>
    simp only [access] at h
    split at h <;> cases h <;> exact ⟨by simp, by simp, by simp⟩
  | readsResult i passed reason =>
    simp only [access, Option.some.injEq, Prod.mk.injEq] at h
    obtain ⟨rfl, -⟩ := h
    split_ifs <;> exact ⟨by simp, by simp, by simp⟩
  | setsCmd y | writesResult i passed reason | writesReason i reason | increments i =>
    simp only [access, Option.some.injEq, Prod.mk.injEq] at h
    obtain ⟨rfl, -⟩ := h
    exact ⟨by simp, by simp, by simp⟩
  | _ => cases h

namespace Session

variable {c : Processes} {p : Ptr} {x x' : Session} {label : Label} {es tr : List Note} {pid : ℤ}

/-! ### What has been handled -/

/-- The `TestCleanup` of the runner has been taken. -/
def Left (x : Session) : Prop := x.pc = .returned ∨ x.pc = .waits .testCleanup ∧ x.messages = 0

lemma Step.pid_of_handles (h : Step c p x label x' es) {cmd : UnitTestCmd} {i : U32}
    (hmem : .handles pid cmd i ∈ es) : pid = c.pid p := by
  cases h with
  | @init first _ _ =>
    cases first <;> simp_all
  | outcome _ | cleanup _ _ _ | reportedTimeout _ =>
    simp_all [printTestResult, printTestSummary]
  | _ => simp_all

lemma Step.left (h : Step c p x label x' es) (hok : x.Ok c p) :
    x'.Left ↔ x.Left ∨ ∃ i, .handles (c.pid p) .testCleanup i ∈ es := by
  cases h with
  | call hpc => simp [Left, hpc]
  | access hpc =>
    obtain ⟨haway, haway'⟩ := Pc.awaited_of_access hpc
    obtain ⟨hne, hne', -⟩ := Pc.ne_of_access hpc
    refine iff_of_false ?_ ?_
    · rintro (h | ⟨h, -⟩)
      · exact hne' h
      · cases haway'.symm.trans (Pc.awaited_eq_some.mpr h)
    · rintro ((h | ⟨h, -⟩) | ⟨i, hi⟩)
      · exact hne h
      · cases haway.symm.trans (Pc.awaited_eq_some.mpr h)
      · cases hi
  | notify hpc => simp [Left, hpc]
  | @wake y hpc hdone =>
    obtain ⟨hm, -⟩ := hok.of_woken hpc hdone
    cases y <;> simp [Left, hpc, hm, Sync.next]
  | finish _ _ hpc => simp [Left, hpc]
  | @init first hmessage hcmd =>
    have hpc := hok.waits_testInit hmessage hcmd
    cases first <;> simp [Left, hpc]
  | searches hmessage hcmd =>
    have hpc := hok.waits_testInit hmessage hcmd
    simp [Left, hpc]
  | start hmessage hcmd =>
    obtain ⟨i, hpc⟩ := hok.waits_testStart hmessage hcmd
    simp [Left, hpc]
  | stop hmessage hcmd _ | stopTimeout hmessage hcmd _ =>
    obtain ⟨i, hpc⟩ := hok.waits_testEnd hmessage hcmd
    simp [Left, hpc]
  | cleanup hmessage hcmd _ | cleanupTimeout hmessage hcmd _ =>
    have hpc := hok.waits_testCleanup hmessage hcmd
    have hm := hok.messages_eq_one hmessage
    exact iff_of_true (.inr ⟨hpc, by simp [hm]⟩) (.inr ⟨_, List.mem_cons_self⟩)
  | _ => simp [Left]

lemma Step.turn_of_testEnd (h : Step c p x label x' es) (hok : x.Ok c p) {i : U32}
    (hmem : .handles (c.pid p) .testEnd i ∈ es) : x'.turn ≠ .before := by
  cases h with
  | stop hmessage hcmd _ | stopTimeout hmessage hcmd _ =>
    obtain ⟨i, hpc⟩ := hok.waits_testEnd hmessage hcmd
    exact turn_ne_before hpc (by simp)
  | @init first _ _ => cases first <;> simp_all
  | _ => simp_all

/-- A runner gets its turn with a notification. -/
lemma Step.admitted (h : Step c p x label x' es) (hok : x.Ok c p) (hactive : x'.turn = .active) :
    x.turn = .active ∨ .does (.ipcNotifyClient (c.pid p)) ∈ es := by
  have hmoves := h.moves hok
  cases h with
  | @init first _ _ =>
    cases first with
    | false => cases hmoves.2.symm.trans hactive
    | true => exact .inr (List.mem_cons_of_mem _ List.mem_cons_self)
  | letIn _ => exact .inr List.mem_cons_self
  | cleanupTimeout _ _ _ | summarized _ => exact .inl hmoves.1
  | _ => exact .inl (hmoves.symm.trans hactive)

/-- What the trace tells about the turn of the runner. -/
structure Past (pid : ℤ) (tr : List Note) (x : Session) : Prop where
  cleanup : (∃ i, .handles pid .testCleanup i ∈ tr) ↔ x.Left
  ended : ∀ i, .handles pid .testEnd i ∈ tr → x.turn ≠ .before
  admitted : x.turn = .active → .does (.ipcNotifyClient pid) ∈ tr

lemma Step.turn_ne_before_of_moves (h : Step c p x label x' es) (hok : x.Ok c p)
    (hne : x.turn ≠ .before) : x'.turn ≠ .before := by
  have hmoves := h.moves hok
  cases label with
  | own | timeout | search => exact fun heq => hne (hmoves.symm.trans heq)
  | enlist first => exact absurd hmoves.1 hne
  | letIn | release =>
    rw [hmoves.2]
    simp

lemma Past.step (h : x.Past (c.pid p) tr) (hok : x.Ok c p) (hstep : Step c p x label x' es) :
    x'.Past (c.pid p) (tr ++ es) where
  cleanup := by
    rw [hstep.left hok, ← h.cleanup]
    simp only [List.mem_append, exists_or]
  ended i hmem := by
    rcases List.mem_append.mp hmem with hmem | hmem
    · exact hstep.turn_ne_before_of_moves hok (h.ended i hmem)
    · exact hstep.turn_of_testEnd hok hmem
  admitted hactive := by
    rw [List.mem_append]
    exact (hstep.admitted hok hactive).imp_left h.admitted

lemma Past.other (h : x.Past pid tr) (hes : ∀ cmd i, .handles pid cmd i ∉ es) :
    x.Past pid (tr ++ es) where
  cleanup := by
    rw [← h.cleanup]
    simp only [List.mem_append, hes, or_false]
  ended i hmem := h.ended i (by simpa only [List.mem_append, hes, or_false] using hmem)
  admitted hactive := List.mem_append_left _ (h.admitted hactive)

lemma left_of_after (h : x.turn = .after) : x.Left := by
  rw [turn] at h
  split at h
  · cases h
  · cases h
  · cases h
  · split_ifs at h
  · next hpc =>
    split_ifs at h with hpos
    exact .inr ⟨hpc, by omega⟩
  · next hpc => exact .inl hpc
  · cases h

lemma Left.after (h : x.Left) (ho : x.owed = 0) : x.turn = .after := by
  rcases h with hpc | ⟨hpc, hm⟩
  · simp only [turn, hpc]
  · simp only [turn, hpc, hm, ho, Nat.lt_irrefl, if_false]

/-! ### The runner that gets no answer -/

/-- The test is marked, and its `TestEnd` has been taken without an answer. -/
structure Stuck (x : Session) : Prop where
  result : x.test.result = .timeout
  waits : ∃ i, x.pc = .waits (.testEnd i)
  unanswered : x.messages = 0 ∧ x.notifications = 0 ∧ x.owed = 0 ∧ x.done = false

lemma Stuck.active (h : x.Stuck) : x.turn = .active := by
  obtain ⟨i, hpc⟩ := h.waits
  simp [turn, hpc]

lemma stuck_of_stopTimeout (hok : x.Ok c p) (hmessage : 0 < x.messages)
    (hcmd : x.test.cmd = .testEnd) (hresult : x.test.result = .timeout) :
    ({ x with messages := x.messages - 1 } : Session).Stuck := by
  obtain ⟨i, hpc⟩ := hok.waits_testEnd hmessage hcmd
  obtain ⟨-, -, -, hm, hn, ho, hdone⟩ := hok.of_message hmessage
  rw [owed] at ho
  exact ⟨hresult, ⟨i, hpc⟩, by simp [hm], hn, ho, hdone⟩

/-- Nothing but further timeouts and their reports happens to it. -/
lemma Stuck.step (h : x.Stuck) (hstep : Step c p x label x' es) : x'.Stuck := by
  obtain ⟨hresult, ⟨i, hpc⟩, hm, hn, ho, hdone⟩ := h
  have hnot {f : Frame} {frames : List Frame} (hframes : x.frames = f :: frames) :
      f.answers.isSome = false := by
    rw [Bool.eq_false_iff]
    exact fun hf => absurd (owed_pos hframes hf) (by omega)
  cases hstep with
  | call hpc' | notify hpc' | finish _ _ hpc' => simp [hpc] at hpc'
  | access hpc' => simp [hpc, Pc.access] at hpc'
  | wake _ hdone' => simp [hdone] at hdone'
  | continueCallback hn' _ => omega
  | searches hm' _ | init hm' _ | start hm' _ | stop hm' _ _ | stopTimeout hm' _ _
  | cleanup hm' _ _ | cleanupTimeout hm' _ _ => omega
  | timeout =>
    refine ⟨rfl, ⟨i, hpc⟩, hm, hn, ?_, hdone⟩
    exact (List.countP_cons_of_neg Bool.false_ne_true).trans ho
  | @result caller printed frames hframes _ =>
    refine ⟨hresult, ⟨i, hpc⟩, hm, hn, ?_, hdone⟩
    exact (owed_eq hframes rfl (by cases caller <;> rfl)).trans ho
  | @outcome caller printed frames hframes =>
    refine ⟨hresult, ⟨i, hpc⟩, hm, hn, ?_, hdone⟩
    exact (owed_eq hframes rfl (by cases caller <;> rfl)).trans ho
  | reported hframes | summarized hframes => cases hnot hframes
  | reportedTimeout hframes =>
    refine ⟨hresult, ⟨i, hpc⟩, hm, hn, ?_, hdone⟩
    rw [← ho]
    exact owed_eq hframes rfl rfl
  | summarizedTimeout hframes =>
    exact ⟨hresult, ⟨i, hpc⟩, hm, hn, (owed_of_frames hframes).symm.trans ho, hdone⟩
  | letIn hqueued => simp [turn, hpc] at hqueued

end Session

namespace World

variable {c : Processes} {find : Search} {w w' : World} {l l' : List Ptr} {p q : Ptr} {a : Action}
  {es tr tr' : List Note} {s : Supervisor}

/-! ### Runs -/

lemma past_of_run (h : Run (Step c find) (initial s) tr w) :
    ∃ l, w.Inv c l ∧ ∀ p, (w.session c p).Past (c.pid p) tr := by
  have h' : Run (Guarded (Step c find) fun _ _ => True) (initial s) tr w :=
    h.mono fun _ _ _ _ hstep => ⟨trivial, hstep⟩
  refine forall_sessions_of_run (G := fun _ _ => True) (I := fun p tr x => x.Past (c.pid p) tr)
    ?_ ?_ (fun _ _ _ => trivial) (fun p => ?_) h'
  · exact fun p tr x label x' es hx hok hstep _ => hx.step hok hstep
  · intro p q tr x y label y' es hne hx _ _ hstep
    exact hx.other fun cmd i hmem => hne (c.pid_injective (hstep.pid_of_handles hmem))
  · exact ⟨iff_of_false (by simp) (by simp [Session.Left, session, initial]), by simp,
      by simp [Session.turn, session, initial]⟩

/-- The runner is off the list, and the next one has been notified. -/
def Unblocked (c : Processes) (tr : List Note) (w : World) (p : Ptr) : Prop :=
  ∃ l, w.supervisor.Pending l ∧ p ∉ l ∧ ∀ q ∈ l.head?, .does (.ipcNotifyClient (c.pid q)) ∈ tr

/-- The test is marked, and a `TestEnd` of its runner has been handled. -/
structure TimedOut (c : Processes) (tr : List Note) (w : World) (p : Ptr) : Prop where
  result : (w.supervisor.tests p).result = .timeout
  ended : ∃ i, .handles (c.pid p) .testEnd i ∈ tr

lemma unblocked_iff_not_mem (hinv : w.Inv c l) (hpast : ∀ p, (w.session c p).Past (c.pid p) tr) :
    w.Unblocked c tr p ↔ p ∉ l := by
  constructor
  · rintro ⟨l', hl', hp, -⟩
    rwa [hinv.pending.1.unique hl'.1]
  · intro hp
    refine ⟨l, hinv.pending, hp, fun q hq => (hpast q).admitted ?_⟩
    exact (hinv.active q).mpr hq

/-- Behind its `TestEnd` a runner leaves the list with its `TestCleanup`. -/
lemma not_mem_iff_left (hinv : w.Inv c l) (hstack : w.stack = [])
    (hne : (w.session c p).turn ≠ .before) : p ∉ l ↔ (w.session c p).Left := by
  have ho : (w.session c p).owed = 0 := by simp [Session.owed, session, hstack]
  rw [hinv.mem_iff, not_or]
  constructor
  · rintro ⟨hactive, hqueued⟩
    have hafter : (w.session c p).turn = .after := by
      cases hturn : (w.session c p).turn <;> simp_all
    exact Session.left_of_after hafter
  · intro hleft
    rw [hleft.after ho]
    exact ⟨by simp, by simp⟩

lemma stuck_of_run (h : Run (Step c find) w tr w') (hinv : w.Inv c l)
    (hstuck : (w.session c p).Stuck) : (∃ l', w'.Inv c l') ∧ (w'.session c p).Stuck := by
  refine h.trace_invariant (fun _ w => (∃ l, w.Inv c l) ∧ (w.session c p).Stuck) ?_
    ⟨⟨l, hinv⟩, hstuck⟩
  rintro tr w a w' es ⟨⟨l, hinv⟩, hstuck⟩ hstep
  obtain ⟨l', heffect, hpending⟩ := effect_of_step hinv hstep
  refine ⟨⟨l', hinv.effect heffect hpending⟩, ?_⟩
  refine heffect.forall_sessions tr (G := fun _ _ => True)
    (I := fun q _ x => q = p → x.Stuck) ?_ ?_ hinv (fun _ _ => trivial) ?_ p rfl
  · exact fun q _ x label x' es hx _ hstep _ hq => (hx hq).step hstep
  · exact fun q r _ x y label y' es _ hx _ _ _ => hx
  · rintro q rfl
    exact hstuck

/-- When a marked test ends, its runner is stuck. -/
theorem stuck_of_testEnd (hinv : w.Inv c l) (h : Step c find w (.service p) w' es)
    (hcmd : (w.supervisor.tests p).cmd = .testEnd)
    (hresult : (w.supervisor.tests p).result = .timeout) : (w'.session c p).Stuck := by
  obtain ⟨hmessage, -, r, hr, rfl, rfl⟩ := step_service h
  simp only [Supervisor.beginService, hcmd, Supervisor.beginEnd, hresult, ne_eq,
    not_true_eq_false, if_false, Option.some.injEq] at hr
  subst hr
  have hx : ((w.take p).carryOut ⟨w.supervisor, [.timerCancel p], []⟩ w.stack).session c p =
      { w.session c p with messages := w.messages p - 1 } := by
    rw [session_take_carryOut]
    simp [session]
  rw [hx]
  exact Session.stuck_of_stopTimeout (hinv.ok p) hmessage hcmd hresult

end World

end UnitTest
