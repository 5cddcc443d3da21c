import Libtock.UnitTest.Invariant

/-!
# The runners take turns

For every order of messages, notifications, timeouts and prints: a runner starts tests only while no
other one does, the supervisor notifies a runner only while it waits, once for each message, and the
runners are let in in the order of their first messages.
-/

namespace UnitTest

open Core Tock

/-! ### The handshake as a protocol -/

inductive Stage
  | away
  | asked
  | answered
  deriving DecidableEq

/-- What the notes of a process may be: it asks, it is notified, it wakes. -/
def handshake (pid : ℤ) (σ : Stage) : Note → Option Stage
  | .asks pid' _ => if pid' = pid then if σ = .away then some .asked else none else some σ
  | .does (.ipcNotifyClient pid') =>
    if pid' = pid then if σ = .asked then some .answered else none else some σ
  | .wakes pid' _ => if pid' = pid then if σ = .answered then some .away else none else some σ
  | _ => some σ

/-- Who starts tests: `none` if a runner starts one before the `TestCleanup` of another. -/
def tenure (holder : Option ℤ) : Note → Option (Option ℤ)
  | .handles pid .testStart _ => if holder = none ∨ holder = some pid then some (some pid) else none
  | .handles pid .testCleanup _ => some (if holder = some pid then none else holder)
  | _ => some holder

/-- The process whose `TestInit` is handled. -/
def Note.handlesInit : Note → Option ℤ
  | handles pid .testInit _ => some pid
  | _ => none

/-- The process whose first `sync_with_supervisor` returns. -/
def Note.enters : Note → Option ℤ
  | wakes pid .testInit => some pid
  | _ => none

def Label.isInit : Label → Bool
  | search | enlist _ => true
  | own | timeout | letIn | release => false

namespace Session

variable {c : Processes} {p : Ptr} {x x' : Session} {label : Label} {es : List Note}

def stage (x : Session) : Stage :=
  if x.pc.awaited = none then .away
  else if 0 < x.notifications ∨ x.done = true then .answered
  else .asked

lemma stage_away (hpc : x.pc.awaited = none) : x.stage = .away := if_pos hpc

lemma stage_answered {y : Sync} (hpc : x.pc = .waits y) (h : 0 < x.notifications ∨ x.done = true) :
    x.stage = .answered := by
  simp only [stage, hpc, Pc.awaited, reduceCtorEq, if_false, h, if_true]

lemma stage_asked {y : Sync} (hpc : x.pc = .waits y) (hn : x.notifications = 0)
    (hdone : x.done = false) : x.stage = .asked := by
  simp [stage, hpc, Pc.awaited, hn, hdone]

lemma stage_congr (hpc : x'.pc = x.pc) (hn : x'.notifications = x.notifications)
    (hdone : x'.done = x.done) : x'.stage = x.stage := by
  simp only [stage, hpc, hn, hdone]

lemma follows {f : Stage → Note → Option Stage} {σ σ' : Stage} (hσ : x.stage = σ)
    (hσ' : x'.stage = σ') (hes : es.foldlM f σ = some σ') :
    es.foldlM f x.stage = some x'.stage := by
  rw [hσ, hσ', hes]

lemma follows_congr {f : Stage → Note → Option Stage} (hpc : x'.pc = x.pc)
    (hn : x'.notifications = x.notifications) (hdone : x'.done = x.done)
    (hes : ∀ σ, es.foldlM f σ = some σ) : es.foldlM f x.stage = some x'.stage := by
  rw [stage_congr hpc hn hdone, hes]

/-- The notes of a step follow the protocol. -/
lemma Step.follows_handshake (h : Step c p x label x' es) (hok : x.Ok c p) :
    es.foldlM (handshake (c.pid p)) x.stage = some x'.stage := by
  cases h with
  | call hpc => exact follows (stage_away (by rw [hpc]; rfl)) (stage_away rfl) rfl
  | access hpc =>
    obtain ⟨haway, haway'⟩ := Pc.awaited_of_access hpc
    exact follows (stage_away haway) (stage_away haway') rfl
  | notify hpc =>
    have hn := (hok.of_away (by rw [hpc]; rfl)).2.1
    exact follows (stage_away (by rw [hpc]; rfl)) (stage_asked rfl hn rfl) (by simp [handshake])
  | wake hpc hdone =>
    exact follows (stage_answered hpc (.inr hdone)) (stage_away (awaited_next _))
      (by simp [handshake])
  | finish _ _ hpc => exact follows (stage_away (by rw [hpc]; rfl)) (stage_away rfl) rfl
  | continueCallback hn hyields =>
    obtain ⟨y, hpc, -⟩ := hok.waits (by omega)
    exact follows (stage_answered hpc (.inl hn)) (stage_answered hpc (.inr rfl)) rfl
  | searches _ _ | stop _ _ _ | stopTimeout _ _ _ | cleanup _ _ _ =>
    exact follows_congr rfl rfl rfl fun _ => rfl
  | timeout | result _ _ | outcome _ | reportedTimeout _ | summarizedTimeout _ =>
    exact follows_congr rfl rfl rfl fun _ => rfl
  | @init first hmessage hcmd =>
    obtain ⟨y, hpc, -, -, hn, -, hdone⟩ := hok.of_message hmessage
    cases first with
    | false => exact follows_congr rfl rfl rfl fun _ => rfl
    | true =>
      exact follows (stage_asked hpc hn hdone) (stage_answered hpc (.inl (Nat.succ_pos _)))
        (by simp [handshake])
  | start hmessage _ | cleanupTimeout hmessage _ _ =>
    obtain ⟨y, hpc, -, -, hn, -, hdone⟩ := hok.of_message hmessage
    exact follows (stage_asked hpc hn hdone) (stage_answered hpc (.inl (Nat.succ_pos _)))
      (by simp [handshake])
  | reported hframes | summarized hframes =>
    obtain ⟨y, hpc, -, -, -, hn, hdone, -⟩ := hok.of_frame hframes rfl
    exact follows (stage_asked hpc hn hdone) (stage_answered hpc (.inl (Nat.succ_pos _)))
      (by simp [handshake])
  | letIn hqueued =>
    obtain ⟨hpc, -, -, hn, hdone⟩ := turn_eq_queued.mp hqueued
    exact follows (stage_asked hpc hn hdone) (stage_answered hpc (.inl (Nat.succ_pos _)))
      (by simp [handshake])

/-- They are none of another process. -/
lemma Step.handshake_of_ne (h : Step c p x label x' es) {pid : ℤ} (hpid : c.pid p ≠ pid)
    (σ : Stage) : es.foldlM (handshake pid) σ = some σ := by
  cases h with
  | @init first hmessage hcmd => cases first <;> simp [handshake, hpid]
  | outcome hframes => rfl
  | cleanup _ _ _ | reportedTimeout _ => rfl
  | _ => simp [handshake, hpid]

/-! ### One runner at a time -/

/-- The runner starts tests, or may do so: its `TestCleanup` has not been handled. -/
def Holds (x : Session) : Prop := x.turn = .active ∧ ¬ (x.pc = .waits .testCleanup ∧ x.messages = 0)

lemma holds_of_pc {y : Sync} (hpc : x.pc = .waits y) (hy : y ≠ .testCleanup)
    (hturn : x.turn = .active) : x.Holds := by
  refine ⟨hturn, fun h => hy ?_⟩
  simpa [hpc] using h.1

lemma holds_of_not_waits (hpc : x.pc.awaited = none) (hturn : x.turn = .active) : x.Holds := by
  refine ⟨hturn, fun h => ?_⟩
  simp [h.1, Pc.awaited] at hpc

lemma holds_congr (hpc : x'.pc = x.pc) (hm : x'.messages = x.messages) (hturn : x'.turn = x.turn)
    (h : x.Holds) : x'.Holds := by
  rwa [Holds, hpc, hm, hturn]

/-- What a step means to it: nothing, a start, or a `TestCleanup`. -/
lemma Step.tenure_cases (h : Step c p x label x' es) (hok : x.Ok c p) :
    ((∀ holder, es.foldlM tenure holder = some holder) ∧ (x.Holds → x'.Holds)) ∨
      (x'.Holds ∧ x.turn = .active ∧ ∀ holder, holder = none ∨ holder = some (c.pid p) →
        es.foldlM tenure holder = some (some (c.pid p))) ∨
      ∀ holder, es.foldlM tenure holder =
        some (if holder = some (c.pid p) then none else holder) := by
  have hmoves := h.moves hok
  cases h with
  | call hpc =>
    refine .inl ⟨fun _ => rfl, fun hx => absurd hx.1 ?_⟩
    simp [turn, hpc]
  | access hpc =>
    exact .inl ⟨fun _ => rfl, fun hx =>
      holds_of_not_waits (Pc.awaited_of_access hpc).2 (hmoves.trans hx.1)⟩
  | notify hpc =>
    exact .inl ⟨fun _ => rfl, fun hx => ⟨hmoves.trans hx.1, fun h => Nat.succ_ne_zero _ h.2⟩⟩
  | wake hpc hdone =>
    exact .inl ⟨fun _ => rfl, fun hx =>
      holds_of_not_waits (awaited_next _) (hmoves.trans hx.1)⟩
  | finish _ _ hpc =>
    exact .inl ⟨fun _ => rfl, fun hx => holds_of_not_waits rfl (hmoves.trans hx.1)⟩
  | searches hmessage hcmd =>
    have hpc := hok.waits_testInit hmessage hcmd
    exact .inl ⟨fun _ => rfl, fun hx => holds_of_pc hpc (by simp) (hmoves.trans hx.1)⟩
  | @init first hmessage hcmd =>
    refine .inl ⟨?_, fun hx => ?_⟩
    · cases first <;> exact fun _ => rfl
    · cases hmoves.1.symm.trans hx.1
  | start hmessage hcmd =>
    obtain ⟨i, hpc⟩ := hok.waits_testStart hmessage hcmd
    have hactive : x.turn = .active := by simp [turn, hpc]
    refine .inr (.inl ⟨holds_of_pc hpc (by simp) (hmoves.trans hactive), hactive,
      fun holder hh => ?_⟩)
    simp [tenure, hh]
  | stop hmessage hcmd _ =>
    obtain ⟨i, hpc⟩ := hok.waits_testEnd hmessage hcmd
    exact .inl ⟨fun _ => rfl, fun hx => holds_of_pc hpc (by simp) (hmoves.trans hx.1)⟩
  | stopTimeout hmessage hcmd _ =>
    obtain ⟨i, hpc⟩ := hok.waits_testEnd hmessage hcmd
    exact .inl ⟨fun _ => rfl, fun hx => holds_of_pc hpc (by simp) (hmoves.trans hx.1)⟩
  | cleanup _ _ _ | cleanupTimeout _ _ _ => exact .inr (.inr fun _ => rfl)
  | summarized hframes =>
    have hpc := hok.waits_of_summarized hframes
    obtain ⟨-, -, -, -, hm, -⟩ := hok.of_frame hframes rfl
    exact .inl ⟨fun _ => rfl, fun hx => absurd ⟨hpc, hm⟩ hx.2⟩
  | letIn hqueued =>
    exact .inl ⟨fun _ => rfl, fun hx => by cases hqueued.symm.trans hx.1⟩
  | continueCallback _ _ | timeout | result _ _ | outcome _ | reported _ | reportedTimeout _
  | summarizedTimeout _ => exact .inl ⟨fun _ => rfl, holds_congr rfl rfl hmoves⟩

/-! ### The order -/

/-- The first `sync_with_supervisor` has returned. -/
def entered (x : Session) : Bool :=
  match x.pc with
  | .notCalled | .setsCmd .testInit | .notifies .testInit | .waits .testInit => false
  | _ => true

lemma Step.handlesInit (h : Step c p x label x' es) :
    es.filterMap Note.handlesInit = if label.isInit then [c.pid p] else [] := by
  cases h with
  | @init first hmessage hcmd => cases first <;> rfl
  | _ => rfl

lemma entered_of_access {pc : Pc} {test : UnitTestT}
    (h : x.pc.access (c.arguments p) x.test = some (pc, test)) :
    ({ x with pc, test } : Session).entered = x.entered := by
  cases hpc : x.pc with
  | loops i =>
    simp only [Pc.access, hpc] at h
    split at h <;> cases h <;> simp [entered, hpc]
  | readsResult i passed reason =>
    simp only [Pc.access, hpc, Option.some.injEq, Prod.mk.injEq] at h
    obtain ⟨rfl, -⟩ := h
    split_ifs <;> simp [entered, hpc]
  | setsCmd y =>
    simp only [Pc.access, hpc, Option.some.injEq, Prod.mk.injEq] at h
    obtain ⟨rfl, -⟩ := h
    cases y <;> simp [entered, hpc]
  | writesResult i passed reason | writesReason i reason | increments i =>
    simp only [Pc.access, hpc, Option.some.injEq, Prod.mk.injEq] at h
    obtain ⟨rfl, -⟩ := h
    simp [entered, hpc]
  | _ => simp [Pc.access, hpc] at h

/-- A runner enters once, in its turn. -/
lemma Step.enters (h : Step c p x label x' es) (hok : x.Ok c p) :
    x'.entered = x.entered ∧ es.filterMap Note.enters = [] ∨
      x.entered = false ∧ x'.entered = true ∧ x.turn = .active ∧
        es.filterMap Note.enters = [c.pid p] := by
  cases h with
  | call hpc => exact .inl ⟨by simp [entered, hpc], rfl⟩
  | access hpc => exact .inl ⟨entered_of_access hpc, rfl⟩
  | @notify y hpc => exact .inl ⟨by cases y <;> simp [entered, hpc], rfl⟩
  | @wake y hpc hdone =>
    cases y with
    | testInit =>
      obtain ⟨hm, -, ho⟩ := hok.of_woken hpc hdone
      exact .inr ⟨by simp [entered, hpc], rfl, by simp [turn, hpc, hdone, hm, ho], rfl⟩
    | testStart i | testEnd i | testCleanup => exact .inl ⟨by simp [entered, hpc, Sync.next], rfl⟩
  | finish _ _ hpc => exact .inl ⟨by simp [entered, hpc], rfl⟩
  | @init first hmessage hcmd => cases first <;> exact .inl ⟨rfl, rfl⟩
  | _ => exact .inl ⟨rfl, rfl⟩

end Session

/-! ### Runs -/

structure TakesTurns (tr : List Note) : Prop where
  /-- No runner starts a test between the start of a test and the `TestCleanup` of another. -/
  exclusive : (tr.foldlM tenure none).isSome = true
  /-- Every notification is sent to a process that waits, and wakes it. -/
  answered : ∀ pid, (tr.foldlM (handshake pid) .away).isSome = true
  /-- The runners enter in the order in which the supervisor takes their `TestInit`. -/
  inOrder : tr.filterMap Note.enters <+: tr.filterMap Note.handlesInit

namespace World

variable {c : Processes} {find : Search} {w w' : World} {l l' : List Ptr} {p q : Ptr} {a : Action}
  {es tr : List Note}

/-- The first runner, once it has entered. -/
def inside (c : Processes) (w : World) (l : List Ptr) : List ℤ :=
  (l.head?.toList.filter fun q => (w.session c q).entered).map c.pid

structure Turns (c : Processes) (tr : List Note) (w : World) (l : List Ptr) : Prop where
  inv : w.Inv c l
  stages : ∀ p, tr.foldlM (handshake (c.pid p)) .away = some (w.session c p).stage
  strangers : ∀ pid, (∀ p, c.pid p ≠ pid) → tr.foldlM (handshake pid) .away = some .away
  holder : ∃ holder, tr.foldlM tenure none = some holder ∧
    ∀ pid ∈ holder, ∃ p, c.pid p = pid ∧ (w.session c p).Holds
  /-- `before` are those that have finished, and `lost` the one that is searched for ever. -/
  order : ∃ before lost, tr.filterMap Note.enters = before ++ w.inside c l ∧
    tr.filterMap Note.handlesInit = before ++ l.map c.pid ++ lost ∧ (lost ≠ [] → w.Hung)

lemma Turns.takesTurns (h : Turns c tr w l) : TakesTurns tr where
  exclusive := by
    obtain ⟨holder, hholder, -⟩ := h.holder
    rw [hholder]
    rfl
  answered pid := by
    by_cases hpid : ∃ p, c.pid p = pid
    · obtain ⟨p, rfl⟩ := hpid
      rw [h.stages p]
      rfl
    · rw [h.strangers pid (not_exists.mp hpid)]
      rfl
  inOrder := by
    obtain ⟨before, lost, henters, hinits, -⟩ := h.order
    rw [henters, hinits, List.append_assoc, List.prefix_append_right_inj]
    refine List.IsPrefix.trans ?_ (List.prefix_append _ _)
    rw [inside]
    cases l with
    | nil => exact List.nil_prefix
    | cons first l =>
      refine List.IsPrefix.map c.pid ?_
      simp only [List.head?_cons, Option.toList_some, List.filter_cons, List.filter_nil]
      split_ifs
      · exact ⟨l, rfl⟩
      · exact List.nil_prefix

lemma Hung.step (h : w.Hung) (hstep : Step c find w a w' es) : w'.Hung := by
  have hyields : w.supervisorYields = false := by
    rw [← Bool.not_eq_true]
    exact fun htrue => not_hung htrue h
  obtain ⟨p, hp⟩ := h
  cases a with
  | call q | access q | notify q | finish q _ _ | continueCallback q | expire q =>
    simp only [Step, World.step] at hstep
    split at hstep <;> cases hstep
    exact ⟨p, hp⟩
  | wake q =>
    simp only [Step, World.step] at hstep
    split at hstep
    · split at hstep <;> cases hstep
      exact ⟨p, hp⟩
    · cases hstep
  | service q | timeout q => simp [Step, World.step, hyields] at hstep
  | resume =>
    obtain ⟨stack, hstack⟩ := List.head?_eq_some_iff.mp hp
    simp [Step, World.step, hstack, Supervisor.resume] at hstep

/-- What the next runner's notification means to the handshake of another one. -/
lemma foldlM_next {pid : ℤ} (hpid : ∀ q ∈ l.head?, c.pid q ≠ pid) (σ : Stage) :
    (l.head?.toList.map fun q => Note.does (.ipcNotifyClient (c.pid q))).foldlM
      (handshake pid) σ = some σ := by
  cases l with
  | nil => rfl
  | cons first l => simp [handshake, hpid first rfl]

lemma pid_ne (hq : q ≠ p) : c.pid p ≠ c.pid q := fun heq => hq (c.pid_injective heq).symm

lemma Effect.stages (h : Effect c w w' a l l' es) (hinv : w.Inv c l)
    (hstages : ∀ p, tr.foldlM (handshake (c.pid p)) .away = some (w.session c p).stage) (q : Ptr) :
    (tr ++ es).foldlM (handshake (c.pid q)) .away = some (w'.session c q).stage := by
  refine h.forall_sessions tr (G := fun _ _ => True)
    (I := fun p tr x => tr.foldlM (handshake (c.pid p)) .away = some x.stage) ?_ ?_ hinv
    (fun _ _ => trivial) hstages q
  · intro p tr x label x' es hx hok hstep _
    rw [List.foldlM_append, hx]
    exact hstep.follows_handshake hok
  · intro p q tr x y label y' es hne hx _ _ hstep
    rw [List.foldlM_append, hx]
    exact hstep.handshake_of_ne (pid_ne hne) x.stage

/-- No note is about a process that is no runner. -/
lemma Effect.strangers (h : Effect c w w' a l l' es) {pid : ℤ} (hpid : ∀ p, c.pid p ≠ pid)
    (σ : Stage) : es.foldlM (handshake pid) σ = some σ := by
  cases h with
  | idle hothers => rfl
  | @own _ p _ _ _ hstep _ => exact hstep.handshake_of_ne (hpid p) σ
  | @search _ p _ _ _ hstep _ => exact hstep.handshake_of_ne (hpid p) σ
  | @enlist _ p _ _ _ hstep _ => exact hstep.handshake_of_ne (hpid p) σ
  | @release _ p es hstep hnext hothers =>
    rw [List.foldlM_append, hstep.handshake_of_ne (hpid p)]
    exact foldlM_next (fun q _ => hpid q) σ

/-- Nobody else holds when it is a runner's turn. -/
lemma Inv.eq_of_holds (h : w.Inv c l) (hp : (w.session c p).turn = .active)
    (hq : (w.session c q).Holds) : q = p := by
  have hhead := (h.active q).mp hq.1
  rw [(h.active p).mp hp] at hhead
  exact (Option.some.inj hhead).symm

lemma holder_of_step {label : Label} (hinv : w.Inv c l)
    (hstep : (w.session c p).Step c p label (w'.session c p) es)
    (hothers : ∀ q ≠ p, (w.session c q).Holds → (w'.session c q).Holds) {holder : Option ℤ}
    (hholder : ∀ pid ∈ holder, ∃ p, c.pid p = pid ∧ (w.session c p).Holds) :
    ∃ holder', es.foldlM tenure holder = some holder' ∧
      ∀ pid ∈ holder', ∃ p, c.pid p = pid ∧ (w'.session c p).Holds := by
  rcases hstep.tenure_cases (hinv.ok p) with ⟨hes, hkeeps⟩ | ⟨hholds, hactive, hes⟩ | hes
  · refine ⟨holder, hes holder, fun pid hpid => ?_⟩
    obtain ⟨q, hq, hqholds⟩ := hholder pid hpid
    by_cases hqp : q = p
    · subst hqp
      exact ⟨q, hq, hkeeps hqholds⟩
    · exact ⟨q, hq, hothers q hqp hqholds⟩
  · refine ⟨some (c.pid p), hes holder ?_, ?_⟩
    · cases holder with
      | none => exact .inl rfl
      | some pid =>
        obtain ⟨q, hq, hqholds⟩ := hholder pid rfl
        have heq := hinv.eq_of_holds hactive hqholds
        exact .inr (congrArg some (hq.symm.trans (congrArg c.pid heq)))
    · rintro pid ⟨⟩
      exact ⟨p, rfl, hholds⟩
  · refine ⟨_, hes holder, fun pid hpid => ?_⟩
    split_ifs at hpid with hmine
    · cases hpid
    · obtain ⟨q, hq, hqholds⟩ := hholder pid hpid
      have hqp : q ≠ p := by
        rintro rfl
        exact hmine (hq ▸ hpid)
      exact ⟨q, hq, hothers q hqp hqholds⟩

lemma Effect.holder (h : Effect c w w' a l l' es) (hinv : w.Inv c l) {holder : Option ℤ}
    (hholder : ∀ pid ∈ holder, ∃ p, c.pid p = pid ∧ (w.session c p).Holds) :
    ∃ holder', es.foldlM tenure holder = some holder' ∧
      ∀ pid ∈ holder', ∃ p, c.pid p = pid ∧ (w'.session c p).Holds := by
  cases h with
  | idle hothers =>
    exact ⟨holder, rfl, fun pid hpid => by simpa only [hothers] using hholder pid hpid⟩
  | own _ hstep hothers =>
    exact holder_of_step hinv hstep (fun q hq hholds => hothers q hq ▸ hholds) hholder
  | search _ _ hstep hothers =>
    exact holder_of_step hinv hstep (fun q hq hholds => hothers q hq ▸ hholds) hholder
  | enlist _ _ hstep hothers =>
    exact holder_of_step hinv hstep (fun q hq hholds => hothers q hq ▸ hholds) hholder
  | @release _ p es hstep hnext hothers =>
    have hkeeps (q : Ptr) (hq : q ≠ p) (hholds : (w.session c q).Holds) :
        (w'.session c q).Holds := by
      by_cases hhead : q ∈ l'.head?
      · have hqueued := (hinv.queued q).mpr (List.mem_of_mem_head? hhead)
        cases hholds.1.symm.trans hqueued
      · exact hothers q hq hhead ▸ hholds
    obtain ⟨holder', hes, hholder'⟩ := holder_of_step hinv hstep hkeeps hholder
    refine ⟨holder', ?_, hholder'⟩
    rw [List.foldlM_append, hes]
    cases l' <;> rfl

/-! ### The order is kept -/

lemma inside_congr (h : ∀ q ∈ l.head?, (w'.session c q).entered = (w.session c q).entered) :
    w'.inside c l = w.inside c l := by
  cases l with
  | nil => rfl
  | cons first l => simp [inside, List.filter_cons, h first rfl]

lemma inside_of_step {label : Label} (hinv : w.Inv c l)
    (hstep : (w.session c p).Step c p label (w'.session c p) es)
    (hothers : ∀ q ≠ p, w'.session c q = w.session c q) :
    w.inside c l ++ es.filterMap Note.enters = w'.inside c l := by
  rcases hstep.enters (hinv.ok p) with ⟨hentered, hes⟩ | ⟨hout, hin, hactive, hes⟩
  · rw [hes, List.append_nil]
    refine (inside_congr fun q _ => ?_).symm
    by_cases hq : q = p
    · subst hq
      exact hentered
    · rw [hothers q hq]
  · obtain ⟨l, rfl⟩ : ∃ l', l = p :: l' := ⟨_, hinv.eq_cons hactive⟩
    simp [inside, hes, hout, hin]

end World

namespace Session

variable {c : Processes} {p : Ptr} {x x' : Session} {first : Bool} {es : List Note}

lemma entered_of_queued (h : x.turn = .queued) : x.entered = false := by
  simp [entered, (turn_eq_queued.mp h).1]

lemma entered_of_letIn (h : Step c p x .letIn x' es) (hok : x.Ok c p) : x'.entered = false := by
  obtain ⟨hqueued, -⟩ := h.moves hok
  rcases h.enters hok with ⟨hentered, -⟩ | ⟨-, -, hactive, -⟩
  · exact hentered.trans (entered_of_queued hqueued)
  · cases hqueued.symm.trans hactive

lemma Step.entered_of_release (h : Step c p x .release x' es) (hok : x.Ok c p) :
    x.entered = true := by
  cases h with
  | cleanupTimeout hmessage hcmd _ =>
    have hpc := hok.waits_testCleanup hmessage hcmd
    simp [entered, hpc]
  | summarized hframes =>
    have hpc := hok.waits_of_summarized hframes
    simp [entered, hpc]

lemma Step.entered_of_enlist (h : Step c p x (.enlist first) x' es) (hok : x.Ok c p) :
    x'.entered = false := by
  cases h with
  | init hmessage hcmd =>
    have hpc := hok.waits_testInit hmessage hcmd
    simp [entered, hpc]

end Session

namespace World

variable {c : Processes} {find : Search} {w w' : World} {l l' : List Ptr} {p q : Ptr} {a : Action}
  {es tr : List Note}

lemma Effect.order (h : Effect c w w' a l l' es) (hinv : w.Inv c l) (hhung : w.Hung → w'.Hung)
    {before lost enters inits : List ℤ} (henters : enters = before ++ w.inside c l)
    (hinits : inits = before ++ l.map c.pid ++ lost) (hlost : lost ≠ [] → w.Hung) :
    ∃ before' lost', enters ++ es.filterMap Note.enters = before' ++ w'.inside c l' ∧
      inits ++ es.filterMap Note.handlesInit = before' ++ l'.map c.pid ++ lost' ∧
      (lost' ≠ [] → w'.Hung) := by
  subst henters hinits
  cases h with
  | idle hothers =>
    refine ⟨before, lost, ?_, by simp, fun hne => hhung (hlost hne)⟩
    rw [inside_congr fun q _ => by rw [hothers q]]
    simp
  | @own _ p label es hlabel hstep hothers =>
    refine ⟨before, lost, ?_, ?_, fun hne => hhung (hlost hne)⟩
    · rw [List.append_assoc, inside_of_step hinv hstep hothers]
    · have hinit : label.isInit = false := by rcases hlabel with rfl | ⟨rfl, -⟩ <;> rfl
      rw [hstep.handlesInit, hinit]
      simp
  | @search _ p es hnot hhung' hstep hothers =>
    obtain rfl : lost = [] := by
      by_contra hne
      exact hnot (hlost hne)
    refine ⟨before, [c.pid p], ?_, ?_, fun _ => hhung'⟩
    · rw [List.append_assoc, inside_of_step hinv hstep hothers]
    · rw [hstep.handlesInit]
      simp [Label.isInit]
  | @enlist _ p es hp hnot hstep hothers =>
    obtain rfl : lost = [] := by
      by_contra hne
      exact hnot (hlost hne)
    refine ⟨before, [], ?_, ?_, fun hne => absurd rfl hne⟩
    · have hes : es.filterMap Note.enters = [] := by
        rcases hstep.enters (hinv.ok p) with ⟨-, hes⟩ | ⟨-, -, hactive, -⟩
        · exact hes
        · cases (hstep.moves (hinv.ok p)).1.symm.trans hactive
      rw [hes, List.append_nil]
      cases l with
      | nil => simp [inside, hstep.entered_of_enlist (hinv.ok p)]
      | cons first l =>
        have hne : first ≠ p := fun heq => hp (heq ▸ List.mem_cons_self)
        simp [inside, List.filter_cons, hothers first hne]
    · rw [hstep.handlesInit]
      simp [Label.isInit]
  | @release _ p es hstep hnext hothers =>
    refine ⟨before ++ [c.pid p], lost, ?_, ?_, fun hne => hhung (hlost hne)⟩
    · have hentered := hstep.entered_of_release (hinv.ok p)
      have hes : es.filterMap Note.enters = [] := by
        rcases hstep.enters (hinv.ok p) with ⟨-, hes⟩ | ⟨hout, -⟩
        · exact hes
        · cases hentered.symm.trans hout
      have hnotes : (l'.head?.toList.map fun q =>
          Note.does (.ipcNotifyClient (c.pid q))).filterMap Note.enters = [] := by
        cases l' <;> rfl
      have hin : w.inside c (p :: l') = [c.pid p] := by simp [inside, hentered]
      have hout : w'.inside c l' = [] := by
        cases l' with
        | nil => rfl
        | cons next l' => simp [inside, Session.entered_of_letIn (hnext next rfl) (hinv.ok next)]
      rw [List.filterMap_append, hes, hnotes, hin, hout]
      simp
    · rw [List.filterMap_append, hstep.handlesInit]
      cases l' <;> simp [Label.isInit, Note.handlesInit]

lemma Turns.step (h : Turns c tr w l) (hstep : Step c find w a w' es) :
    ∃ l', Turns c (tr ++ es) w' l' := by
  obtain ⟨l', heffect, hpending⟩ := effect_of_step h.inv hstep
  obtain ⟨holder, hholder, hholds⟩ := h.holder
  obtain ⟨holder', hes, hholds'⟩ := heffect.holder h.inv hholds
  obtain ⟨before, lost, henters, hinits, hlost⟩ := h.order
  obtain ⟨before', lost', henters', hinits', hlost'⟩ :=
    heffect.order h.inv (fun hhung => hhung.step hstep) henters hinits hlost
  refine ⟨l', h.inv.effect heffect hpending, heffect.stages h.inv h.stages, fun pid hpid => ?_,
    ⟨holder', ?_, hholds'⟩, before', lost', ?_, ?_, hlost'⟩
  · rw [List.foldlM_append, h.strangers pid hpid]
    exact heffect.strangers hpid _
  · rw [List.foldlM_append, hholder]
    exact hes
  · rw [List.filterMap_append, henters']
  · rw [List.filterMap_append, hinits']

lemma turns_initial (c : Processes) (s : Supervisor) : Turns c [] (initial s) [] where
  inv := inv_initial s
  stages _ := rfl
  strangers _ _ := rfl
  holder := ⟨none, rfl, nofun⟩
  order := ⟨[], [], rfl, rfl, absurd rfl⟩

lemma turns_of_run {s : Supervisor} (h : Run (Step c find) (initial s) tr w) :
    ∃ l, Turns c tr w l :=
  h.trace_invariant (fun tr w => ∃ l, Turns c tr w l)
    (fun _ _ _ _ _ ⟨_, hturns⟩ hstep => hturns.step hstep) ⟨[], turns_initial c s⟩

/-- Whatever the order of messages, notifications, timeouts and prints, the runners take turns. A
notification on its way is for a runner that waits. -/
theorem takesTurns_of_run {s : Supervisor} (h : Run (Step c find) (initial s) tr w) :
    TakesTurns tr ∧ ∀ p, 0 < w.notifications (c.pid p) →
      w.notifications (c.pid p) = 1 ∧ w.done p = false ∧ ∃ y, w.pc p = .waits y := by
  obtain ⟨l, hturns⟩ := turns_of_run h
  refine ⟨hturns.takesTurns, fun p hn => ?_⟩
  have hpos : 0 < (w.session c p).notifications := hn
  obtain ⟨y, hpc, -, hsum, hdone⟩ := (hturns.inv.ok p).waits (by omega)
  have hone : (w.session c p).notifications = 1 := by omega
  exact ⟨hone, hdone, y, hpc⟩

/-! ### Two runners -/

lemma run_of_play_any (as : List Action) {P : World × List Note → Bool}
    (h : (play (World.step c find) w as).any P = true) :
    ∃ tr w', Run (Step c find) w tr w' ∧ P (w', tr) = true :=
  Run.of_play_any (fun _ _ _ _ hstep => hstep) as h

def sampleSupervisor : Supervisor where
  tests _ := Arguments.initialTest ⟨fun _ _ => 0, 0, 0⟩
  head := none
  tail := none

/-- Everyone has one test. -/
def sampleProcesses : Processes where
  pid p := p
  pid_injective := Nat.cast_injective
  arguments _ := ⟨fun _ _ => 0, 1, 100⟩

/-- The runner sends its command. -/
def sends (p : Ptr) : List Action := [.access p, .notify p]

def awakes (p : Ptr) : List Action := [.continueCallback p, .wake p]

/-- The second runner comes while the result of the first one is printed. -/
def samplePair : List Action := List.flatten [
  [.call 1], sends 1, [.service 1], awakes 1,
  [.access 1], sends 1, [.service 1], awakes 1,
  [.finish 1 true fun _ => 0, .access 1, .access 1, .access 1], sends 1,
  [.service 1, .resume, .call 2], sends 2, [.service 2, .resume, .resume], awakes 1,
  [.access 1, .access 1], sends 1, [.service 1, .resume], awakes 2]

theorem takesTurns_of_run_pair :
    ∃ tr w, Run (Step sampleProcesses (.walk 2)) (initial sampleSupervisor) tr w ∧
      tr.filterMap Note.enters = [1, 2] ∧ TakesTurns tr ∧ w.notifications 1 = 1 := by
  have hplay : (play (World.step sampleProcesses (.walk 2)) (initial sampleSupervisor)
      samplePair).any (fun r => r.2.filterMap Note.enters = [1, 2] ∧ r.1.notifications 1 = 1) := by
    decide +kernel
  obtain ⟨tr, w, hrun, hfacts⟩ := run_of_play_any samplePair hplay
  obtain ⟨henters, hn⟩ := of_decide_eq_true hfacts
  exact ⟨tr, w, hrun, henters, (takesTurns_of_run hrun).1, hn⟩

end World

end UnitTest
