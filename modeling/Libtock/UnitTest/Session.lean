import Libtock.UnitTest.World

/-!
# One runner and the supervisor

The session of a runner is the part of the world that concerns it. While the runner waits there is
at most one message, answer in progress, notification or `done` for it, and none while it runs. A
session starts before its turn, may be queued, has its turn, and ends after it.
-/

namespace UnitTest

open Tock

structure Session where
  pc : Pc
  done : Bool
  /-- The object without its link. -/
  test : UnitTestT
  messages : ℕ
  notifications : ℕ
  /-- The callbacks for it that are not done, innermost first. -/
  frames : List Frame

def World.session (c : Processes) (w : World) (p : Ptr) : Session where
  pc := w.pc p
  done := w.done p
  test := (w.supervisor.tests p).unlinked
  messages := w.messages p
  notifications := w.notifications (c.pid p)
  frames := w.stack.filter fun f => f.test = p

/-- What a step of a session means to the queue. -/
inductive Label
  | own
  | timeout
  /-- `TestInit`, with a search that does not end. -/
  | search
  /-- `TestInit`; whether the runner is the first one. -/
  | enlist (first : Bool)
  /-- The runner before it has finished. -/
  | letIn
  /-- `TestCleanup` -/
  | release
  deriving DecidableEq

inductive Turn
  | before
  | queued
  | active
  | after
  deriving DecidableEq

def Label.Moves : Label → Turn → Turn → Prop
  | own, t, t' | timeout, t, t' | search, t, t' => t' = t
  | enlist first, t, t' => t = .before ∧ t' = if first then .active else .queued
  | letIn, t, t' => t = .queued ∧ t' = .active
  | release, t, t' => t = .active ∧ t' = .after

def Pc.awaited : Pc → Option Sync
  | waits y => some y
  | _ => none

lemma Pc.awaited_eq_some {pc : Pc} {y : Sync} : pc.awaited = some y ↔ pc = waits y := by
  cases pc <;> simp [awaited]

/-- The message that the callback will answer. -/
def Frame.answers : Frame → Option UnitTestCmd
  | searches _ => some .testInit
  | result .service _ | outcome .service _ _ | reported .service _ => some .testEnd
  | summarized .service _ => some .testCleanup
  | result .timeout _ | outcome .timeout _ _ | reported .timeout _ | summarized .timeout _ => none

namespace Session

/-- The answers in progress. -/
def owed (x : Session) : ℕ := x.frames.countP fun f => f.answers.isSome

def woken (x : Session) : ℕ := if x.pc.awaited.isSome = true ∧ x.done = true then 1 else 0

def turn (x : Session) : Turn :=
  match x.pc with
  | .notCalled | .setsCmd .testInit | .notifies .testInit => .before
  | .waits .testInit =>
    if 0 < x.messages + x.owed then .before
    else if 0 < x.notifications ∨ x.done = true then .active
    else .queued
  | .waits .testCleanup => if 0 < x.messages + x.owed then .active else .after
  | .returned => .after
  | _ => .active

/-- The steps that concern the runner `p`. -/
inductive Step (c : Processes) (p : Ptr) (x : Session) : Label → Session → List Note → Prop
  | call (hpc : x.pc = .notCalled) :
    Step c p x .own { x with pc := .setsCmd .testInit, test := (c.arguments p).initialTest } []
  | access {pc : Pc} {test : UnitTestT}
      (hpc : x.pc.access (c.arguments p) x.test = some (pc, test)) :
    Step c p x .own { x with pc, test } []
  | notify {y : Sync} (hpc : x.pc = .notifies y) :
    Step c p x .own { x with pc := .waits y, done := false, messages := x.messages + 1 }
      [.asks (c.pid p) y]
  | wake {y : Sync} (hpc : x.pc = .waits y) (hdone : x.done = true) :
    Step c p x .own { x with pc := y.next } [.wakes (c.pid p) y]
  | finish {i : ℕ} (passed : Bool) (reason : Fin 72 → U8) (hpc : x.pc = .runsTest i) :
    Step c p x .own { x with pc := .readsResult i passed reason } []
  | continueCallback (h : 0 < x.notifications) (hpc : x.pc.yields = true) :
    Step c p x .own { x with notifications := x.notifications - 1, done := true } []
  | searches (h : 0 < x.messages) (hcmd : x.test.cmd = .testInit) :
    Step c p x .search
      { x with
        messages := x.messages - 1
        test := { x.test with pid := c.pid p }
        frames := .searches p :: x.frames }
      [.handles (c.pid p) .testInit x.test.current]
  | init {first : Bool} (h : 0 < x.messages) (hcmd : x.test.cmd = .testInit) :
    Step c p x (.enlist first)
      { x with
        messages := x.messages - 1
        test := { x.test with pid := c.pid p }
        notifications := x.notifications + if first then 1 else 0 }
      (.handles (c.pid p) .testInit x.test.current ::
        if first then [.does (.ipcNotifyClient (c.pid p))] else [])
  | start (h : 0 < x.messages) (hcmd : x.test.cmd = .testStart) :
    Step c p x .own { x with messages := x.messages - 1, notifications := x.notifications + 1 }
      [.handles (c.pid p) .testStart x.test.current, .does (.timerIn x.test.timeoutMs p),
        .does (.ipcNotifyClient (c.pid p))]
  | stop (h : 0 < x.messages) (hcmd : x.test.cmd = .testEnd) (hresult : x.test.result ≠ .timeout) :
    Step c p x .own
      { x with
        messages := x.messages - 1
        test := x.test.counted
        frames := .result .service p :: x.frames }
      [.handles (c.pid p) .testEnd x.test.current, .does (.timerCancel p)]
  | stopTimeout (h : 0 < x.messages) (hcmd : x.test.cmd = .testEnd)
      (hresult : x.test.result = .timeout) :
    Step c p x .own { x with messages := x.messages - 1 }
      [.handles (c.pid p) .testEnd x.test.current, .does (.timerCancel p)]
  | cleanup (h : 0 < x.messages) (hcmd : x.test.cmd = .testCleanup)
      (hresult : x.test.result ≠ .timeout) :
    Step c p x .own
      { x with messages := x.messages - 1, frames := .summarized .service p :: x.frames }
      [.handles (c.pid p) .testCleanup x.test.current, .does (printTestSummary x.test)]
  | cleanupTimeout (h : 0 < x.messages) (hcmd : x.test.cmd = .testCleanup)
      (hresult : x.test.result = .timeout) :
    Step c p x .release { x with messages := x.messages - 1, notifications := x.notifications + 1 }
      [.handles (c.pid p) .testCleanup x.test.current, .does (.ipcNotifyClient (c.pid p))]
  | timeout :
    Step c p x .timeout
      { x with
        test := { x.test with result := .timeout }
        frames := .result .timeout p :: x.frames }
      [.expires (c.pid p) x.test.current]
  | result {caller : Caller} {printed : UnitTestT} {frames : List Frame}
      (hframes : x.frames = .result caller p :: frames) (hprinted : printed.unlinked = x.test) :
    Step c p x .own { x with frames := .outcome caller p printed :: frames } []
  | outcome {caller : Caller} {printed : UnitTestT} {frames : List Frame}
      (hframes : x.frames = .outcome caller p printed :: frames) :
    Step c p x .own { x with frames := .reported caller p :: frames }
      [.does (printTestResult { printed with result := x.test.result })]
  | reported {frames : List Frame} (hframes : x.frames = .reported .service p :: frames) :
    Step c p x .own { x with frames, notifications := x.notifications + 1 }
      [.does (.ipcNotifyClient (c.pid p))]
  | reportedTimeout {frames : List Frame} (hframes : x.frames = .reported .timeout p :: frames) :
    Step c p x .own { x with frames := .summarized .timeout p :: frames }
      [.does (printTestSummary x.test)]
  | summarized {frames : List Frame} (hframes : x.frames = .summarized .service p :: frames) :
    Step c p x .release { x with frames, notifications := x.notifications + 1 }
      [.does (.ipcNotifyClient (c.pid p))]
  | summarizedTimeout {frames : List Frame}
      (hframes : x.frames = .summarized .timeout p :: frames) :
    Step c p x .own { x with frames } []
  | letIn (hqueued : x.turn = .queued) :
    Step c p x .letIn { x with notifications := x.notifications + 1 }
      [.does (.ipcNotifyClient (c.pid p))]

/-! ### The handshake -/

structure Ok (c : Processes) (p : Ptr) (x : Session) : Prop where
  tokens : x.messages + x.notifications + x.owed + x.woken ≤
    if x.pc.awaited.isSome = true then 1 else 0
  cmd : ∀ y, x.pc = .notifies y ∨ x.pc = .waits y → x.test.cmd = y.cmd
  answers : ∀ f ∈ x.frames, ∀ cmd ∈ f.answers, ∃ y, x.pc = .waits y ∧ y.cmd = cmd
  registered : x.turn ≠ .before → x.test.pid = c.pid p

variable {c : Processes} {p : Ptr} {x x' : Session} {label : Label} {es : List Note}

lemma turn_eq_queued : x.turn = .queued ↔
    x.pc = .waits .testInit ∧ x.messages = 0 ∧ x.owed = 0 ∧ x.notifications = 0 ∧
      x.done = false := by
  by_cases hpc : x.pc = .waits .testInit
  · simp only [turn, hpc, true_and]
    split_ifs with hbefore hactive
    · simp only [false_iff]
      omega
    · simp only [false_iff]
      rintro ⟨-, -, hnone, hdone⟩
      simp [hnone, hdone] at hactive
    · simp only [not_or, Bool.not_eq_true] at hactive
      exact iff_of_true rfl ⟨by omega, by omega, by omega, hactive.2⟩
  · refine iff_of_false ?_ fun h => hpc h.1
    rw [turn]
    split <;> (try split_ifs) <;> simp_all

lemma Ok.waits (h : x.Ok c p) (hpos : 0 < x.messages + x.notifications + x.owed) :
    ∃ y, x.pc = .waits y ∧ x.test.cmd = y.cmd ∧ x.messages + x.notifications + x.owed = 1 ∧
      x.done = false := by
  have htokens := h.tokens
  split at htokens
  · next hwaits =>
    obtain ⟨y, hy⟩ := Option.isSome_iff_exists.mp hwaits
    have hpc := Pc.awaited_eq_some.mp hy
    have hdone : x.done = false := by
      by_contra hdone
      have hwoken : x.woken = 1 := if_pos ⟨hwaits, by simpa using hdone⟩
      omega
    exact ⟨y, hpc, h.cmd y (.inr hpc), by omega, hdone⟩
  · omega

/-- A message is the token of the session. -/
lemma Ok.of_message (h : x.Ok c p) (hmessage : 0 < x.messages) :
    ∃ y, x.pc = .waits y ∧ x.test.cmd = y.cmd ∧ x.messages = 1 ∧ x.notifications = 0 ∧
      x.owed = 0 ∧ x.done = false := by
  obtain ⟨y, hpc, hcmd, hone, hdone⟩ := h.waits (by omega)
  exact ⟨y, hpc, hcmd, by omega, by omega, by omega, hdone⟩

/-- So is the callback that answers it. -/
lemma Ok.of_frame (h : x.Ok c p) {f : Frame} {frames : List Frame} {cmd : UnitTestCmd}
    (hframes : x.frames = f :: frames) (hf : f.answers = some cmd) :
    ∃ y, x.pc = .waits y ∧ x.test.cmd = y.cmd ∧ y.cmd = cmd ∧ x.messages = 0 ∧
      x.notifications = 0 ∧ x.done = false ∧ frames.countP (fun f => f.answers.isSome) = 0 := by
  have howed : x.owed = frames.countP (fun f => f.answers.isSome) + 1 := by
    simp [owed, hframes, hf]
  obtain ⟨y, hpc, hcmd, hone, hdone⟩ := h.waits (by omega)
  obtain ⟨y', hpc', hy'⟩ := h.answers f (hframes ▸ List.mem_cons_self) cmd hf
  obtain rfl : y = y' := by simpa [hpc] using hpc'
  exact ⟨y, hpc, hcmd, hy', by omega, by omega, hdone, by omega⟩

lemma Ok.of_woken (h : x.Ok c p) {y : Sync} (hpc : x.pc = .waits y) (hdone : x.done = true) :
    x.messages = 0 ∧ x.notifications = 0 ∧ x.owed = 0 := by
  have htokens := h.tokens
  have hwoken : x.woken = 1 := if_pos ⟨by simp [hpc, Pc.awaited], hdone⟩
  have hone : (if x.pc.awaited.isSome = true then 1 else 0) = 1 := by simp [hpc, Pc.awaited]
  omega

/-- A runner that does not wait has no token. -/
lemma Ok.of_away (h : x.Ok c p) (hpc : x.pc.awaited = none) :
    x.messages = 0 ∧ x.notifications = 0 ∧ x.owed = 0 := by
  have htokens := h.tokens
  rw [if_neg (by simp [hpc])] at htokens
  omega

end Session

namespace Sync

variable {y : Sync}

@[simp] lemma cmd_eq_testInit : y.cmd = .testInit ↔ y = .testInit := by cases y <;> simp [cmd]

@[simp] lemma cmd_eq_testStart : y.cmd = .testStart ↔ ∃ i, y = .testStart i := by
  cases y <;> simp [cmd]

@[simp] lemma cmd_eq_testEnd : y.cmd = .testEnd ↔ ∃ i, y = .testEnd i := by
  cases y <;> simp [cmd]

@[simp] lemma cmd_eq_testCleanup : y.cmd = .testCleanup ↔ y = .testCleanup := by
  cases y <;> simp [cmd]

end Sync

namespace Session

variable {c : Processes} {p : Ptr} {x : Session}

/-! ### What a message says about the runner -/

lemma Ok.messages_eq_one (h : x.Ok c p) (hmessage : 0 < x.messages) : x.messages = 1 := by
  obtain ⟨-, -, -, hm, -⟩ := h.of_message hmessage
  exact hm

lemma Ok.waits_testInit (h : x.Ok c p) (hmessage : 0 < x.messages)
    (hcmd : x.test.cmd = .testInit) : x.pc = .waits .testInit := by
  obtain ⟨y, hpc, hy, -⟩ := h.of_message hmessage
  obtain rfl : y = .testInit := Sync.cmd_eq_testInit.mp (hy.symm.trans hcmd)
  exact hpc

lemma Ok.waits_testStart (h : x.Ok c p) (hmessage : 0 < x.messages)
    (hcmd : x.test.cmd = .testStart) : ∃ i, x.pc = .waits (.testStart i) := by
  obtain ⟨y, hpc, hy, -⟩ := h.of_message hmessage
  obtain ⟨i, rfl⟩ := Sync.cmd_eq_testStart.mp (hy.symm.trans hcmd)
  exact ⟨i, hpc⟩

lemma Ok.waits_testEnd (h : x.Ok c p) (hmessage : 0 < x.messages)
    (hcmd : x.test.cmd = .testEnd) : ∃ i, x.pc = .waits (.testEnd i) := by
  obtain ⟨y, hpc, hy, -⟩ := h.of_message hmessage
  obtain ⟨i, rfl⟩ := Sync.cmd_eq_testEnd.mp (hy.symm.trans hcmd)
  exact ⟨i, hpc⟩

lemma Ok.waits_testCleanup (h : x.Ok c p) (hmessage : 0 < x.messages)
    (hcmd : x.test.cmd = .testCleanup) : x.pc = .waits .testCleanup := by
  obtain ⟨y, hpc, hy, -⟩ := h.of_message hmessage
  obtain rfl : y = .testCleanup := Sync.cmd_eq_testCleanup.mp (hy.symm.trans hcmd)
  exact hpc

lemma Ok.waits_of_reported (h : x.Ok c p) {frames : List Frame}
    (hframes : x.frames = .reported .service p :: frames) :
    ∃ i, x.pc = .waits (.testEnd i) := by
  obtain ⟨y, hpc, -, hy, -⟩ := h.of_frame hframes rfl
  obtain ⟨i, rfl⟩ := Sync.cmd_eq_testEnd.mp hy
  exact ⟨i, hpc⟩

lemma Ok.waits_of_summarized (h : x.Ok c p) {frames : List Frame}
    (hframes : x.frames = .summarized .service p :: frames) : x.pc = .waits .testCleanup := by
  obtain ⟨y, hpc, -, hy, -⟩ := h.of_frame hframes rfl
  obtain rfl : y = .testCleanup := Sync.cmd_eq_testCleanup.mp hy
  exact hpc

end Session

namespace Pc

variable {a : Arguments} {pc pc' : Pc} {test test' : UnitTestT}

lemma awaited_of_access (h : pc.access a test = some (pc', test')) :
    pc.awaited = none ∧ pc'.awaited = none := by
  cases pc with
  | loops i =>
    simp only [access] at h
    split at h <;> cases h <;> exact ⟨rfl, rfl⟩
  | readsResult i passed reason =>
    simp only [access, Option.some.injEq, Prod.mk.injEq] at h
    obtain ⟨rfl, -⟩ := h
    split_ifs <;> exact ⟨rfl, rfl⟩
  | setsCmd y | writesResult i passed reason | writesReason i reason | increments i =>
    simp only [access, Option.some.injEq, Prod.mk.injEq] at h
    obtain ⟨rfl, -⟩ := h
    exact ⟨rfl, rfl⟩
  | _ => cases h

lemma cmd_of_access (h : pc.access a test = some (pc', test')) {y : Sync}
    (hpc : pc' = .notifies y) : test'.cmd = y.cmd := by
  cases pc with
  | loops i =>
    simp only [access] at h
    split at h <;> cases h <;> cases hpc
  | readsResult i passed reason =>
    simp only [access, Option.some.injEq, Prod.mk.injEq] at h
    obtain ⟨rfl, -⟩ := h
    split_ifs at hpc
  | setsCmd y | writesResult i passed reason | writesReason i reason | increments i =>
    simp only [access, Option.some.injEq, Prod.mk.injEq] at h
    obtain ⟨rfl, rfl⟩ := h
    cases hpc <;> rfl
  | _ => cases h

lemma pid_of_access (h : pc.access a test = some (pc', test')) : test'.pid = test.pid := by
  cases pc with
  | loops i =>
    simp only [access] at h
    split at h <;> cases h <;> rfl
  | setsCmd y | readsResult i passed reason | writesResult i passed reason | writesReason i reason
  | increments i =>
    simp only [access, Option.some.injEq, Prod.mk.injEq] at h
    obtain ⟨-, rfl⟩ := h
    rfl
  | _ => cases h

end Pc

namespace Session

variable {c : Processes} {p : Ptr} {x x' : Session} {label : Label} {es : List Note}

lemma turn_of_access {pc : Pc} {test : UnitTestT}
    (h : x.pc.access (c.arguments p) x.test = some (pc, test)) :
    ({ x with pc, test } : Session).turn = x.turn := by
  cases hpc : x.pc with
  | loops i =>
    simp only [Pc.access, hpc] at h
    split at h <;> cases h <;> simp [turn, hpc]
  | readsResult i passed reason =>
    simp only [Pc.access, hpc, Option.some.injEq, Prod.mk.injEq] at h
    obtain ⟨rfl, -⟩ := h
    split_ifs <;> simp [turn, hpc]
  | setsCmd y =>
    simp only [Pc.access, hpc, Option.some.injEq, Prod.mk.injEq] at h
    obtain ⟨rfl, -⟩ := h
    cases y <;> simp [turn, hpc]
  | writesResult i passed reason | writesReason i reason | increments i =>
    simp only [Pc.access, hpc, Option.some.injEq, Prod.mk.injEq] at h
    obtain ⟨rfl, -⟩ := h
    simp [turn, hpc]
  | _ => simp [Pc.access, hpc] at h

lemma owed_of_frames {f : Frame} {frames : List Frame} (hframes : x.frames = f :: frames) :
    x.owed = frames.countP (fun f => f.answers.isSome) +
      if f.answers.isSome = true then 1 else 0 := by
  rw [owed, hframes, List.countP_cons]

lemma owed_pos {f : Frame} {frames : List Frame} (hframes : x.frames = f :: frames)
    (hf : f.answers.isSome = true) : 0 < x.owed := by
  rw [owed_of_frames hframes, if_pos hf]
  exact Nat.succ_pos _

lemma owed_eq {f f' : Frame} {frames : List Frame} (hframes : x.frames = f :: frames)
    (hframes' : x'.frames = f' :: frames) (hanswers : f'.answers = f.answers) :
    x'.owed = x.owed := by
  rw [owed_of_frames hframes', owed_of_frames hframes, hanswers]

/-- The turn does not depend on the callbacks that answer no message. -/
lemma turn_congr (hpc : x'.pc = x.pc) (hdone : x'.done = x.done) (hm : x'.messages = x.messages)
    (hn : x'.notifications = x.notifications) (ho : x'.owed = x.owed) : x'.turn = x.turn := by
  simp only [turn, hpc, hdone, hm, hn, ho]

lemma turn_waits_testInit (hpc : x.pc = .waits .testInit) (hpos : 0 < x.messages + x.owed) :
    x.turn = .before := by
  simp only [turn, hpc, hpos, if_true]

lemma turn_waits_testCleanup (hpc : x.pc = .waits .testCleanup) (hpos : 0 < x.messages + x.owed) :
    x.turn = .active := by
  simp only [turn, hpc, hpos, if_true]

lemma turn_ne_before {y : Sync} (hpc : x.pc = .waits y) (hy : y ≠ .testInit) :
    x.turn ≠ .before := by
  cases y with
  | testInit => exact absurd rfl hy
  | testStart i | testEnd i => simp [turn, hpc]
  | testCleanup =>
    simp only [turn, hpc]
    split_ifs <;> nofun

/-- Every step moves the runner on in the queue as its label says. -/
lemma Step.moves (h : Step c p x label x' es) (hok : x.Ok c p) : label.Moves x.turn x'.turn := by
  cases h with
  | call hpc => simp [Label.Moves, turn, hpc]
  | access hpc => exact turn_of_access hpc
  | @notify y hpc => cases y <;> simp [Label.Moves, turn, hpc]
  | @wake y hpc hdone =>
    obtain ⟨hm, hn, ho⟩ := hok.of_woken hpc hdone
    cases y <;> simp [Label.Moves, turn, hpc, hdone, hm, ho, Sync.next]
  | finish _ _ hpc => simp [Label.Moves, turn, hpc]
  | continueCallback hn hyields =>
    obtain ⟨y, hpc, -, hone, hdone⟩ := hok.waits (by omega)
    have hm : x.messages = 0 := by omega
    have ho : x.owed = 0 := by omega
    rw [owed] at ho
    cases y <;> simp [Label.Moves, turn, hpc, hm, owed, ho, hn]
  | searches hmessage hcmd =>
    have hpc := hok.waits_testInit hmessage hcmd
    have hturn : x.turn = .before := turn_waits_testInit hpc (Nat.add_pos_left hmessage _)
    rw [Label.Moves, hturn]
    exact turn_waits_testInit hpc (Nat.add_pos_right _ (owed_pos (f := .searches p) rfl rfl))
  | @init first hmessage hcmd =>
    have hpc := hok.waits_testInit hmessage hcmd
    obtain ⟨-, -, -, hm, hn, ho, hdone⟩ := hok.of_message hmessage
    rw [owed] at ho
    cases first <;> simp [Label.Moves, turn, hpc, hm, hn, owed, ho, hdone]
  | start hmessage hcmd =>
    obtain ⟨i, hpc⟩ := hok.waits_testStart hmessage hcmd
    simp [Label.Moves, turn, hpc]
  | stop hmessage hcmd hresult =>
    obtain ⟨i, hpc⟩ := hok.waits_testEnd hmessage hcmd
    simp [Label.Moves, turn, hpc]
  | stopTimeout hmessage hcmd hresult =>
    obtain ⟨i, hpc⟩ := hok.waits_testEnd hmessage hcmd
    simp [Label.Moves, turn, hpc]
  | cleanup hmessage hcmd hresult =>
    have hpc := hok.waits_testCleanup hmessage hcmd
    have hturn : x.turn = .active := turn_waits_testCleanup hpc (Nat.add_pos_left hmessage _)
    rw [Label.Moves, hturn]
    exact turn_waits_testCleanup hpc
      (Nat.add_pos_right _ (owed_pos (f := .summarized .service p) rfl rfl))
  | cleanupTimeout hmessage hcmd hresult =>
    have hpc := hok.waits_testCleanup hmessage hcmd
    obtain ⟨-, -, -, hm, -, ho, -⟩ := hok.of_message hmessage
    rw [owed] at ho
    simp [Label.Moves, turn, hpc, hm, owed, ho]
  | timeout =>
    exact turn_congr rfl rfl rfl rfl (List.countP_cons_of_neg Bool.false_ne_true)
  | @result caller printed frames hframes hprinted =>
    exact turn_congr rfl rfl rfl rfl (owed_eq hframes rfl (by cases caller <;> rfl))
  | @outcome caller printed frames hframes =>
    exact turn_congr rfl rfl rfl rfl (owed_eq hframes rfl (by cases caller <;> rfl))
  | reported hframes =>
    obtain ⟨i, hpc⟩ := hok.waits_of_reported hframes
    simp [Label.Moves, turn, hpc]
  | reportedTimeout hframes => exact turn_congr rfl rfl rfl rfl (owed_eq hframes rfl rfl)
  | summarized hframes =>
    have hpc := hok.waits_of_summarized hframes
    obtain ⟨-, -, -, -, hm, -, -, ho⟩ := hok.of_frame hframes rfl
    refine ⟨turn_waits_testCleanup hpc (Nat.add_pos_right _ (owed_pos hframes rfl)), ?_⟩
    simp only [turn, hpc, hm, owed, ho, Nat.lt_irrefl, if_false]
  | summarizedTimeout hframes =>
    exact turn_congr rfl rfl rfl rfl (owed_of_frames hframes).symm
  | letIn hqueued =>
    obtain ⟨hpc, hm, ho, -⟩ := turn_eq_queued.mp hqueued
    rw [owed] at ho
    exact ⟨hqueued, by simp [turn, hpc, hm, owed, ho]⟩

/-! ### The handshake is kept -/

lemma ok_of_waits {y : Sync} (hpc : x.pc = .waits y) (hcmd : x.test.cmd = y.cmd)
    (htokens : x.messages + x.notifications + x.owed + (if x.done = true then 1 else 0) ≤ 1)
    (hanswers : ∀ f ∈ x.frames, ∀ cmd ∈ f.answers, y.cmd = cmd)
    (hregistered : x.turn ≠ .before → x.test.pid = c.pid p) : x.Ok c p where
  tokens := by simpa [woken, hpc, Pc.awaited] using htokens
  cmd y' hy' := by
    obtain rfl : y = y' := by simpa [hpc] using hy'
    exact hcmd
  answers f hf cmd hf' := ⟨y, hpc, hanswers f hf cmd hf'⟩
  registered := hregistered

lemma ok_of_away (hpc : x.pc.awaited = none) (hcmd : ∀ y, x.pc = .notifies y → x.test.cmd = y.cmd)
    (hnone : x.messages = 0 ∧ x.notifications = 0 ∧ x.owed = 0)
    (hregistered : x.turn ≠ .before → x.test.pid = c.pid p) : x.Ok c p where
  tokens := by simp [woken, hpc, hnone]
  cmd y hy := by
    rcases hy with hy | hy
    · exact hcmd y hy
    · simp [hy, Pc.awaited] at hpc
  answers f hf cmd hf' := by
    have hzero := List.countP_eq_zero.mp hnone.2.2 f hf
    simp [Option.mem_def.mp hf'] at hzero
  registered := hregistered

lemma Ok.answers_cmd (h : x.Ok c p) {y : Sync} (hpc : x.pc = .waits y) :
    ∀ f ∈ x.frames, ∀ cmd ∈ f.answers, y.cmd = cmd := by
  intro f hf cmd hcmd
  obtain ⟨y', hpc', hy'⟩ := h.answers f hf cmd hcmd
  obtain rfl : y = y' := by simpa [hpc] using hpc'
  exact hy'

/-- A frame that comes instead of another one, or on top. -/
lemma forall_answers_cons {f : Frame} {frames : List Frame} {y : Sync}
    (hf : ∀ cmd ∈ f.answers, y.cmd = cmd) (hframes : ∀ f ∈ frames, ∀ cmd ∈ f.answers, y.cmd = cmd) :
    ∀ f' ∈ f :: frames, ∀ cmd ∈ f'.answers, y.cmd = cmd := by
  intro f' hf'
  rcases List.mem_cons.mp hf' with rfl | hf'
  · exact hf
  · exact hframes f' hf'

@[simp] lemma counted_cmd (t : UnitTestT) : t.counted.cmd = t.cmd := by
  rw [UnitTestT.counted]
  split_ifs <;> rfl

@[simp] lemma counted_pid (t : UnitTestT) : t.counted.pid = t.pid := by
  rw [UnitTestT.counted]
  split_ifs <;> rfl

lemma Step.registered (h : Step c p x label x' es) (hok : x.Ok c p) (hne : x'.turn ≠ .before) :
    x'.test.pid = c.pid p := by
  have hmoves := h.moves hok
  cases h with
  | call hpc => exact absurd (hmoves.trans (by simp [turn, hpc])) hne
  | access hpc => exact (Pc.pid_of_access hpc).trans (hok.registered (hmoves ▸ hne))
  | searches _ _ | init _ _ => rfl
  | stop _ _ _ => exact (counted_pid _).trans (hok.registered (hmoves ▸ hne))
  | cleanupTimeout _ _ _ | summarized _ | letIn _ =>
    exact hok.registered (by simp [hmoves.1])
  | _ => exact hok.registered (hmoves ▸ hne)

lemma awaited_next (y : Sync) : y.next.awaited = none := by cases y <;> rfl

lemma next_ne_notifies (y y' : Sync) : y.next ≠ .notifies y' := by cases y <;> nofun

/-- The message is answered, or dropped. -/
lemma Ok.answer (h : x.Ok c p) (hmessage : 0 < x.messages) (hpc : x'.pc = x.pc)
    (hdone : x'.done = x.done) (hcmd : x'.test.cmd = x.test.cmd)
    (hm : x'.messages = x.messages - 1) (hn : x'.notifications ≤ x.notifications + 1)
    (hframes : x'.frames = x.frames) (hregistered : x'.turn ≠ .before → x'.test.pid = c.pid p) :
    x'.Ok c p := by
  obtain ⟨y, hy, hycmd, hone, hnone, ho, hnot⟩ := h.of_message hmessage
  refine ok_of_waits (hpc.trans hy) (hcmd.trans hycmd) ?_ ?_ hregistered
  · have ho' : x'.owed = x.owed := by rw [owed, owed, hframes]
    simp only [hdone, hnot, Bool.false_eq_true, if_false]
    omega
  · rw [hframes]
    exact h.answers_cmd hy

/-- The callback that will answer the message prints first. -/
lemma Ok.begin (h : x.Ok c p) {f : Frame} (hmessage : 0 < x.messages)
    (hf : f.answers = some x.test.cmd) (hpc : x'.pc = x.pc) (hdone : x'.done = x.done)
    (hcmd : x'.test.cmd = x.test.cmd) (hm : x'.messages = x.messages - 1)
    (hn : x'.notifications = x.notifications) (hframes : x'.frames = f :: x.frames)
    (hregistered : x'.turn ≠ .before → x'.test.pid = c.pid p) : x'.Ok c p := by
  obtain ⟨y, hy, hycmd, hone, hnone, ho, hnot⟩ := h.of_message hmessage
  refine ok_of_waits (hpc.trans hy) (hcmd.trans hycmd) ?_ ?_ hregistered
  · have ho' : x'.owed = x.owed + 1 := by rw [owed_of_frames hframes, owed, hf]; rfl
    simp only [hdone, hnot, Bool.false_eq_true, if_false]
    omega
  · rw [hframes]
    refine forall_answers_cons (fun cmd hcmd' => ?_) (h.answers_cmd hy)
    rw [hf] at hcmd'
    cases hcmd'
    exact hycmd.symm

/-- A part of a callback that answers no message. -/
lemma Ok.silent (h : x.Ok c p) (hpc : x'.pc = x.pc) (hdone : x'.done = x.done)
    (hcmd : x'.test.cmd = x.test.cmd) (hm : x'.messages = x.messages)
    (hn : x'.notifications = x.notifications) (ho : x'.owed = x.owed)
    (hanswers : ∀ f' ∈ x'.frames, ∀ cmd ∈ f'.answers, ∃ f ∈ x.frames, cmd ∈ f.answers)
    (hregistered : x'.turn ≠ .before → x'.test.pid = c.pid p) : x'.Ok c p where
  tokens := by simpa only [woken, hpc, hdone, hm, hn, ho] using h.tokens
  cmd y hy := hcmd.trans (h.cmd y (by rwa [hpc] at hy))
  answers f' hf' cmd hcmd' := by
    obtain ⟨f, hf, hcmd⟩ := hanswers f' hf' cmd hcmd'
    rw [hpc]
    exact h.answers f hf cmd hcmd
  registered := hregistered

/-- A callback goes on, and answers the same message as before. -/
lemma Ok.replace (h : x.Ok c p) {f f' : Frame} {frames : List Frame}
    (hframes : x.frames = f :: frames) (hanswers : f'.answers = f.answers)
    (hregistered : ({ x with frames := f' :: frames } : Session).turn ≠ .before →
      x.test.pid = c.pid p) :
    ({ x with frames := f' :: frames } : Session).Ok c p := by
  refine h.silent rfl rfl rfl rfl rfl (owed_eq hframes rfl hanswers) ?_ hregistered
  intro g hg cmd hcmd
  rw [hframes]
  rcases List.mem_cons.mp hg with rfl | hg
  · exact ⟨f, List.mem_cons_self, hanswers ▸ hcmd⟩
  · exact ⟨g, List.mem_cons_of_mem _ hg, hcmd⟩

/-- It has answered. -/
lemma Ok.finish (h : x.Ok c p) {f : Frame} {frames : List Frame} {cmd : UnitTestCmd}
    (hframes : x.frames = f :: frames) (hf : f.answers = some cmd)
    (hregistered : ({ x with frames, notifications := x.notifications + 1 } : Session).turn ≠
      .before → x.test.pid = c.pid p) :
    ({ x with frames, notifications := x.notifications + 1 } : Session).Ok c p := by
  obtain ⟨y, hpc, hcmd, -, hm, hn, hdone, ho⟩ := h.of_frame hframes hf
  refine ok_of_waits hpc hcmd (by simp [hm, hn, hdone, owed, ho]) ?_ hregistered
  exact fun f hf => h.answers_cmd hpc f (hframes ▸ List.mem_cons_of_mem _ hf)

lemma Step.ok (h : Step c p x label x' es) (hok : x.Ok c p) : x'.Ok c p := by
  have hregistered := h.registered hok
  cases h with
  | call hpc => exact ok_of_away rfl nofun (hok.of_away (by rw [hpc]; rfl)) hregistered
  | access hpc =>
    obtain ⟨haway, haway'⟩ := Pc.awaited_of_access hpc
    exact ok_of_away haway' (fun _ => Pc.cmd_of_access hpc) (hok.of_away haway) hregistered
  | @notify y hpc =>
    obtain ⟨hm, hn, ho⟩ := hok.of_away (by rw [hpc]; rfl)
    refine ok_of_waits rfl (hok.cmd y (.inl hpc)) ?_ ?_ hregistered
    · rw [owed] at ho ⊢
      simp [hm, hn, ho]
    · intro f hf cmd hcmd
      have hzero := List.countP_eq_zero.mp ho f hf
      simp [Option.mem_def.mp hcmd] at hzero
  | @wake y hpc hdone =>
    exact ok_of_away (awaited_next y) (fun y' hy' => absurd hy' (next_ne_notifies y y'))
      (hok.of_woken hpc hdone) hregistered
  | finish _ _ hpc => exact ok_of_away rfl nofun (hok.of_away (by rw [hpc]; rfl)) hregistered
  | continueCallback hn hyields =>
    obtain ⟨y, hpc, hcmd, hone, hdone⟩ := hok.waits (by omega)
    refine ok_of_waits hpc hcmd ?_ (hok.answers_cmd hpc) hregistered
    rw [owed] at hone ⊢
    simp only [if_true]
    omega
  | searches hmessage hcmd =>
    exact hok.begin (f := .searches p) hmessage (congrArg some hcmd.symm) rfl rfl rfl rfl rfl rfl
      hregistered
  | @init first hmessage hcmd =>
    refine hok.answer hmessage rfl rfl rfl rfl ?_ rfl hregistered
    cases first
    · exact Nat.le_succ _
    · exact le_rfl
  | start hmessage hcmd => exact hok.answer hmessage rfl rfl rfl rfl le_rfl rfl hregistered
  | stop hmessage hcmd hresult =>
    exact hok.begin (f := .result .service p) hmessage (congrArg some hcmd.symm) rfl rfl
      (counted_cmd _) rfl rfl rfl hregistered
  | stopTimeout hmessage hcmd hresult =>
    exact hok.answer hmessage rfl rfl rfl rfl (Nat.le_succ _) rfl hregistered
  | cleanup hmessage hcmd hresult =>
    exact hok.begin (f := .summarized .service p) hmessage (congrArg some hcmd.symm) rfl rfl rfl
      rfl rfl rfl hregistered
  | cleanupTimeout hmessage hcmd hresult =>
    exact hok.answer hmessage rfl rfl rfl rfl le_rfl rfl hregistered
  | timeout =>
    refine hok.silent rfl rfl rfl rfl rfl (List.countP_cons_of_neg Bool.false_ne_true) ?_
      hregistered
    intro f hf cmd hcmd
    rcases List.mem_cons.mp hf with rfl | hf
    · cases hcmd
    · exact ⟨f, hf, hcmd⟩
  | @result caller printed frames hframes hprinted =>
    exact hok.replace hframes (by cases caller <;> rfl) hregistered
  | @outcome caller printed frames hframes =>
    exact hok.replace hframes (by cases caller <;> rfl) hregistered
  | reported hframes => exact hok.finish hframes rfl hregistered
  | reportedTimeout hframes => exact hok.replace hframes rfl hregistered
  | summarized hframes => exact hok.finish hframes rfl hregistered
  | summarizedTimeout hframes =>
    refine hok.silent rfl rfl rfl rfl rfl (owed_of_frames hframes).symm ?_ hregistered
    exact fun f hf cmd hcmd => ⟨f, hframes ▸ List.mem_cons_of_mem _ hf, hcmd⟩
  | letIn hqueued =>
    obtain ⟨hpc, hm, ho, hn, hdone⟩ := turn_eq_queued.mp hqueued
    refine ok_of_waits hpc (hok.cmd _ (.inr hpc)) ?_ (hok.answers_cmd hpc) hregistered
    rw [owed] at ho ⊢
    simp [hm, hn, hdone, ho]

end Session

end UnitTest
