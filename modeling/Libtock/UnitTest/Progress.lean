import Libtock.UnitTest.Blocked

/-!
# How far a runner is in its tests

A test runs from its `TestStart` to its `TestEnd`. A timeout in time marks it while it runs, once,
and not between the read and the write of its result: then the mark stays, the runner gets stuck,
and one callback at a time deals with it.
-/

namespace UnitTest

open Tock

/-! ### The loop of the runner -/

/-- The number of tests behind the runner, without the one it is at. -/
def Sync.index (count : ℕ) : Sync → ℕ
  | testInit => 0
  | testStart i | testEnd i => i
  | testCleanup => count

/-- Whether it is behind `i < test_count`. -/
def Sync.inBody : Sync → Bool
  | testStart _ | testEnd _ => true
  | testInit | testCleanup => false

namespace Pc

def index (count : ℕ) : Pc → ℕ
  | notCalled => 0
  | setsCmd y | notifies y | waits y => y.index count
  | loops i | runsTest i | readsResult i _ _ | writesResult i _ _ | writesReason i _
  | increments i => i
  | returned => count

def inBody : Pc → Bool
  | setsCmd y | notifies y | waits y => y.inBody
  | runsTest _ | readsResult _ _ _ | writesResult _ _ _ | writesReason _ _ | increments _ => true
  | notCalled | loops _ | returned => false

/-- Between the read and the write of the result. -/
def writes : Pc → Bool
  | writesResult _ _ _ => true
  | _ => false

end Pc

namespace Frame

/-- Whether it belongs to `timeout_callback`. -/
def late : Frame → Bool
  | result .timeout _ | outcome .timeout _ _ | reported .timeout _ | summarized .timeout _ => true
  | _ => false

/-- An upcall answers a message. -/
lemma answers_of_not_late {f : Frame} (h : f.late = false) : f.answers.isSome = true := by
  cases f with
  | searches p => rfl
  | result caller p | outcome caller p t | reported caller p | summarized caller p =>
    cases caller with
    | service => rfl
    | timeout => cases h

end Frame

inductive Phase
  /-- No test has been started, or the last one is over. -/
  | idle
  | running
  /-- Its `TestEnd` has been taken. -/
  | ended
  deriving DecidableEq

namespace Session

variable {c : Processes} {p : Ptr} {x x' : Session} {label : Label} {es : List Note} {f : Frame}

def phase (x : Session) : Phase :=
  match x.pc with
  | .waits (.testStart _) => if 0 < x.messages then .idle else .running
  | .setsCmd (.testEnd _) | .notifies (.testEnd _) | .runsTest _ | .readsResult _ _ _
  | .writesResult _ _ _ | .writesReason _ _ => .running
  | .waits (.testEnd _) => if 0 < x.messages then .running else .ended
  | .increments _ => .ended
  | _ => .idle

/-- The timeout of a test that runs, is not marked yet, and whose runner does not overwrite it. -/
def Timely (x : Session) : Prop :=
  x.phase = .running ∧ x.test.result ≠ .timeout ∧ x.pc.writes = false

structure Regular (c : Processes) (p : Ptr) (x : Session) : Prop where
  bound : x.pc.index (c.arguments p).testCount.toNat ≤ (c.arguments p).testCount.toNat
  body : x.pc.inBody = true →
    x.pc.index (c.arguments p).testCount.toNat < (c.arguments p).testCount.toNat
  current : x.test.current = BitVec.ofNat 32 (x.pc.index (c.arguments p).testCount.toNat)
  count : x.test.count = (c.arguments p).testCount
  result : x.test.result = .passed ∨ x.test.result = .failed ∨ x.test.result = .timeout
  marked : x.test.result = .timeout → x.phase = .running ∧ x.pc.writes = false ∨ x.Stuck
  late : ∀ f ∈ x.frames, f.late = decide (x.test.result = .timeout)
  single : x.frames.length ≤ 1
  printed : ∀ caller t, .outcome caller p t ∈ x.frames →
    t.pid = c.pid p ∧ t.current = x.test.current

lemma Stuck.phase (h : x.Stuck) : x.phase = .ended := by
  obtain ⟨i, hpc⟩ := h.waits
  simp [Session.phase, hpc, h.unanswered.1]

lemma Regular.not_marked (h : x.Regular c p) (hidle : x.phase = .idle) :
    x.test.result ≠ .timeout := by
  intro hresult
  rcases h.marked hresult with ⟨hrunning, -⟩ | hstuck
  · cases hidle.symm.trans hrunning
  · cases hidle.symm.trans hstuck.phase

lemma Regular.not_marked_of_away (h : x.Regular c p) (haway : x.pc.awaited = none)
    (hwrites : x.phase = .running → x.pc.writes = true) : x.test.result ≠ .timeout := by
  intro hresult
  rcases h.marked hresult with ⟨hphase, hnot⟩ | hstuck
  · cases hnot.symm.trans (hwrites hphase)
  · obtain ⟨i, hpc⟩ := hstuck.waits
    cases haway.symm.trans (Pc.awaited_eq_some.mpr hpc)

/-- While the test is not marked, a callback is one that answers the runner. -/
lemma Regular.of_frame (h : x.Regular c p) (hok : x.Ok c p) (hresult : x.test.result ≠ .timeout)
    (hf : f ∈ x.frames) : ∃ y, x.pc = .waits y ∧ f.answers = some y.cmd ∧ x.messages = 0 := by
  have hsome : f.answers.isSome = true :=
    f.answers_of_not_late ((h.late f hf).trans (decide_eq_false hresult))
  obtain ⟨cmd, hcmd⟩ := Option.isSome_iff_exists.mp hsome
  obtain ⟨y, hpc, rfl⟩ := hok.answers f hf cmd hcmd
  have howed : 0 < x.owed := List.countP_pos_iff.mpr ⟨f, hf, hsome⟩
  obtain ⟨-, -, -, hone, -⟩ := hok.waits (by omega)
  exact ⟨y, hpc, hcmd, by omega⟩

lemma Regular.frames_nil (h : x.Regular c p) (hok : x.Ok c p) (hresult : x.test.result ≠ .timeout)
    (hpc : ∀ f ∈ x.frames, ∀ y, x.pc = .waits y → f.answers = some y.cmd → 0 < x.messages) :
    x.frames = [] := by
  rw [List.eq_nil_iff_forall_not_mem]
  intro f hf
  obtain ⟨y, hy, hcmd, hm⟩ := h.of_frame hok hresult hf
  exact absurd (hpc f hf y hy hcmd) (by omega)

lemma Regular.frames_nil_of_message (h : x.Regular c p) (hok : x.Ok c p)
    (hresult : x.test.result ≠ .timeout) (hmessage : 0 < x.messages) : x.frames = [] :=
  h.frames_nil hok hresult fun _ _ _ _ _ => hmessage

lemma Regular.frames_nil_of_away (h : x.Regular c p) (hok : x.Ok c p)
    (hresult : x.test.result ≠ .timeout) (haway : x.pc.awaited = none) : x.frames = [] :=
  h.frames_nil hok hresult fun _ _ y hy _ => by simp [hy, Pc.awaited] at haway

/-- No callback deals with a test that runs. -/
lemma Timely.frames_nil (ht : x.Timely) (h : x.Regular c p) (hok : x.Ok c p) : x.frames = [] := by
  refine h.frames_nil hok ht.2.1 fun f hf y hy hcmd => ?_
  have hphase := ht.1
  cases y with
  | testInit | testCleanup => simp [phase, hy] at hphase
  | testStart i =>
    cases f with
    | searches p => cases hcmd
    | result caller p | outcome caller p t | reported caller p | summarized caller p =>
      cases caller <;> cases hcmd
  | testEnd i =>
    by_contra hm
    simp [phase, hy, hm] at hphase

/-! ### Every step keeps it -/

/-- The callbacks may change, the rest of what matters does not. -/
lemma Regular.of_frames (h : x.Regular c p)
    (hindex : x'.pc.index (c.arguments p).testCount.toNat =
      x.pc.index (c.arguments p).testCount.toNat)
    (hbody : x'.pc.inBody = x.pc.inBody) (hcurrent : x'.test.current = x.test.current)
    (hcount : x'.test.count = x.test.count) (hresult : x'.test.result = x.test.result)
    (hmarked : x.test.result = .timeout →
      x'.phase = .running ∧ x'.pc.writes = false ∨ x'.Stuck)
    (hlate : ∀ f ∈ x'.frames, f.late = decide (x.test.result = .timeout))
    (hsingle : x'.frames.length ≤ 1)
    (hprinted : ∀ caller t, .outcome caller p t ∈ x'.frames →
      t.pid = c.pid p ∧ t.current = x.test.current) : x'.Regular c p where
  bound := hindex ▸ h.bound
  body hb := hindex ▸ h.body (hbody ▸ hb)
  current := by rw [hcurrent, hindex, h.current]
  count := hcount.trans h.count
  result := by
    rw [hresult]
    exact h.result
  marked hr := hmarked (hresult ▸ hr)
  late := by
    rw [hresult]
    exact hlate
  single := hsingle
  printed := by
    rw [hcurrent]
    exact hprinted

lemma Regular.congr (h : x.Regular c p)
    (hindex : x'.pc.index (c.arguments p).testCount.toNat =
      x.pc.index (c.arguments p).testCount.toNat)
    (hbody : x'.pc.inBody = x.pc.inBody) (hcurrent : x'.test.current = x.test.current)
    (hcount : x'.test.count = x.test.count) (hresult : x'.test.result = x.test.result)
    (hframes : x'.frames = x.frames)
    (hmarked : x.test.result = .timeout →
      x'.phase = .running ∧ x'.pc.writes = false ∨ x'.Stuck) : x'.Regular c p :=
  h.of_frames hindex hbody hcurrent hcount hresult hmarked (hframes ▸ h.late) (hframes ▸ h.single)
    (hframes ▸ h.printed)

/-- Without callbacks. -/
lemma regular_of_nil (hframes : x.frames = [])
    (hbound : x.pc.index (c.arguments p).testCount.toNat ≤ (c.arguments p).testCount.toNat)
    (hbody : x.pc.inBody = true →
      x.pc.index (c.arguments p).testCount.toNat < (c.arguments p).testCount.toNat)
    (hcurrent : x.test.current = BitVec.ofNat 32 (x.pc.index (c.arguments p).testCount.toNat))
    (hcount : x.test.count = (c.arguments p).testCount)
    (hresult : x.test.result = .passed ∨ x.test.result = .failed) : x.Regular c p where
  bound := hbound
  body := hbody
  current := hcurrent
  count := hcount
  result := by rw [← or_assoc]; exact .inl hresult
  marked hr := by simp [hr] at hresult
  late := by simp [hframes]
  single := by simp [hframes]
  printed := by simp [hframes]

lemma Regular.passed_or_failed (h : x.Regular c p) (hresult : x.test.result ≠ .timeout) :
    x.test.result = .passed ∨ x.test.result = .failed := by
  rcases h.result with hr | hr | hr
  · exact .inl hr
  · exact .inr hr
  · exact absurd hr hresult

lemma Regular.access (h : x.Regular c p) (hok : x.Ok c p) {pc : Pc} {test : UnitTestT}
    (haccess : x.pc.access (c.arguments p) x.test = some (pc, test)) :
    ({ x with pc, test } : Session).Regular c p := by
  have haway := (Pc.awaited_of_access haccess).1
  have hbound := h.bound
  have hbody := h.body
  have hcurrent := h.current
  cases hpc : x.pc with
  | setsCmd y =>
    simp only [hpc, Pc.access, Option.some.injEq, Prod.mk.injEq] at haccess
    obtain ⟨rfl, rfl⟩ := haccess
    refine h.congr (by rw [hpc]; rfl) (by rw [hpc]; rfl) rfl rfl rfl rfl fun hr => .inl ?_
    cases y with
    | testEnd i => exact ⟨rfl, rfl⟩
    | _ => exact absurd hr (h.not_marked (by rw [phase, hpc]))
  | loops i =>
    have hresult := h.not_marked (by rw [phase, hpc])
    have hframes := h.frames_nil_of_away hok hresult haway
    simp only [hpc, Pc.index] at hbound hcurrent
    simp only [hpc, Pc.access] at haccess
    split at haccess
    · next hi =>
      cases haccess
      exact regular_of_nil hframes hi.le (fun _ => hi) hcurrent h.count
        (h.passed_or_failed hresult)
    · next hi =>
      cases haccess
      have hlast : i = (c.arguments p).testCount.toNat := by omega
      exact regular_of_nil hframes le_rfl (by simp [Pc.inBody, Sync.inBody]) (hlast ▸ hcurrent)
        h.count (h.passed_or_failed hresult)
  | readsResult i passed reason =>
    simp only [hpc, Pc.access, Option.some.injEq, Prod.mk.injEq] at haccess
    obtain ⟨rfl, rfl⟩ := haccess
    split_ifs with hresult
    · exact h.congr (by rw [hpc]; rfl) (by rw [hpc]; rfl) rfl rfl rfl rfl (absurd · hresult)
    · exact h.congr (by rw [hpc]; rfl) (by rw [hpc]; rfl) rfl rfl rfl rfl fun _ => .inl ⟨rfl, rfl⟩
  | writesResult i passed reason =>
    have hresult := h.not_marked_of_away haway fun _ => by rw [hpc]; rfl
    have hframes := h.frames_nil_of_away hok hresult haway
    simp only [hpc, Pc.index, Pc.inBody] at hbound hbody hcurrent
    simp only [hpc, Pc.access, Option.some.injEq, Prod.mk.injEq] at haccess
    obtain ⟨rfl, rfl⟩ := haccess
    exact regular_of_nil hframes hbound (fun _ => hbody trivial) hcurrent h.count
      (by cases passed <;> simp)
  | writesReason i reason =>
    simp only [hpc, Pc.access, Option.some.injEq, Prod.mk.injEq] at haccess
    obtain ⟨rfl, rfl⟩ := haccess
    exact h.congr (by rw [hpc]; rfl) (by rw [hpc]; rfl) rfl rfl rfl rfl fun _ => .inl ⟨rfl, rfl⟩
  | increments i =>
    have hresult := h.not_marked_of_away haway fun hphase => by simp [phase, hpc] at hphase
    have hframes := h.frames_nil_of_away hok hresult haway
    simp only [hpc, Pc.index, Pc.inBody] at hbody hcurrent
    simp only [hpc, Pc.access, Option.some.injEq, Prod.mk.injEq] at haccess
    obtain ⟨rfl, rfl⟩ := haccess
    refine regular_of_nil hframes (hbody trivial) (by simp [Pc.inBody]) ?_ h.count
      (h.passed_or_failed hresult)
    simp only [hcurrent, Pc.index, BitVec.ofNat_add]
    rfl
  | _ => simp [hpc, Pc.access] at haccess

@[simp] lemma counted_result (t : UnitTestT) : t.counted.result = t.result := by
  rw [UnitTestT.counted]
  split_ifs <;> rfl

@[simp] lemma counted_current (t : UnitTestT) : t.counted.current = t.current := by
  rw [UnitTestT.counted]
  split_ifs <;> rfl

@[simp] lemma counted_count (t : UnitTestT) : t.counted.count = t.count := by
  rw [UnitTestT.counted]
  split_ifs <;> rfl

lemma turn_of_phase (h : x.phase ≠ .idle) : x.turn ≠ .before := by
  intro hturn
  apply h
  rw [turn] at hturn
  split at hturn <;> simp_all [phase]

/-- The callbacks that print know the process. -/
lemma Regular.pid_of_frame (h : x.Regular c p) (hok : x.Ok c p) (hf : f ∈ x.frames)
    (hne : f.answers ≠ some .testInit) : x.test.pid = c.pid p := by
  refine hok.registered ?_
  by_cases hresult : x.test.result = .timeout
  · refine turn_of_phase ?_
    rcases h.marked hresult with ⟨hphase, -⟩ | hstuck
    · simp [hphase]
    · simp [hstuck.phase]
  · obtain ⟨y, hpc, hcmd, -⟩ := h.of_frame hok hresult hf
    refine turn_ne_before hpc ?_
    rintro rfl
    exact hne hcmd

lemma Regular.frames_eq (h : x.Regular c p) {frames : List Frame}
    (hframes : x.frames = f :: frames) : frames = [] := by
  have hsingle := h.single
  rw [hframes, List.length_cons] at hsingle
  exact List.length_eq_zero_iff.mp (by omega)

lemma Regular.not_marked_of_frame (h : x.Regular c p) {frames : List Frame}
    (hframes : x.frames = f :: frames) (hlate : f.late = false) : x.test.result ≠ .timeout := by
  have hf := h.late f (hframes ▸ List.mem_cons_self)
  rw [hlate] at hf
  exact of_decide_eq_false hf.symm

lemma Regular.marked_of_frame (h : x.Regular c p) {frames : List Frame}
    (hframes : x.frames = f :: frames) (hlate : f.late = true) : x.test.result = .timeout := by
  have hf := h.late f (hframes ▸ List.mem_cons_self)
  rw [hlate] at hf
  exact of_decide_eq_true hf.symm

/-- A callback goes on. -/
lemma Regular.replace (h : x.Regular c p) {f' : Frame} {frames : List Frame}
    (hframes : x.frames = f :: frames) (hlate : f'.late = f.late)
    (hprinted : ∀ caller t, f' = .outcome caller p t → t.pid = c.pid p ∧ t.current = x.test.current)
    (hstuck : x.Stuck → ({ x with frames := f' :: frames } : Session).Stuck) :
    ({ x with frames := f' :: frames } : Session).Regular c p := by
  obtain rfl := h.frames_eq hframes
  refine h.of_frames rfl rfl rfl rfl rfl (fun hr => (h.marked hr).imp id hstuck) ?_ le_rfl ?_
  · intro g hg
    rw [List.mem_singleton.mp hg, hlate]
    exact h.late f (hframes ▸ List.mem_cons_self)
  · intro caller t ht
    exact hprinted caller t (List.mem_singleton.mp ht).symm

/-- A callback starts. -/
lemma Regular.begin (h : x.Regular c p) (hframes : x.frames = []) {test : UnitTestT} {m : ℕ}
    (hcurrent : test.current = x.test.current) (hcount : test.count = x.test.count)
    (hresult : test.result = x.test.result)
    (hne : x.test.result ≠ .timeout) (hlate : f.late = false)
    (hprinted : ∀ caller t, f ≠ .outcome caller p t) :
    ({ x with messages := m, test := test, frames := f :: x.frames } : Session).Regular c p := by
  rw [hframes]
  refine h.of_frames rfl rfl hcurrent hcount hresult (absurd · hne) ?_ le_rfl ?_
  · intro g hg
    rw [List.mem_singleton.mp hg, hlate, decide_eq_false hne]
  · intro caller t ht
    exact absurd (List.mem_singleton.mp ht).symm (hprinted caller t)

lemma Step.regular (hstep : Step c p x label x' es) (h : x.Regular c p) (hok : x.Ok c p)
    (htimely : label = .timeout → x.Timely) : x'.Regular c p := by
  have hstuck : x.Stuck → x'.Stuck := fun hs => hs.step hstep
  cases hstep with
  | call hpc =>
    have hframes := h.frames_nil_of_away hok (h.not_marked (by rw [phase, hpc])) (by rw [hpc]; rfl)
    exact regular_of_nil hframes (Nat.zero_le _) (by simp [Pc.inBody, Sync.inBody]) rfl rfl
      (.inl rfl)
  | access hpc => exact h.access hok hpc
  | @notify y hpc =>
    refine h.congr (by rw [hpc]; rfl) (by rw [hpc]; rfl) rfl rfl rfl rfl fun hr => ?_
    cases y with
    | testEnd i => exact .inl ⟨by simp [phase], rfl⟩
    | _ => exact absurd hr (h.not_marked (by rw [phase, hpc]))
  | @wake y hpc hdone =>
    obtain ⟨hm, -⟩ := hok.of_woken hpc hdone
    refine h.congr ?_ ?_ rfl rfl rfl rfl fun hr => ?_
    · rw [hpc]
      cases y <;> rfl
    · rw [hpc]
      cases y <;> rfl
    · cases y with
      | testStart i => exact .inl ⟨rfl, rfl⟩
      | testEnd i =>
        rcases h.marked hr with ⟨hphase, -⟩ | hstuck
        · simp [phase, hpc, hm] at hphase
        · cases hdone.symm.trans hstuck.unanswered.2.2.2
      | _ => exact absurd hr (h.not_marked (by rw [phase, hpc]))
  | finish _ _ hpc =>
    exact h.congr (by rw [hpc]; rfl) (by rw [hpc]; rfl) rfl rfl rfl rfl fun _ => .inl ⟨rfl, rfl⟩
  | continueCallback hn hyields =>
    exact h.congr rfl rfl rfl rfl rfl rfl fun hr => (h.marked hr).imp id hstuck
  | searches hmessage hcmd =>
    have hpc := hok.waits_testInit hmessage hcmd
    have hne := h.not_marked (by rw [phase, hpc])
    exact h.begin (h.frames_nil_of_message hok hne hmessage) rfl rfl rfl hne rfl (by simp)
  | @init first hmessage hcmd =>
    have hpc := hok.waits_testInit hmessage hcmd
    have hne := h.not_marked (by rw [phase, hpc])
    exact h.congr rfl rfl rfl rfl rfl rfl (absurd · hne)
  | start hmessage hcmd =>
    obtain ⟨i, hpc⟩ := hok.waits_testStart hmessage hcmd
    have hne := h.not_marked (by simp [phase, hpc, hmessage])
    exact h.congr rfl rfl rfl rfl rfl rfl (absurd · hne)
  | stop hmessage hcmd hne =>
    exact h.begin (h.frames_nil_of_message hok hne hmessage) (counted_current _) (counted_count _)
      (counted_result _) hne rfl (by simp)
  | stopTimeout hmessage hcmd hresult =>
    exact h.congr rfl rfl rfl rfl rfl rfl fun _ =>
      .inr (stuck_of_stopTimeout hok hmessage hcmd hresult)
  | cleanup hmessage hcmd hne =>
    exact h.begin (h.frames_nil_of_message hok hne hmessage) rfl rfl rfl hne rfl (by simp)
  | cleanupTimeout hmessage hcmd hresult =>
    have hpc := hok.waits_testCleanup hmessage hcmd
    exact absurd hresult (h.not_marked (by rw [phase, hpc]))
  | timeout =>
    obtain ⟨hphase, hne, hwrites⟩ := htimely rfl
    have hframes := (htimely rfl).frames_nil h hok
    exact {
      bound := h.bound
      body := h.body
      current := h.current
      count := h.count
      result := .inr (.inr rfl)
      marked := fun _ => .inl ⟨hphase, hwrites⟩
      late := by simp [hframes, Frame.late]
      single := by simp [hframes]
      printed := by simp [hframes] }
  | @result caller printed frames hframes hprinted =>
    refine h.replace hframes (by cases caller <;> rfl) ?_ hstuck
    rintro caller' t ⟨⟩
    have hpid := h.pid_of_frame hok (hframes ▸ List.mem_cons_self)
      (by cases caller <;> simp [Frame.answers])
    have hprintedPid : printed.unlinked.pid = x.test.pid := by rw [hprinted]
    have hprintedCurrent : printed.unlinked.current = x.test.current := by rw [hprinted]
    exact ⟨hprintedPid.trans hpid, hprintedCurrent⟩
  | @outcome caller printed frames hframes =>
    exact h.replace hframes (by cases caller <;> rfl) (by simp) hstuck
  | reported hframes =>
    have hne := h.not_marked_of_frame hframes rfl
    obtain rfl := h.frames_eq hframes
    exact h.of_frames rfl rfl rfl rfl rfl (absurd · hne) (by simp) (Nat.zero_le _) nofun
  | reportedTimeout hframes => exact h.replace hframes rfl (by simp) hstuck
  | summarized hframes =>
    have hne := h.not_marked_of_frame hframes rfl
    obtain rfl := h.frames_eq hframes
    exact h.of_frames rfl rfl rfl rfl rfl (absurd · hne) (by simp) (Nat.zero_le _) nofun
  | summarizedTimeout hframes =>
    obtain rfl := h.frames_eq hframes
    exact h.of_frames rfl rfl rfl rfl rfl (fun hr => (h.marked hr).imp id hstuck) (by simp)
      (Nat.zero_le _) (by simp)
  | letIn hqueued =>
    have hne := h.not_marked (by rw [phase, (turn_eq_queued.mp hqueued).1])
    exact h.congr rfl rfl rfl rfl rfl rfl (absurd · hne)

end Session

end UnitTest
