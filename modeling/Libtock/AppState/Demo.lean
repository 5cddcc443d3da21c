import Libtock.AppState.Stored

/-!
# The application that counts its runs

`examples/tests/app_state` loads a structure of a magic word and a count, prints the count, and
saves the next one. Between any two steps the board may lose power; a write to flash is done or not.
-/

namespace AppState.Demo

open Core Tock AppState.World

/-! ### The code of `main.c` -/

def magic : U32 := 0xcafe

inductive Output
  | loadingError (ret : ℤ)
  | neverSaved
  | hasRun (count : U32)
  | savingError (ret : ℤ)
  | saved
  deriving DecidableEq

section Code

variable (answer : U32 → U32 → SyscallReturn) (d : Declared)

/-- Between loading and saving: `app_state.magic` is the first word, `app_state.count` the second. -/
def update (m : Memory 32) : Output × Memory 32 :=
  let count := m.load 4 (d.ramPointer + 4)
  if m.load 4 d.ramPointer ≠ magic then
    (.neverSaved, (m.store 4 d.ramPointer magic).store 4 (d.ramPointer + 4) (1 : U32))
  else
    (.hasRun count, m.store 4 (d.ramPointer + 4) (count + 1 : U32))

/-- The rest of `main`, once the state is loaded. -/
def checkpoint (k : Kernel) (w : World) : World × List Output × Bool :=
  let (out, m) := update d w.mem
  let w := { w with mem := m }
  let ((ret, s), is) := (appStateSaveSync answer d w.state).run k
  let w := { is.foldl issue w with state := s }
  match ret with
  | some err => (w, [out, .savingError err], false)
  | none => (w, [out], true)

/-- Up to `yield_for`: what was printed, and whether `main` waits there. -/
def main (k k' : Kernel) (w : World) : World × List Output × Bool :=
  let ((ret, s, m), is) := (appStateLoadSync answer d w.state w.mem).run k
  let w := { is.foldl issue w with state := s, mem := m }
  if ret < 0 then (w, [.loadingError ret], false) else checkpoint answer d k' w

/-! ### Runs -/

inductive Phase
  /-- After a reset. -/
  | off
  /-- In the `yield_for` of `app_state_save_sync`. -/
  | waiting
  | ended
  deriving DecidableEq

structure Process where
  base : World
  phase : Phase

inductive Action
  | main (k k' : Kernel)
  | copy
  | finish
  | upcall
  | resume
  | reset (ram : Memory 32)

inductive Event
  | printed (out : Output)
  /-- A write to flash is done. -/
  | written
  deriving DecidableEq

def exec (v : Process) : Action → Option (Process × List Event)
  | .main k k' =>
    if v.phase = .off then
      let (w, outs, waiting) := Demo.main answer d k k' v.base
      some (⟨w, if waiting then .waiting else .ended⟩, outs.map .printed)
    else none
  | .copy => (World.exec answer d v.base .copy).map fun r => (⟨r.1, v.phase⟩, [])
  | .finish => (World.exec answer d v.base .finish).map fun r => (⟨r.1, v.phase⟩, [.written])
  | .upcall => (World.exec answer d v.base .upcall).map fun r => (⟨r.1, v.phase⟩, [])
  | .resume =>
    if v.phase = .waiting ∧ v.base.state.saveSyncFlag = true then
      some (⟨v.base, .ended⟩, [.printed .saved])
    else none
  | .reset ram => (World.exec answer d v.base (.reset ram)).map fun r => (⟨r.1, .off⟩, [])

def Step (v : Process) (a : Action) (v' : Process) (es : List Event) : Prop :=
  exec answer d v a = some (v', es)

end Code

/-! ### What is counted -/

def writes (tr : List Event) : ℕ := tr.count .written

def saves (tr : List Event) : ℕ := tr.count (.printed .saved)

/-- What is printed tells the number of completed writes, in 32 bits, and each run that says it has
saved has added one to it. -/
def Reports (pre : List Event) : Event → Prop
  | .printed .neverSaved => writes pre = 0
  | .printed (.hasRun count) => 0 < writes pre ∧ count = BitVec.ofNat 32 (writes pre)
  | .printed .saved => saves pre < writes pre
  | _ => True

/-- The words at `p` after `n` writes. -/
def Holds (m : Memory 32) (p : U32) (n : ℕ) : Prop :=
  if n = 0 then m.load 4 p ≠ magic
  else m.load 4 p = magic ∧ m.load 4 (p + 4) = BitVec.ofNat 32 n

/-- Bytes that are to be the `n`-th write. -/
def Snapshot (c : List (BitVec 8)) (n : ℕ) : Prop :=
  ∃ (m : Memory 32) (p : U32), c = m.bytes p 8 ∧ m.load 4 p = magic ∧
    m.load 4 (p + 4) = BitVec.ofNat 32 n

variable {answer : U32 → U32 → SyscallReturn} {d : Declared} {m m' : Memory 32} {p q : U32} {n : ℕ}

lemma loads_of_bytes_eq (h : m.bytes p 8 = m'.bytes q 8) :
    m.load 4 p = m'.load 4 q ∧ m.load 4 (p + 4) = m'.load 4 (q + 4) := by
  have hzero : ∀ x : U32, x + BitVec.ofNat 32 0 = x := BitVec.add_zero
  have hfirst := Memory.load_of_bytes_eq (i := 0) (k := 4) h (by decide)
  have hsecond := Memory.load_of_bytes_eq (i := 4) (k := 4) h (by decide)
  rw [hzero, hzero] at hfirst
  exact ⟨hfirst, hsecond⟩

lemma Holds.congr (h : Holds m p n) (heq : m.bytes p 8 = m'.bytes q 8) : Holds m' q n := by
  obtain ⟨hfirst, hsecond⟩ := loads_of_bytes_eq heq
  rwa [Holds, ← hfirst, ← hsecond]

lemma Snapshot.holds {c : List (BitVec 8)} (h : Snapshot c (n + 1)) (heq : m.bytes p 8 = c) :
    Holds m p (n + 1) := by
  obtain ⟨m', q, rfl, hmagic, hcount⟩ := h
  obtain ⟨hfirst, hsecond⟩ := loads_of_bytes_eq heq
  rw [Holds, if_neg n.succ_ne_zero, hfirst, hsecond]
  exact ⟨hmagic, hcount⟩

lemma disjoint_words (p : U32) : Disjoint (block p 4) (block (p + 4) 4) := by
  have hup : p + 4 - p = 4 := by ring
  have hdown : p - (p + 4) = -4 := by ring
  apply disjoint_block_of_le
  · rw [hup]
    decide
  · rw [hdown]
    decide

lemma block_word_subset (p : U32) : block (p + 4) 4 ⊆ block p 8 :=
  block_add_subset (i := 4) (by decide)

/-- The copy in RAM holds `n` when it is loaded; it is to be the next write. -/
lemma update_spec (h : Holds m d.ramPointer n) :
    ((update d m).1 = .neverSaved ∧ n = 0 ∨
      (update d m).1 = .hasRun (BitVec.ofNat 32 n) ∧ 0 < n) ∧
    (update d m).2.load 4 d.ramPointer = magic ∧
    (update d m).2.load 4 (d.ramPointer + 4) = BitVec.ofNat 32 (n + 1) ∧
    ∀ a ∉ block d.ramPointer 8, (update d m).2 a = m a := by
  have hdisj := disjoint_words d.ramPointer
  have hout : ∀ a ∉ block d.ramPointer 8, a ∉ block (d.ramPointer + 4) 4 :=
    fun a ha hin => ha (block_word_subset _ hin)
  rw [Holds] at h
  split_ifs at h with hn
  · have hupdate : update d m =
        (.neverSaved, (m.store 4 d.ramPointer magic).store 4 (d.ramPointer + 4) (1 : U32)) :=
      if_pos h
    rw [hupdate]
    refine ⟨.inl ⟨rfl, hn⟩, ?_, ?_, fun a ha => ?_⟩
    · rw [Memory.load_store_of_disjoint hdisj, Memory.load_store (by decide)]
    · rw [Memory.load_store (by decide), hn]
      rfl
    · have hout' : a ∉ block d.ramPointer 4 := fun hin => ha (block_mono (by decide) hin)
      exact (Memory.store_of_notMem (hout a ha)).trans (Memory.store_of_notMem hout')
  · obtain ⟨hmagic, hcount⟩ := h
    have hupdate : update d m = (.hasRun (m.load 4 (d.ramPointer + 4)),
        m.store 4 (d.ramPointer + 4) (m.load 4 (d.ramPointer + 4) + 1 : U32)) :=
      if_neg (not_not_intro hmagic)
    rw [hupdate, hcount]
    refine ⟨.inr ⟨rfl, Nat.pos_of_ne_zero hn⟩, ?_, ?_, fun a ha => ?_⟩
    · rw [Memory.load_store_of_disjoint hdisj, hmagic]
    · rw [Memory.load_store (by decide), BitVec.ofNat_add]
      rfl
    · exact Memory.store_of_notMem (hout a ha)

/-! ### What a step does -/

/-- What `main` may print before it waits, after `n` writes. -/
def Fits (n : ℕ) : Output → Prop
  | .neverSaved => n = 0
  | .hasRun count => 0 < n ∧ count = BitVec.ofNat 32 n
  | .saved => False
  | _ => True

/-- The structure is two words, and not in flash. -/
structure TwoWords (answer : U32 → U32 → SyscallReturn) (d : Declared) : Prop where
  size : d.size = 8
  disjoint : Disjoint (block d.ramPointer 8) (block (flashStart answer) 8)

/-- What `main` leaves behind when it is started after `n` writes. -/
structure Ran (answer : U32 → U32 → SyscallReturn) (d : Declared) (n : ℕ) (w w' : World)
    (outs : List Output) (waiting : Bool) : Prop where
  sane : Sane answer d w'
  flight : w'.flight = w.flight
  holds : Holds w'.mem (flashStart answer) n
  pending : w'.pending = w.pending ∨
    w'.pending = w.pending ++ [flashStart answer] ∧ Snapshot (w'.ramCopy d) (n + 1)
  waiting : waiting = true → w'.due = 0 ∧ w'.state.saveSyncFlag = false
  fits : ∀ out ∈ outs, Fits n out

variable {w w' : World} {outs : List Output} {waiting : Bool}

lemma TwoWords.toNat_size (ht : TwoWords answer d) : d.size.toNat = 8 := by
  rw [ht.size]
  rfl

lemma checkpoint_ran (ht : TwoWords answer d) (hs : Sane answer d w)
    (hholds : Holds w.mem (flashStart answer) n) (hcopy : Holds w.mem d.ramPointer n) (k : Kernel) :
    Ran answer d n w (checkpoint answer d k w).1 (checkpoint answer d k w).2.1
      (checkpoint answer d k w).2.2 := by
  obtain ⟨hout, hmagic, hcount, hframe⟩ := update_spec hcopy
  generalize hupdate : update d w.mem = r at hout hmagic hcount hframe
  obtain ⟨out, m⟩ := r
  have hfits : Fits n out := by
    rcases hout with ⟨rfl, hn⟩ | ⟨rfl, hn⟩
    · exact hn
    · exact ⟨hn, rfl⟩
  have hflash : Holds m (flashStart answer) n := by
    refine hholds.congr (Memory.bytes_congr fun a ha => ?_)
    exact (hframe a (Set.disjoint_right.mp ht.disjoint ha)).symm
  have hs' : Sane answer d { w with mem := m } := ⟨hs.ready, hs.pending, hs.flight⟩
  obtain ⟨ret, s, is, hrun, htried⟩ := appStateSaveSync_run hs'.ready k
  change (appStateSaveSync answer d w.state).run k = _ at hrun
  have hcheckpoint : checkpoint answer d k w =
      ({ is.foldl issue { w with mem := m } with state := s },
        if ret < 0 then [out, .savingError ret] else [out], decide (¬ ret < 0)) := by
    simp only [checkpoint, hupdate, hrun]
    by_cases hret : ret < 0
    · simp [hret]
    · simp [hret]
  rw [hcheckpoint]
  generalize ({ is.foldl issue { w with mem := m } with state := s } : World) = w' at htried ⊢
  have hsane : Sane answer d w' :=
    htried.sane ⟨⟨hs.ready.flashPointer_eq, hs.ready.shared⟩, hs.pending, hs.flight⟩
  have houts : ∀ o ∈ if ret < 0 then [out, .savingError ret] else [out], Fits n o := by
    split_ifs with hret
    · simp only [List.mem_cons, List.not_mem_nil, or_false, forall_eq_or_imp, forall_eq]
      exact ⟨hfits, trivial⟩
    · simp only [List.mem_singleton, forall_eq]
      exact hfits
  have hwaiting (hret : decide (¬ ret < 0) = true) :
      w'.due = 0 ∧ w'.state.saveSyncFlag = false := by
    obtain ⟨s, slots, -, hflag, -, rfl⟩ := htried.waits (of_decide_eq_true hret)
    exact ⟨rfl, hflag⟩
  cases htried with
  | refused => exact ⟨hsane, rfl, hflash, .inl rfl, hwaiting, houts⟩
  | accepted =>
    refine ⟨hsane, rfl, hflash, .inr ⟨rfl, m, d.ramPointer, ?_, hmagic, hcount⟩, hwaiting, houts⟩
    rw [ramCopy, ht.toNat_size]

lemma main_ran (ht : TwoWords answer d) (hs : Sane answer d w)
    (hholds : Holds w.mem (flashStart answer) n) (k k' : Kernel) :
    Ran answer d n w (main answer d k k' w).1 (main answer d k k' w).2.1
      (main answer d k k' w).2.2 := by
  obtain ⟨err, s, is, hrun, herr, -, hinited, hissue, hready⟩ := appStateLoadSync_run hs.ready k
  have hpending : ∀ a ∈ w.pending, a = flashStart answer ∧ s.inited = true :=
    fun a ha => ⟨(hs.pending a ha).1, hinited (hs.pending a ha).2⟩
  rw [main, hrun]
  dsimp only
  rcases herr with hneg | ⟨rfl, hinit⟩
  · rw [if_pos hneg, if_pos hneg, hissue]
    refine ⟨⟨hready, hpending, hs.flight⟩, rfl, hholds, .inl rfl, ?_, ?_⟩
    · exact fun h => absurd h Bool.false_ne_true
    · simp only [List.mem_singleton, forall_eq]
      exact trivial
  · rw [if_neg (lt_irrefl _), if_neg (lt_irrefl _), hissue, ht.toNat_size]
    have hcopy : Holds (w.mem.copy d.ramPointer (flashStart answer) 8) d.ramPointer n :=
      hholds.congr (Memory.bytes_copy _ _ _ _).symm
    have hflash : Holds (w.mem.copy d.ramPointer (flashStart answer) 8) (flashStart answer) n := by
      refine hholds.congr (Memory.bytes_congr fun a ha => ?_)
      have hout : a ∉ block d.ramPointer 8 := Set.disjoint_right.mp ht.disjoint ha
      exact (if_neg hout).symm
    have hran := checkpoint_ran ht (w := { w with
      state := s, slots := is.foldl Slots.issue w.slots
      mem := w.mem.copy d.ramPointer (flashStart answer) 8 }) ⟨hready, hpending, hs.flight⟩ hflash
      hcopy k'
    exact ⟨hran.sane, hran.flight, hran.holds, hran.pending, hran.waiting, hran.fits⟩

/-! ### The invariant -/

/-- The flash holds as many writes as there were, and the write under way is the next one. -/
structure Counted (answer : U32 → U32 → SyscallReturn) (d : Declared) (tr : List Event)
    (v : Process) : Prop where
  sane : Sane answer d v.base
  off : v.phase = .off → v.base.pending = [] ∧ v.base.flight = none
  holds : Holds v.base.mem (flashStart answer) (writes tr)
  pending : v.base.pending ≠ [] → v.base.pending.length = 1 ∧ v.base.flight = none ∧
    Snapshot (v.base.ramCopy d) (writes tr + 1)
  flight : ∀ f ∈ v.base.flight, v.base.pending = [] ∧ Snapshot f.content (writes tr + 1)
  saves_le : saves tr ≤ writes tr
  waiting : v.phase = .waiting → 0 < v.base.due ∨ v.base.state.saveSyncFlag = true →
    saves tr < writes tr
  reports : Each Reports tr

variable {v v' : Process} {a : Action} {tr es : List Event} {bes : List AppState.Event}

@[simp] lemma writes_append (tr es : List Event) : writes (tr ++ es) = writes tr + writes es :=
  List.count_append

@[simp] lemma saves_append (tr es : List Event) : saves (tr ++ es) = saves tr + saves es :=
  List.count_append

lemma writes_printed (outs : List Output) : writes (outs.map .printed) = 0 := by
  rw [writes, List.count_eq_zero]
  simp

lemma saves_printed (h : ∀ out ∈ outs, Fits n out) : saves (outs.map .printed) = 0 := by
  rw [saves, List.count_eq_zero, List.mem_map]
  rintro ⟨out, hout, heq⟩
  cases heq
  exact h _ hout

lemma reports_printed (htr : Each Reports tr) (h : ∀ out ∈ outs, Fits (writes tr) out) :
    Each Reports (tr ++ outs.map .printed) := by
  induction outs using List.reverseRecOn with
  | nil => simpa using htr
  | append_singleton outs out ih =>
    have hout := h out (by simp)
    rw [List.map_append, List.map_singleton, ← List.append_assoc, each_concat]
    refine ⟨ih fun o ho => h o (List.mem_append_left _ ho), ?_⟩
    have hwrites : writes (tr ++ outs.map .printed) = writes tr := by
      rw [writes_append, writes_printed, Nat.add_zero]
    cases out with
    | neverSaved => exact hwrites.trans hout
    | hasRun count =>
      obtain ⟨hpos, hcount⟩ := hout
      exact ⟨hwrites ▸ hpos, hwrites ▸ hcount⟩
    | saved => exact hout.elim
    | loadingError | savingError => trivial

lemma Counted.main (hv : Counted answer d tr v) (ht : TwoWords answer d) (hoff : v.phase = .off)
    (k k' : Kernel) (h : exec answer d v (.main k k') = some (v', es)) :
    Counted answer d (tr ++ es) v' := by
  obtain ⟨hpending, hflight⟩ := hv.off hoff
  have hran := main_ran ht hv.sane hv.holds k k'
  rw [exec, if_pos hoff] at h
  generalize Demo.main answer d k k' v.base = r at hran h
  obtain ⟨w, outs, waiting⟩ := r
  cases h
  have hwrites : writes (tr ++ outs.map .printed) = writes tr := by
    rw [writes_append, writes_printed, Nat.add_zero]
  have hsaves : saves (tr ++ outs.map .printed) = saves tr := by
    rw [saves_append, saves_printed hran.fits, Nat.add_zero]
  have hrun := hran.pending
  rw [hpending, List.nil_append] at hrun
  refine ⟨hran.sane, ?_, hwrites ▸ hran.holds, ?_, ?_, ?_, ?_, reports_printed hv.reports hran.fits⟩
  · intro hphase
    cases waiting <;> cases hphase
  · intro hne
    rcases hrun with hnil | ⟨hcons, hsnapshot⟩
    · exact absurd hnil hne
    · rw [hwrites]
      exact ⟨by rw [hcons]; rfl, hran.flight.trans hflight, hsnapshot⟩
  · intro f hf
    have hnone := hran.flight.trans hflight
    rw [hnone] at hf
    cases hf
  · rw [hsaves, hwrites]
    exact hv.saves_le
  · intro hphase hended
    cases waiting with
    | false => cases hphase
    | true =>
      obtain ⟨hdue, hflag⟩ := hran.waiting rfl
      rcases hended with hpos | hset
      · exact absurd hpos (by rw [hdue]; exact lt_irrefl 0)
      · exact absurd hset (by rw [hflag]; exact Bool.false_ne_true)

lemma Counted.copy (hv : Counted answer d tr v) (h : World.Effect answer d v.base .copy w bes) :
    Counted answer d tr ⟨w, v.phase⟩ := by
  have hsane := hv.sane.step h
  cases h with
  | copy hpending hflight =>
    have hne : v.base.pending ≠ [] := by simp [hpending]
    obtain ⟨hlen, -, hsnapshot⟩ := hv.pending hne
    have hnil := hlen
    rw [hpending, List.length_cons, Nat.add_eq_right, List.length_eq_zero_iff] at hnil
    refine ⟨hsane, ?_, hv.holds, fun h => absurd hnil h, ?_, hv.saves_le, hv.waiting, hv.reports⟩
    · exact fun hoff => absurd (hv.off hoff).1 hne
    · intro f hf
      cases hf
      exact ⟨hnil, hsnapshot⟩

lemma Counted.finish (hv : Counted answer d tr v) (ht : TwoWords answer d)
    (h : World.Effect answer d v.base .finish w bes) :
    Counted answer d (tr ++ [.written]) ⟨w, v.phase⟩ := by
  have hsane := hv.sane.step h
  have hwrites : writes (tr ++ [.written]) = writes tr + 1 := writes_append tr [.written]
  have hsaves : saves (tr ++ [.written]) = saves tr := saves_append tr [.written]
  have hle := hv.saves_le
  cases h with
  | @finish content hflight hlen =>
    obtain ⟨hpending, hsnapshot⟩ := hv.flight _ hflight
    rw [ht.toNat_size] at hlen
    refine ⟨hsane, ?_, ?_, fun h => absurd hpending h, ?_, ?_, ?_,
      each_concat.mpr ⟨hv.reports, trivial⟩⟩
    · intro hoff
      have hnone := (hv.off hoff).2
      rw [hflight] at hnone
      cases hnone
    · rw [hwrites]
      have hle : content.length ≤ 2 ^ 32 := by omega
      have hput := Memory.bytes_put (m := v.base.mem) (p := flashStart answer) hle
      rw [hlen] at hput
      exact hsnapshot.holds hput
    · intro f hf
      cases hf
    · rw [hwrites, hsaves]
      exact hle.trans (Nat.le_succ _)
    · intro _ _
      rw [hwrites, hsaves]
      exact Nat.lt_succ_of_le hle

lemma Counted.upcall (hv : Counted answer d tr v)
    (h : World.Effect answer d v.base .upcall w bes) : Counted answer d tr ⟨w, v.phase⟩ := by
  have hsane := hv.sane.step h
  cases h with
  | upcall hdue =>
    refine ⟨hsane, hv.off, hv.holds, hv.pending, hv.flight, hv.saves_le, ?_, hv.reports⟩
    intro hphase _
    exact hv.waiting hphase (.inl (by rw [hdue]; exact Nat.succ_pos _))

lemma Counted.reset (hv : Counted answer d tr v) (ht : TwoWords answer d) {ram : Memory 32}
    (h : World.Effect answer d v.base (.reset ram) w bes) : Counted answer d tr ⟨w, .off⟩ := by
  have hsane := hv.sane.step h
  cases h with
  | reset hmem =>
    rw [ht.toNat_size] at hmem
    refine ⟨hsane, fun _ => ⟨rfl, rfl⟩, ?_, fun h => absurd rfl h, ?_, hv.saves_le, ?_, hv.reports⟩
    · exact hv.holds.congr (Memory.bytes_congr fun a ha => (hmem a ha).symm)
    · intro f hf
      cases hf
    · intro hphase
      cases hphase

lemma Counted.resume (hv : Counted answer d tr v) (hphase : v.phase = .waiting)
    (hflag : v.base.state.saveSyncFlag = true) :
    Counted answer d (tr ++ [.printed .saved]) ⟨v.base, .ended⟩ := by
  have hlt := hv.waiting hphase (.inr hflag)
  have hwrites : writes (tr ++ [.printed .saved]) = writes tr := writes_append tr _
  have hsaves : saves (tr ++ [.printed .saved]) = saves tr + 1 := saves_append tr [.printed .saved]
  refine ⟨hv.sane, ?_, hwrites ▸ hv.holds, ?_, ?_, ?_, ?_, each_concat.mpr ⟨hv.reports, hlt⟩⟩
  · intro hoff
    cases hoff
  · rw [hwrites]
    exact hv.pending
  · rw [hwrites]
    exact hv.flight
  · rw [hwrites, hsaves]
    exact hlt
  · intro hphase
    cases hphase

lemma Counted.step (hv : Counted answer d tr v) (ht : TwoWords answer d)
    (h : Step answer d v a v' es) : Counted answer d (tr ++ es) v' := by
  rw [Step] at h
  cases a with
  | main k k' =>
    by_cases hoff : v.phase = .off
    · exact hv.main ht hoff k k' h
    · rw [exec, if_neg hoff] at h
      cases h
  | resume =>
    rw [exec] at h
    split_ifs at h with hready
    cases h
    exact hv.resume hready.1 hready.2
  | copy =>
    rw [exec, Option.map_eq_some_iff] at h
    obtain ⟨⟨w, bes⟩, hbase, heq⟩ := h
    cases heq
    rw [List.append_nil]
    exact hv.copy (World.Step.effect hv.sane hbase)
  | finish =>
    rw [exec, Option.map_eq_some_iff] at h
    obtain ⟨⟨w, bes⟩, hbase, heq⟩ := h
    cases heq
    exact hv.finish ht (World.Step.effect hv.sane hbase)
  | upcall =>
    rw [exec, Option.map_eq_some_iff] at h
    obtain ⟨⟨w, bes⟩, hbase, heq⟩ := h
    cases heq
    rw [List.append_nil]
    exact hv.upcall (World.Step.effect hv.sane hbase)
  | reset ram =>
    rw [exec, Option.map_eq_some_iff] at h
    obtain ⟨⟨w, bes⟩, hbase, heq⟩ := h
    cases heq
    rw [List.append_nil]
    exact hv.reset ht (World.Step.effect hv.sane hbase)

def twoWords : Declared := ⟨0x20000000, 8⟩

lemma twoWords_spec : TwoWords oneRegion twoWords :=
  ⟨rfl, disjoint_block_of_le (by decide) (by decide)⟩

def fresh : Process := ⟨erased, .off⟩

/-- The first run loses power before its upcall, the second one before its write. -/
def threeRuns : List Action :=
  let steady := Kernel.steady .accepted .success
  [.main steady steady, .copy, .finish, .reset fun _ => 0,
    .main steady steady, .copy, .reset fun _ => 0,
    .main steady steady, .copy, .finish, .upcall, .resume]

def threeRunsEvents : List Event :=
  [.printed .neverSaved, .written, .printed (.hasRun 1), .printed (.hasRun 1), .written,
    .printed .saved]

end AppState.Demo
