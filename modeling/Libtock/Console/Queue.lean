import Libtock.Core.Serial
import Libtock.Console.State

/-!
# The list of entries as a serial queue

`Queued s l`: the entries from `putstr_head` on are those of `l`, `putstr_tail` is the last of them,
and nobody has woken their callers yet. `Writing s l` says besides that the write of the first
entry is the only one the kernel has to answer. `putnstr` and `putstr_upcall` keep this, and do to
`l` what `Core.Serial` says of a queue in front of a device.
-/

namespace Console

open Core Tock

namespace State

variable (s : State)

def next (p : Ptr) : Option Ptr := (s.nodes p).bind PutstrData.next

def called (p : Ptr) : Bool := (s.nodes p).any PutstrData.called

/-- What is submitted for the entry `p`. -/
def region (p : Ptr) : Option Region := (s.nodes p).map fun d => ⟨d.buf, d.len⟩

/-- The bytes the kernel finds there. -/
def content (p : Ptr) : Option (List U8) := (s.region p).bind fun r => s.read r

end State

structure Queued (s : State) (l : List Ptr) : Prop where
  chain : IsChain s.next s.putstrHead l
  tail : s.putstrTail = lastOr none l
  waiting : ∀ p ∈ l, ∃ d, s.nodes p = some d ∧ d.called = false

structure Writing (s : State) (l : List Ptr) : Prop extends Queued s l where
  writes : s.writes = (l.head?.bind s.region).toList
  subscribed : l ≠ [] → s.subscribed = some (.putstrUpcall, none)

/-- The kernel accepts the write. -/
def Answers.accept (ans : Answers) : Bool :=
  match ans.allow, ans.subscribe, ans.command with
  | .ok _, .ok _, .success => true
  | _, _, _ => false

variable {s s' : State} {l : List Ptr} {x p : Ptr} {d : PutstrData} {ans : Answers}

/-! ### Submitting an entry -/

lemma submit_accepted (h : ans.accept = true) (data : Ptr) (d : PutstrData) (s : State) :
    submit ans data d s = (⟨data, s.read ⟨d.buf, d.len⟩, returncodeSuccess⟩,
      { s with
        allowed := ⟨d.buf, d.len⟩
        subscribed := some (.putstrUpcall, none)
        writes := s.writes ++ [⟨d.buf, d.len⟩] }) := by
  obtain ⟨allow, sub, com⟩ := ans
  cases allow <;> cases sub <;> cases com <;> first
    | rfl
    | cases h

lemma submit_refused (h : ans.accept = false) (data : Ptr) (d : PutstrData) (s : State) :
    (submit ans data d s).1.ret < 0 ∧
      ∃ allowed subscribed, (submit ans data d s).2 = { s with allowed, subscribed } := by
  obtain ⟨allow, sub, com⟩ := ans
  cases allow with
  | error e => exact ⟨tockStatusToReturncode_neg e, s.allowed, s.subscribed, rfl⟩
  | ok =>
    cases sub with
    | error e => exact ⟨tockStatusToReturncode_neg e, ⟨d.buf, d.len⟩, s.subscribed, rfl⟩
    | ok =>
      cases com with
      | success => cases h
      | failure e =>
        exact ⟨tockCommandReturnNovalueToReturncode_neg (r := .failure e) (by simp), ⟨d.buf, d.len⟩,
          some (.putstrUpcall, none), rfl⟩
      | other =>
        exact ⟨tockCommandReturnNovalueToReturncode_neg (r := .other) (by simp), ⟨d.buf, d.len⟩,
          some (.putstrUpcall, none), rfl⟩

lemma submit_entry (ans : Answers) (data : Ptr) (d : PutstrData) (s : State) :
    (submit ans data d s).1.entry = data := rfl

/-! ### The list of entries -/

lemma State.load_of_nodes (h : s.nodes p = some d) : s.load (some p) = .ok d := by
  simp [State.load, h]

@[simp] lemma State.setNode_nodes (p : Ptr) (d : PutstrData) (s : State) :
    (s.setNode p d).nodes = Function.update s.nodes p (some d) := rfl

lemma Queued.head_eq (h : Queued s l) : s.putstrHead = l.head? := h.chain.head_eq

lemma Queued.nodup (h : Queued s l) : l.Nodup := h.chain.nodup

lemma Queued.next_eq (h : Queued s (x :: l)) (hd : s.nodes x = some d) : d.next = l.head? := by
  have := h.chain.2.head_eq
  simpa [State.next, hd] using this

/-- The list only depends on the entries in it, and on the two pointers. -/
lemma Queued.congr (h : Queued s l) (hnodes : ∀ p ∈ l, s'.nodes p = s.nodes p)
    (hhead : s'.putstrHead = s.putstrHead) (htail : s'.putstrTail = s.putstrTail) :
    Queued s' l where
  chain := by
    rw [hhead]
    exact h.chain.congr fun p hp => by simp only [State.next, hnodes p hp]
  tail := by rw [htail, h.tail]
  waiting := by
    intro p hp
    rw [hnodes p hp]
    exact h.waiting p hp

lemma State.pop_nodes (x : Ptr) (d : PutstrData) (s : State) :
    (s.pop x d).nodes = Function.update s.nodes x (some { d with called := true }) := rfl

lemma State.pop_region (hd : s.nodes x = some d) (p : Ptr) :
    (s.pop x d).region p = s.region p := by
  by_cases hp : p = x
  · simp [State.region, State.pop_nodes, hp, hd]
  · simp [State.region, State.pop_nodes, hp]

/-- The content of an entry depends on its region and on the buffers only. -/
lemma State.content_congr (hregion : s'.region p = s.region p) (hbufs : s'.bufs = s.bufs) :
    s'.content p = s.content p := by
  simp only [State.content, State.read, hregion, hbufs]

lemma Queued.pop {y : Ptr} (h : Queued s (x :: y :: l)) (hd : s.nodes x = some d) :
    Queued (s.pop x d) (y :: l) := by
  have hx : x ∉ y :: l := (List.nodup_cons.mp h.nodup).1
  have hrest : Queued { s with putstrHead := d.next } (y :: l) := by
    refine ⟨?_, h.tail, fun p hp => h.waiting p (List.mem_cons_of_mem _ hp)⟩
    have := h.chain.2
    rwa [State.next, hd] at this
  refine hrest.congr (?_) rfl rfl
  intro p hp
  have hpx : p ≠ x := fun hpx => hx (hpx ▸ hp)
  simp [State.pop_nodes, hpx]

/-! ### The upcall -/

lemma putstrUpcall_last (hhead : s.putstrHead = some x) (hd : s.nodes x = some d)
    (hnext : d.next = none) (fuel : ℕ) (ans : ℕ → Answers) :
    putstrUpcall (fuel + 1) ans s = .ok ({ s.pop x d with putstrTail := none }, []) := by
  have hhead' : (s.pop x d).putstrHead = none := hnext
  simp only [putstrUpcall, hhead, State.load_of_nodes hd, bind, Except.bind, hhead']

lemma putstrUpcall_next {y : Ptr} {e : PutstrData} (hhead : s.putstrHead = some x)
    (hd : s.nodes x = some d) (hnext : d.next = some y) (he : (s.pop x d).nodes y = some e)
    (fuel : ℕ) (ans : ℕ → Answers) :
    putstrUpcall (fuel + 1) ans s =
      let r := submit (ans 0) y e (s.pop x d)
      if r.1.ret < 0 then
        (putstrUpcall fuel (fun k => ans (k + 1)) r.2).map fun r' => (r'.1, r.1 :: r'.2)
      else .ok (r.2, [r.1]) := by
  have hhead' : (s.pop x d).putstrHead = some y := hnext
  conv_lhs => unfold putstrUpcall
  simp only [hhead, State.load_of_nodes hd, bind, Except.bind, hhead', State.load_of_nodes he]
  split_ifs
  · cases putstrUpcall fuel (fun k => ans (k + 1)) _ <;> rfl
  · rfl

/-- `called` is set in the entries of `ps`, and nothing else happens to the memory. -/
structure Woken (s s' : State) (ps : List Ptr) : Prop where
  nodes : ∀ p, s'.nodes p =
    if p ∈ ps then (s.nodes p).map fun d => { d with called := true } else s.nodes p
  bufs : s'.bufs = s.bufs

lemma Woken.region {ps : List Ptr} (h : Woken s s' ps) (p : Ptr) : s'.region p = s.region p := by
  rw [State.region, State.region, h.nodes]
  split_ifs
  · cases s.nodes p <;> rfl
  · rfl

lemma Woken.cons {s₁ : State} {ps : List Ptr} (h : Woken s₁ s' ps) (hd : s.nodes x = some d)
    (hx : s₁.nodes = (s.pop x d).nodes) (hbufs : s₁.bufs = s.bufs) : Woken s s' (x :: ps) where
  nodes := by
    intro p
    rw [h.nodes, hx, State.pop_nodes]
    by_cases hp : p = x
    · subst hp
      simp [hd]
    · simp [hp]
  bufs := h.bufs.trans hbufs

/-- What an upcall does for the first entry `x`, if `l` are the others and the `k`-th submission is
answered with `ans k`: it returns, however many submissions fail. -/
lemma putstrUpcall_spec (hq : Queued s (x :: l)) (hw : s.writes = []) (ans : ℕ → Answers) :
    ∃ s' log,
      (∀ fuel, putstrUpcall fuel ans s = .ok (s', log) ∨
        fuel ≤ l.length ∧ putstrUpcall fuel ans s = .error .outOfFuel) ∧
      Writing s' (Serial.served (fun k => (ans k).accept) l) ∧
      log.map Submission.entry = Serial.offered (fun k => (ans k).accept) l ∧
      (∀ sub ∈ log, sub.bytes = s.content sub.entry) ∧
      Woken s s' (x :: Serial.refused (fun k => (ans k).accept) l) := by
  induction l generalizing s x ans with
  | nil =>
    obtain ⟨d, hd, -⟩ := hq.waiting x (by simp)
    have hnext : d.next = none := hq.next_eq hd
    refine ⟨{ s.pop x d with putstrTail := none }, [], ?_, ?_, rfl, by simp, ?_⟩
    · intro fuel
      cases fuel with
      | zero => exact .inr ⟨Nat.zero_le _, rfl⟩
      | succ fuel => exact .inl (putstrUpcall_last hq.head_eq hd hnext fuel ans)
    · exact ⟨⟨hnext, rfl, by simp [Serial.served]⟩, hw, by simp [Serial.served]⟩
    · exact Woken.cons ⟨fun p => by simp [Serial.refused], rfl⟩ hd rfl rfl
  | cons y l ih =>
    obtain ⟨d, hd, -⟩ := hq.waiting x (by simp)
    have hnext : d.next = some y := hq.next_eq hd
    have hq₁ := hq.pop hd
    have hw₁ : (s.pop x d).writes = [] := hw
    obtain ⟨e, he, -⟩ := hq₁.waiting y (by simp)
    have hbytes : (submit (ans 0) y e (s.pop x d)).1.bytes = s.content y := by
      have hregion : s.region y = some ⟨e.buf, e.len⟩ := by
        rw [← State.pop_region hd y, State.region, he]
        rfl
      rw [State.content, hregion]
      rfl
    cases hacc : (ans 0).accept with
    | true =>
      refine ⟨(submit (ans 0) y e (s.pop x d)).2, [(submit (ans 0) y e (s.pop x d)).1],
        ?_, ?_, ?_, by simpa [submit_entry] using hbytes, ?_⟩
      · intro fuel
        cases fuel with
        | zero => exact .inr ⟨Nat.zero_le _, rfl⟩
        | succ fuel =>
          left
          rw [putstrUpcall_next hq.head_eq hd hnext he]
          simp only [submit_accepted hacc, returncodeSuccess, lt_irrefl, if_false]
      · rw [submit_accepted hacc]
        simp only [Serial.served, hacc, if_true]
        refine ⟨⟨hq₁.chain, hq₁.tail, hq₁.waiting⟩, ?_, fun _ => rfl⟩
        simp [State.region, he, hw₁]
      · simp [Serial.offered, Serial.refused, Serial.served, hacc, submit_entry]
      · rw [submit_accepted hacc]
        refine Woken.cons ⟨?_, rfl⟩ hd rfl rfl
        intro p
        simp [Serial.refused, hacc]
    | false =>
      obtain ⟨hret, allowed, subscribed, hs₂⟩ := submit_refused hacc y e (s.pop x d)
      have hq₂ : Queued { s.pop x d with allowed, subscribed } (y :: l) :=
        hq₁.congr (fun _ _ => rfl) rfl rfl
      obtain ⟨s', log, hrun, hw', hlog, hlogBytes, hwoken⟩ := ih hq₂ hw₁ fun k => ans (k + 1)
      refine ⟨s', (submit (ans 0) y e (s.pop x d)).1 :: log, ?_, ?_, ?_, ?_, ?_⟩
      · intro fuel
        cases fuel with
        | zero => exact .inr ⟨Nat.zero_le _, rfl⟩
        | succ fuel =>
          rw [putstrUpcall_next hq.head_eq hd hnext he]
          simp only [hret, if_true, hs₂]
          rcases hrun fuel with hok | ⟨hle, herr⟩
          · exact .inl (by rw [hok]; rfl)
          · exact .inr ⟨Nat.succ_le_succ hle, by rw [herr]; rfl⟩
      · simpa [Serial.served, hacc] using hw'
      · simp [Serial.offered, Serial.refused, Serial.served, hacc, hlog, submit_entry]
      · intro sub hsub
        rcases List.mem_cons.mp hsub with rfl | hsub
        · exact hbytes
        · exact (hlogBytes sub hsub).trans
            (State.content_congr (State.pop_region hd sub.entry) rfl)
      · simp only [Serial.refused, hacc]
        exact hwoken.cons hd rfl rfl

/-! ### A new entry -/

lemma State.push_nodes (t : Ptr) (e : PutstrData) (p : Ptr) (s : State) :
    (s.push t e p).nodes = Function.update s.nodes t (some { e with next := some p }) := rfl

lemma Queued.push {t : Ptr} {e : PutstrData} (h : Queued s l) (hlast : lastOr none l = some t)
    (he : s.nodes t = some e) (hp : s.nodes p = none) (hcalled : d.called = false)
    (hnext : d.next = none) : Queued ((s.setNode p d).push t e p) (l ++ [p]) := by
  have hpl : p ∉ l := by
    intro hpl
    obtain ⟨d', hd', -⟩ := h.waiting p hpl
    simp [hp] at hd'
  have htl : t ∈ l := by
    rcases lastOr_eq_some_mem hlast with hc | ht
    · cases hc
    · exact ht
  have hne : l ≠ [] := List.ne_nil_of_mem htl
  have hpt : p ≠ t := fun hpt => hpl (hpt ▸ htl)
  refine ⟨?_, by simp [State.push], ?_⟩
  · have hchain : IsChain s.next s.putstrHead (l ++ []) := by simpa using h.chain
    have : IsChain ((s.setNode p d).push t e p).next (if l = [] then some p else s.putstrHead)
        (l ++ [p]) := hchain.insert (by simpa using hpl) fun q => ?_
    · rw [if_neg hne] at this
      exact this
    · rw [hlast]
      simp only [State.next, State.push_nodes, State.setNode_nodes, Function.update_apply,
        Option.some.injEq, List.head?_nil]
      grind
  · intro q hq
    rcases List.mem_append.mp hq with hq | hq
    · obtain ⟨d', hd', hcalled'⟩ := h.waiting q hq
      have hqp : q ≠ p := fun hqp => hpl (hqp ▸ hq)
      by_cases hqt : q = t
      · subst hqt
        rw [hd', Option.some.injEq] at he
        exact ⟨{ e with next := some p }, by simp [State.push_nodes], he ▸ hcalled'⟩
      · exact ⟨d', by simp [State.push_nodes, hqp, hqt, hd'], hcalled'⟩
    · obtain rfl : q = p := by simpa using hq
      exact ⟨d, by simp [State.push_nodes, hpt], hcalled⟩

end Console
