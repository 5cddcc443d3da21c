import Libtock.Core.Progress
import Libtock.Console.Serialized

/-!
# Every waiting call returns

The upcall that answers a write takes at least one entry off the list, so an entry that is the
`i`-th of the list has left it after `i + 1` upcalls, whatever the kernel answers to the submissions
and however many calls are made meanwhile. When no more calls are made, the calls that wait return
one inside the other and all entries are freed.
-/

namespace Console

open Core Tock

/-- The upcall takes away the first request and those that are refused; the others move up. -/
lemma idxOf_served {p x : Ptr} {l : List Ptr} {accepts : ℕ → Bool} (hnodup : (x :: l).Nodup)
    (hp : p ∈ Serial.served accepts l) :
    (x :: l).idxOf p = (Serial.refused accepts l).length + (Serial.served accepts l).idxOf p + 1 := by
  have happ := Serial.refused_append_served accepts l
  have hx : x ≠ p := by
    rintro rfl
    exact (List.nodup_cons.mp hnodup).1 (Serial.mem_of_mem_served accepts l hp)
  have hrefused : p ∉ Serial.refused accepts l := by
    intro hmem
    have hl := (List.nodup_cons.mp hnodup).2
    rw [← happ, List.nodup_append] at hl
    exact hl.2.2 p hmem p hp rfl
  rw [List.idxOf_cons_ne _ hx]
  conv_lhs => rw [← happ, List.idxOf_append_of_notMem hrefused]

namespace Action

def isPutnstr : Action → Bool
  | putnstr _ _ _ _ => true
  | _ => false

def isUpcall : Action → Bool
  | upcall _ => true
  | _ => false

def isTest : Action → Bool
  | test => true
  | _ => false

end Action

namespace World

variable {w w' : World} {a : Action} {as : List Action} {es tr : List Event} {l l' : List Ptr}

/-! ### The place of an entry -/

/-- The entry of call `c`, if it is in the list, is among the first `n`. -/
def Within (c n : ℕ) (w : World) (l : List Ptr) : Prop :=
  c < w.calls ∧ ∀ p ∈ l, w.call p = c → l.idxOf p < n

lemma Effect.within {c n : ℕ} (hv : Valid w l) (heff : Effect w l w' l' es)
    (h : Within c n w l) : Within c n w' l' := by
  obtain ⟨hc, h⟩ := h
  cases heff with
  | idle => exact ⟨hc, h⟩
  | noMemory => exact ⟨hc.trans (Nat.lt_succ_self _), h⟩
  | refused hl => exact ⟨hc.trans (Nat.lt_succ_self _), by simp [hl, Serial.put]⟩
  | @accepted st str n data hl hnew =>
    refine ⟨hc.trans (Nat.lt_succ_self _), ?_⟩
    intro p hp hcall
    obtain rfl : p = data := by simpa [hl, Serial.put] using hp
    rw [call_waits_self] at hcall
    omega
  | @queued st str m data hl hnew =>
    refine ⟨hc.trans (Nat.lt_succ_self _), ?_⟩
    intro p hp hcall
    rcases List.mem_append.mp hp with hpl | hpd
    · have hpd : p ≠ data := fun hpd => hnew (hpd ▸ hv.mem_stack hpl)
      rw [List.idxOf_append_of_mem hpl]
      exact h p hpl ((Function.update_of_ne hpd _ _).symm.trans hcall)
    · obtain rfl : p = data := by simpa using hpd
      rw [call_waits_self] at hcall
      omega
  | @upcall st x rest accepts log hl =>
    subst hl
    refine ⟨hc, ?_⟩
    intro p hp hcall
    have hidx := idxOf_served hv.writing.nodup hp
    have hlt := h p (List.mem_cons_of_mem _ (Serial.mem_of_mem_served accepts rest hp)) hcall
    omega
  | returned => exact ⟨hc, h⟩

/-! ### Steps that make no call -/

/-- The calls that returned and with what, in the order in which they did. -/
def returned (tr : List Event) : List (ℕ × ℤ) :=
  tr.filterMap fun
    | .returned call ret => some (call, ret)
    | _ => none

@[simp] lemma returned_append (tr tr' : List Event) :
    returned (tr ++ tr') = returned tr ++ returned tr' := List.filterMap_append

@[simp] lemma returned_log (call : Ptr → ℕ) (log : List Submission) :
    returned (log.map (Submission.event call)) = [] := by
  induction log with
  | nil => rfl
  | cons sub log ih => exact ih

/-- The calls that wait and what they will return, innermost first. -/
def waitingCalls (w : World) : List (ℕ × ℤ) := w.stack.map fun f => (w.call f.data, f.ret)

/-- An upcall only works on the memory. -/
lemma upcall_frame {ans : ℕ → Answers} (hstep : Step w (.upcall ans) w' es) :
    ∃ st, w' = { w with st } ∧ returned es = [] := by
  obtain ⟨fuel, hfuel⟩ := hstep
  simp only [step] at hfuel
  split at hfuel
  · cases hfuel
    exact ⟨w.st, rfl, rfl⟩
  · split at hfuel
    · generalize putstrUpcall fuel ans _ = r at hfuel
      cases r with
      | error e => cases hfuel
      | ok r =>
        cases hfuel
        exact ⟨r.1, rfl, returned_log _ _⟩
    · cases hfuel
      exact ⟨_, rfl, rfl⟩

/-- The innermost call returns if it has been woken. -/
lemma test_cases (hstep : Step w .test w' es) :
    (w' = w ∧ es = [] ∧ ∀ f ∈ w.stack.head?, w.st.called f.data = false) ∨
      ∃ f stack st, w.stack = f :: stack ∧ w' = { w with st, stack } ∧
        es = [.returned (w.call f.data) f.ret] := by
  obtain ⟨fuel, hfuel⟩ := hstep
  simp only [step] at hfuel
  split at hfuel
  · next hstack =>
    cases hfuel
    exact Or.inl ⟨rfl, rfl, by simp [hstack]⟩
  · next f stack hstack =>
    cases hd : w.st.nodes f.data with
    | none => simp [State.load, hd, bind, Except.bind] at hfuel
    | some d =>
      rw [State.load_of_nodes hd] at hfuel
      simp only [bind, Except.bind] at hfuel
      split_ifs at hfuel with hcalled
      · split at hfuel
        · cases hfuel
        · cases hfuel
          exact Or.inr ⟨f, stack, _, hstack, rfl, rfl⟩
      · cases hfuel
        exact Or.inl ⟨rfl, rfl, by simpa [hstack, State.called, hd] using hcalled⟩

/-- An upcall takes at least one entry off the list. -/
lemma Valid.upcall_served (hv : Valid w l) {ans : ℕ → Answers}
    (hstep : Step w (.upcall ans) w' es) :
    (l = [] ∧ Valid w' []) ∨ ∃ x rest accepts, l = x :: rest ∧
      Valid w' (Serial.served accepts rest) := by
  cases l with
  | nil =>
    have hwrites : w.st.writes = [] := hv.writing.writes
    obtain ⟨fuel, hfuel⟩ := hstep
    simp only [World.step, hwrites] at hfuel
    cases hfuel
    exact Or.inl ⟨rfl, hv⟩
  | cons x l =>
    obtain ⟨w'', es', hret, hv', -, -⟩ := hv.upcall ans
    obtain ⟨rfl, rfl⟩ := hret.unique hstep
    exact Or.inr ⟨x, l, _, rfl, hv'⟩

lemma length_served_le (accepts : ℕ → Bool) (l : List Ptr) :
    (Serial.served accepts l).length ≤ l.length := by
  conv_rhs => rw [← Serial.refused_append_served accepts l, List.length_append]
  exact Nat.le_add_left _ _

lemma Valid.upcall_within {c n : ℕ} (hv : Valid w l) (h : Within c n w l) {ans : ℕ → Answers}
    (hstep : Step w (.upcall ans) w' es) : ∃ l', Valid w' l' ∧ Within c (n - 1) w' l' := by
  obtain ⟨st, rfl, -⟩ := upcall_frame hstep
  rcases hv.upcall_served hstep with ⟨rfl, hv'⟩ | ⟨x, rest, accepts, rfl, hv'⟩
  · exact ⟨[], hv', h.1, by simp⟩
  · refine ⟨_, hv', h.1, ?_⟩
    intro p hp hcall
    have hidx := idxOf_served hv.writing.nodup hp
    have hlt := h.2 p (List.mem_cons_of_mem _ (Serial.mem_of_mem_served accepts rest hp)) hcall
    omega

/-- A list and a stack of which the one has at most `m` and the other at most `n` elements. -/
def Sized (m n : ℕ) (w : World) : Prop := ∃ l, Valid w l ∧ l.length ≤ m ∧ w.stack.length ≤ n

lemma Valid.length_le (hv : Valid w l) : l.length ≤ w.stack.length := by
  have hle := (hv.writing.nodup.subperm fun p hp => hv.mem_stack hp).length_le
  rwa [List.length_map] at hle

/-- Where nobody makes a call, an upcall shortens the list. -/
lemma Sized.step {m n : ℕ} (h : Sized m n w) (ha : a.isPutnstr = false)
    (hstep : Step w a w' es) : Sized (m - if a.isUpcall then 1 else 0) n w' := by
  obtain ⟨l, hv, hm, hn⟩ := h
  cases a with
  | putnstr => cases ha
  | upcall ans =>
    obtain ⟨st, rfl, -⟩ := upcall_frame hstep
    rcases hv.upcall_served hstep with ⟨rfl, hv'⟩ | ⟨x, rest, accepts, rfl, hv'⟩
    · exact ⟨[], hv', Nat.zero_le _, hn⟩
    · refine ⟨_, hv', ?_, hn⟩
      have hle := length_served_le accepts rest
      simp only [List.length_cons, Action.isUpcall, if_true] at hm ⊢
      omega
  | test =>
    obtain ⟨w'', es', hret, hv', -⟩ := hv.test
    obtain ⟨rfl, rfl⟩ := hret.unique hstep
    refine ⟨l, hv', hm, ?_⟩
    rcases test_cases hstep with ⟨rfl, -⟩ | ⟨f, stack, st, hstack, rfl, -⟩
    · exact hn
    · rw [hstack, List.length_cons] at hn
      exact (Nat.le_succ _).trans hn

/-- When the list is empty everybody has been woken, and a test lets the innermost call return. -/
lemma Sized.test {n : ℕ} (h : Sized 0 n w) (hstep : Step w a w' es) (ha : a.isPutnstr = false) :
    Sized 0 (n - if a.isTest then 1 else 0) w' := by
  have hsized := h.step ha hstep
  rw [Nat.zero_sub] at hsized
  obtain ⟨l, hv, hl, hn⟩ := h
  obtain rfl := List.eq_nil_of_length_eq_zero (Nat.le_zero.mp hl)
  cases a with
  | putnstr => cases ha
  | upcall ans => exact hsized
  | test =>
    obtain ⟨l', hv', hl', hn'⟩ := hsized
    refine ⟨l', hv', hl', ?_⟩
    rcases test_cases hstep with ⟨rfl, -, hcalled⟩ | ⟨f, stack, st, hstack, rfl, -⟩
    · cases hstack : w'.stack with
      | nil => exact Nat.zero_le _
      | cons f stack =>
        -- nobody is in the list, so the innermost call has been woken
        have hf := (hv.waiting f (by simp [hstack])).resolve_left (by simp)
        rw [hcalled f (by simp [hstack])] at hf
        cases hf
    · rw [hstack, List.length_cons] at hn
      exact Nat.le_sub_one_of_lt hn

/-- Where nobody makes a call, the calls that wait are those that have not returned yet. -/
lemma waitingCalls_step (ha : a.isPutnstr = false) (hstep : Step w a w' es) :
    returned es ++ w'.waitingCalls = w.waitingCalls := by
  cases a with
  | putnstr => cases ha
  | upcall ans =>
    obtain ⟨st, rfl, hes⟩ := upcall_frame hstep
    rw [hes]
    rfl
  | test =>
    rcases test_cases hstep with ⟨rfl, rfl, -⟩ | ⟨f, stack, st, hstack, rfl, rfl⟩
    · rfl
    · simp [returned, waitingCalls, hstack]

/-! ### All runs -/

lemma path_of_exec (w : World) (as : List Action) {w' : World} {es : List Event}
    (h : exec w as = some (w', es)) : Path (Guarded Step Fresh) w as es w' := by
  refine Path.of_play (?_) as h
  intro w a w' es hstep
  split_ifs at hstep with hfresh
  refine ⟨hfresh, 32, ?_⟩
  generalize w.step 32 a = r at hstep
  cases r with
  | error e => cases hstep
  | ok r => exact congrArg Except.ok (Option.some.inj hstep)

lemma path_within {c n : ℕ} (hv : Valid w l) (h : Within c n w l)
    (hpath : Path (Guarded Step Fresh) w as tr w') :
    ∃ l', Valid w' l' ∧ Within c (n - as.countP Action.isUpcall) w' l' := by
  refine hpath.drain (Q := fun _ => True) (fun w n => ∃ l, Valid w l ∧ Within c n w l) ?_
    (fun _ _ => trivial) ⟨l, hv, h⟩
  rintro w n a w' es - ⟨l, hv, h⟩ ⟨hfresh, hstep⟩
  cases ha : a.isUpcall with
  | true =>
    cases a with
    | upcall ans => exact hv.upcall_within h hstep
    | _ => cases ha
  | false =>
    obtain ⟨w'', es', l', hret, hv', heff⟩ := hv.step hfresh
    obtain ⟨rfl, rfl⟩ := hret.unique hstep
    exact ⟨l', hv', heff.within hv h⟩

/-- The calls that wait are numbered, an inner one after those around it. -/
structure Numbered (w : World) : Prop where
  lt : ∀ f ∈ w.stack, w.call f.data < w.calls
  decreasing : (w.stack.map fun f => w.call f.data).Pairwise (· > ·)

lemma Numbered.waits {data : Ptr} (h : Numbered w) (st : State)
    (hnew : data ∉ w.stack.map Frame.data) : Numbered (w.waits data st) := by
  have hlt : ∀ f ∈ w.stack, w.call f.data < w.calls + 1 :=
    fun f hf => (h.lt f hf).trans (Nat.lt_succ_self _)
  refine ⟨forall_waits (P := fun _ c => c < w.calls + 1) st hnew (Nat.lt_succ_self _) hlt, ?_⟩
  have hmap : (w.waits data st).stack.map (fun f => (w.waits data st).call f.data)
      = w.calls :: w.stack.map fun f => w.call f.data := by
    have hold : ∀ f ∈ w.stack, (w.numbered data st).call f.data = w.call f.data :=
      fun f hf => call_numbered hnew hf
    exact congrArg₂ List.cons (call_waits_self w data st) (List.map_congr_left hold)
  rw [hmap, List.pairwise_cons]
  exact ⟨by simpa using h.lt, h.decreasing⟩

lemma Numbered.effect (h : Numbered w) (heff : Effect w l w' l' es) : Numbered w' := by
  have hlt : ∀ f ∈ w.stack, w.call f.data < w.calls + 1 :=
    fun f hf => (h.lt f hf).trans (Nat.lt_succ_self _)
  cases heff with
  | idle => exact h
  | noMemory => exact ⟨hlt, h.decreasing⟩
  | @refused st str n data ret hl hnew =>
    refine ⟨forall_numbered (P := fun _ c => c < w.calls + 1) st hnew hlt, ?_⟩
    have hold : ∀ f ∈ w.stack, (w.numbered data st).call f.data = w.call f.data :=
      fun f hf => call_numbered hnew hf
    show (w.stack.map fun f => (w.numbered data st).call f.data).Pairwise (· > ·)
    rw [List.map_congr_left hold]
    exact h.decreasing
  | accepted hl hnew => exact h.waits _ hnew
  | queued hl hnew => exact h.waits _ hnew
  | upcall => exact ⟨h.lt, h.decreasing⟩
  | @returned st f stack hstack =>
    have hdecreasing := h.decreasing
    rw [hstack, List.map_cons, List.pairwise_cons] at hdecreasing
    exact ⟨fun g hg => h.lt g (hstack ▸ List.mem_cons_of_mem f hg), hdecreasing.2⟩

/-- No two calls that wait have the same number. -/
lemma Numbered.data_eq (h : Numbered w) {f g : Frame} (hf : f ∈ w.stack) (hg : g ∈ w.stack)
    (heq : w.call f.data = w.call g.data) : f.data = g.data := by
  have hnodup : (w.stack.map fun f => w.call f.data).Nodup := h.decreasing.imp fun hgt => hgt.ne'
  exact congrArg Frame.data (List.inj_on_of_nodup_map hnodup hf hg heq)

/-- In every run, the call whose entry is the `i`-th of the list has been woken, or has returned,
after `i + 1` upcalls, whatever else happens meanwhile. And when no more calls are made, as many
upcalls and then tests as there are calls let all of them return, innermost first, each with its
result, and leave no entry allocated. -/
theorem putnstr_returns {w₀ : World} (h₀ : Initial w₀)
    (hrun : Run (Guarded Step Fresh) w₀ tr w) :
    ∃ l, Serialized tr w l ∧
      (∀ as tr' w' i p, Path (Guarded Step Fresh) w as tr' w' → l[i]? = some p →
        i < as.countP Action.isUpcall →
        ∀ f ∈ w'.stack, w'.call f.data = w.call p → w'.st.called f.data = true) ∧
      ∀ as bs tr' w', Path (Guarded Step Fresh) w (as ++ bs) tr' w' →
        (∀ a ∈ as ++ bs, a.isPutnstr = false) →
        w.stack.length ≤ as.countP Action.isUpcall → w.stack.length ≤ bs.countP Action.isTest →
        w'.stack = [] ∧ returned tr' = w.waitingCalls ∧ w'.st.putstrHead = none ∧
          ∀ p, w'.st.nodes p = none := by
  obtain ⟨l, hv, ho, hnumbered⟩ := run_keeps
    (P := fun tr w l => InOrder tr w l ∧ Numbered w)
    (fun tr w l w' l' es hv h heff => ⟨h.1.step (heff.moves hv), h.2.effect heff⟩)
    h₀.valid.1 ⟨h₀.valid.2, by simp [h₀.stack], by simp [h₀.stack]⟩ hrun
  refine ⟨l, hv.serialized ho, ?_, ?_⟩
  · intro as tr' w' i p hpath hp hi f hf hcall
    have hpl : p ∈ l := List.mem_of_getElem? hp
    obtain ⟨g, hg, hgp⟩ := List.mem_map.mp (hv.mem_stack hpl)
    subst hgp
    have hwithin : Within (w.call g.data) (i + 1) w l := by
      refine ⟨hnumbered.lt g hg, ?_⟩
      intro q hq hqcall
      obtain ⟨f', hf', rfl⟩ := List.mem_map.mp (hv.mem_stack hq)
      rw [hnumbered.data_eq hf' hg hqcall]
      obtain ⟨hi', hget⟩ := List.getElem?_eq_some_iff.mp hp
      rw [← hget, hv.writing.nodup.idxOf_getElem]
      exact Nat.lt_succ_self i
    obtain ⟨l', hv', -, hnone⟩ := path_within hv hwithin hpath
    refine (hv'.waiting f hf).resolve_left fun hfl => ?_
    have := hnone f.data hfl hcall
    omega
  · intro as bs tr' w' hpath hquiet has hbs
    have hcalls' := hpath.invariant (Q := fun a => a.isPutnstr = false)
      (fun tr w' => returned tr ++ w'.waitingCalls = w.waitingCalls)
      (fun tr w' a w'' es ha h hstep => by
        rw [returned_append, List.append_assoc, waitingCalls_step ha hstep.2, h]) hquiet rfl
    obtain ⟨w₁, tr₁, tr₂, hpath₁, hpath₂, -⟩ := hpath.split
    have h₁ := hpath₁.drain (Q := fun a => a.isPutnstr = false)
      (fun w' n => Sized n w.stack.length w') (fun w' n a w'' es ha h hstep => h.step ha hstep.2)
      (fun a ha => hquiet a (List.mem_append_left _ ha)) ⟨l, hv, hv.length_le, le_rfl⟩
    rw [Nat.sub_eq_zero_of_le has] at h₁
    obtain ⟨l', hv', hl', hstack⟩ := hpath₂.drain (Q := fun a => a.isPutnstr = false)
      (fun w' n => Sized 0 n w') (fun w' n a w'' es ha h hstep => h.test hstep.2 ha)
      (fun a ha => hquiet a (List.mem_append_right _ ha)) h₁
    rw [Nat.sub_eq_zero_of_le hbs] at hstack
    obtain rfl := List.eq_nil_of_length_eq_zero (Nat.le_zero.mp hl')
    have hnil := List.eq_nil_of_length_eq_zero (Nat.le_zero.mp hstack)
    refine ⟨hnil, ?_, hv'.writing.head_eq, ?_⟩
    · simpa [waitingCalls, hnil] using hcalls'
    · intro p
      have := (hv'.memory.allocated p).mp.mt (by simp [hnil])
      simpa using this

/-- Two calls wait, the inner one behind the outer; the kernel refuses the inner one's write. -/
theorem putnstr_returns_two :
    ∃ (w w' : World) (tr tr' : List Event), Run (Guarded Step Fresh) boot tr w ∧
      w.waitingCalls = [(1, 0), (0, 0)] ∧
      Path (Guarded Step Fresh) w [.upcall fun _ => ⟨.ok (), .ok (), .other⟩,
        .upcall fun _ => ⟨.ok (), .ok (), .success⟩, .test, .test] tr' w' ∧
      returned tr' = [(1, 0), (0, 0)] ∧ w'.stack = [] ∧ ∀ p, w'.st.nodes p = none := by
  let accepted : Answers := ⟨.ok (), .ok (), .success⟩
  have h : ((exec boot [.putnstr ⟨some 1, some 10⟩ accepted (fun _ => 65) 1,
      .putnstr ⟨some 2, some 20⟩ accepted (fun _ => 66) 1]).any fun r =>
        decide (r.1.waitingCalls = [(1, 0), (0, 0)]) && (exec r.1 [.upcall fun _ =>
          ⟨.ok (), .ok (), .other⟩, .upcall fun _ => accepted, .test, .test]).isSome) = true := by
    decide
  obtain ⟨⟨w, tr⟩, hexec, htest⟩ := (Option.any_eq_true _ _).mp h
  simp only [Bool.and_eq_true, decide_eq_true_eq] at htest
  obtain ⟨⟨w', tr'⟩, hexec'⟩ := Option.isSome_iff_exists.mp htest.2
  have hrun := run_of_exec _ hexec
  have hpath := path_of_exec w _ hexec'
  have hlen : w.stack.length = 2 := by
    rw [← List.length_map (f := fun f : Frame => (w.call f.data, f.ret))]
    exact congrArg List.length htest.1
  obtain ⟨l, -, -, hreturn⟩ := putnstr_returns boot_initial hrun
  obtain ⟨hstack, hret, -, hnodes⟩ := hreturn [_, _] [_, _] _ _ hpath
    (by simp [Action.isPutnstr]) (by rw [hlen]; decide) (by rw [hlen]; decide)
  exact ⟨w, w', tr, tr', hrun, htest.1, hpath, htest.1 ▸ hret, hstack, hnodes⟩

end World

end Console
