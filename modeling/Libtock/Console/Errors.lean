import Libtock.Console.Serialized

/-!
# What `putnstr` reports

A call that meets an empty queue reports what `putnstr_async` answers for its buffer. A call that
has been queued learns of no answer: `putstr_upcall` drops an entry that is refused, and the call
returns success either way.
-/

namespace Console

open Core Tock

namespace World

variable {w w₀ w₁ w₂ w' : World} {a : Action} {l l' : List Ptr} {tr tr' es : List Event} {c : ℕ}

/-- The buffer of `call` has been submitted. -/
def Submitted (tr : List Event) (call : ℕ) : Prop := ∃ sent ret, .submitted call sent ret ∈ tr

lemma Submitted.append (h : Submitted tr c) (es : List Event) : Submitted (tr ++ es) c := by
  obtain ⟨sent, ret, hmem⟩ := h
  exact ⟨sent, ret, List.mem_append_left _ hmem⟩

/-! ### The calls that wait -/

structure Reports (tr : List Event) (w : World) (l : List Ptr) : Prop where
  /-- A call that waits will return success. -/
  ret : ∀ f ∈ w.stack, f.ret = returncodeSuccess
  lt : ∀ f ∈ w.stack, w.call f.data < w.calls
  submitted : ∀ f ∈ w.stack, f.data ∈ l.tail ∨ Submitted tr (w.call f.data)
  returned : ∀ call, .returned call returncodeSuccess ∈ tr → Submitted tr call

lemma Reports.step (h : Reports tr w l) (heff : Effect w l w' l' es) :
    Reports (tr ++ es) w' l' := by
  have hold : ∀ call, .returned call returncodeSuccess ∈ tr → Submitted (tr ++ es) call :=
    fun call hmem => (h.returned call hmem).append es
  have hsub : ∀ f ∈ w.stack, f.data ∈ l.tail ∨ Submitted (tr ++ es) (w.call f.data) :=
    fun f hf => (h.submitted f hf).imp_right fun hs => hs.append es
  have hlt : ∀ f ∈ w.stack, w.call f.data < w.calls + 1 :=
    fun f hf => (h.lt f hf).trans (Nat.lt_succ_self _)
  cases heff with
  | idle => simpa using h
  | noMemory =>
    refine ⟨h.ret, hlt, hsub, fun call hmem => ?_⟩
    exact hold call (by simpa [returncodeSuccess, returncodeENomem] using hmem)
  | @refused st str n data ret hl hnew hret =>
    refine ⟨h.ret, forall_numbered (P := fun _ i => i < w.calls + 1) _ hnew hlt, ?_,
      fun call hmem => hold call ?_⟩
    · refine forall_numbered (P := fun p i => p ∈ _ ∨ Submitted _ i) _ hnew fun f hf => ?_
      exact .inr ((hsub f hf).resolve_left (by simp [hl]))
    · have hne : returncodeSuccess ≠ ret := fun heq => hret.ne heq.symm
      simpa [hne] using hmem
  | @accepted st str n data hl hnew =>
    refine ⟨?_, forall_waits (P := fun _ i => i < w.calls + 1) _ hnew (Nat.lt_succ_self _) hlt, ?_,
      fun call hmem => hold call (by simpa using hmem)⟩
    · simpa [waits] using h.ret
    · refine forall_waits (P := fun p i => p ∈ _ ∨ Submitted _ i) _ hnew (.inr ?_) fun f hf => ?_
      · exact ⟨some (strncpy str n), returncodeSuccess, by simp⟩
      · exact .inr ((hsub f hf).resolve_left (by simp [hl]))
  | @queued st str n data hl hnew =>
    refine ⟨?_, forall_waits (P := fun _ i => i < w.calls + 1) _ hnew (Nat.lt_succ_self _) hlt, ?_,
      fun call hmem => hold call (by simpa using hmem)⟩
    · simpa [waits] using h.ret
    · rw [List.tail_append_of_ne_nil hl]
      refine forall_waits (P := fun p i => p ∈ _ ∨ Submitted _ i) _ hnew (.inl ?_) fun f hf => ?_
      · simp
      · exact (hsub f hf).imp_left (List.mem_append_left _)
  | @upcall st x rest accepts log hl hlog =>
    refine ⟨h.ret, h.lt, ?_, fun call hmem => hold call ?_⟩
    · intro f hf
      rcases hsub f hf with hf | hf
      · rw [hl, List.tail_cons, ← Serial.offered_append_tail accepts rest] at hf
        rcases List.mem_append.mp hf with hf | hf
        · right
          rw [← hlog] at hf
          obtain ⟨sub, hin, hentry⟩ := List.mem_map.mp hf
          refine ⟨sub.bytes, sub.ret, List.mem_append_right _ (List.mem_map.mpr ⟨sub, hin, ?_⟩)⟩
          rw [Submission.event, hentry]
        · exact .inl hf
      · exact .inr hf
    · simpa [Submission.event] using hmem
  | @returned st f stack hstack hf =>
    have hmem : ∀ g ∈ stack, g ∈ w.stack := fun g hg => hstack ▸ List.mem_cons_of_mem f hg
    refine ⟨fun g hg => h.ret g (hmem g hg), fun g hg => h.lt g (hmem g hg),
      fun g hg => hsub g (hmem g hg), fun call hin => ?_⟩
    rcases List.mem_append.mp hin with hin | hin
    · exact hold call hin
    · obtain ⟨rfl, -⟩ : call = w.call f.data ∧ _ := by simpa using hin
      exact (hsub f (by simp [hstack])).resolve_left fun ht => hf (List.mem_of_mem_tail ht)

lemma run_reports (h0 : Initial w₀) (hrun : Run (Guarded Step Fresh) w₀ tr w) :
    ∃ l, Valid w l ∧ InOrder tr w l ∧ Reports tr w l := by
  have h0' : Reports [] w₀ [] := ⟨by simp [h0.stack], by simp [h0.stack], by simp [h0.stack],
    by simp⟩
  have hkeep : ∀ tr w l w' l' es, Valid w l → InOrder tr w l ∧ Reports tr w l →
      Effect w l w' l' es → InOrder (tr ++ es) w' l' ∧ Reports (tr ++ es) w' l' :=
    fun _ _ _ _ _ _ hv h heff => ⟨h.1.step (heff.moves hv), h.2.step heff⟩
  exact run_keeps hkeep h0.valid.1 ⟨h0.valid.2, h0'⟩ hrun

/-! ### One call from its beginning -/

/-- What the run says of the call `c` once it has been made: it returns nothing but success. -/
structure Waits (c : ℕ) (tr : List Event) (w : World) : Prop where
  lt : c < w.calls
  ret : ∀ f ∈ w.stack, f.ret = returncodeSuccess
  returned : ∀ ret, .returned c ret ∈ tr → ret = returncodeSuccess

/-- The call `c` has returned; the run says nothing more of it. -/
structure Over (c : ℕ) (tr : List Event) (w : World) : Prop where
  lt : c < w.calls
  stack : ∀ f ∈ w.stack, w.call f.data ≠ c
  returned : ∀ ret, .returned c ret ∉ tr
  submitted : ¬ Submitted tr c

lemma Over.not_mem (h : Over c tr w) (sent : Option (List U8)) (ret : ℤ) :
    .submitted c sent ret ∉ tr :=
  fun hmem => h.submitted ⟨sent, ret, hmem⟩

lemma Waits.step (h : Waits c tr w) (heff : Effect w l w' l' es) : Waits c (tr ++ es) w' := by
  have hlt := h.lt.trans (Nat.lt_succ_self _)
  have hnew : ∀ es ret, .returned c ret ∈ tr ++ es → .returned c ret ∉ es →
      ret = returncodeSuccess :=
    fun es ret hmem hes => h.returned ret ((List.mem_append.mp hmem).resolve_right hes)
  cases heff with
  | idle => simpa using h
  | noMemory => exact ⟨hlt, h.ret, fun ret hmem => hnew _ ret hmem (by simp [h.lt.ne])⟩
  | refused => exact ⟨hlt, h.ret, fun ret hmem => hnew _ ret hmem (by simp [h.lt.ne])⟩
  | accepted =>
    exact ⟨hlt, by simpa [waits] using h.ret, fun ret hmem => hnew _ ret hmem (by simp)⟩
  | queued =>
    exact ⟨hlt, by simpa [waits] using h.ret, fun ret hmem => hnew _ ret hmem (by simp)⟩
  | upcall =>
    exact ⟨h.lt, h.ret, fun ret hmem => hnew _ ret hmem (by simp [Submission.event])⟩
  | @returned st f stack hstack =>
    refine ⟨h.lt, fun g hg => h.ret g (hstack ▸ List.mem_cons_of_mem f hg), fun ret hmem => ?_⟩
    rcases List.mem_append.mp hmem with hmem | hmem
    · exact h.returned ret hmem
    · obtain ⟨-, rfl⟩ : c = w.call f.data ∧ ret = f.ret := by simpa using hmem
      exact h.ret f (by simp [hstack])

lemma Over.step (h : Over c tr w) (hv : Valid w l) (heff : Effect w l w' l' es) :
    Over c (tr ++ es) w' := by
  have hlt := h.lt.trans (Nat.lt_succ_self _)
  -- none of the events is about `c`
  have hkeep : ∀ {w' es}, c < w'.calls → (∀ f ∈ w'.stack, w'.call f.data ≠ c) →
      (∀ ret, .returned c ret ∉ es) → ¬ Submitted es c → Over c (tr ++ es) w' := by
    intro w' es hlt hstack hret hsub
    refine ⟨hlt, hstack, fun ret hmem => ?_, ?_⟩
    · exact (List.mem_append.mp hmem).elim (h.returned ret) (hret ret)
    · rintro ⟨sent, ret, hmem⟩
      rcases List.mem_append.mp hmem with hmem | hmem
      · exact h.submitted ⟨sent, ret, hmem⟩
      · exact hsub ⟨sent, ret, hmem⟩
  have hself : w.calls ≠ c := h.lt.ne'
  cases heff with
  | idle => simpa using h
  | noMemory => exact hkeep hlt h.stack (by simp [h.lt.ne]) (by simp [Submitted])
  | refused hl hnew =>
    exact hkeep hlt (forall_numbered (P := fun _ i => i ≠ c) _ hnew h.stack) (by simp [h.lt.ne])
      (by simp [Submitted, h.lt.ne])
  | accepted hl hnew =>
    exact hkeep hlt (forall_waits (P := fun _ i => i ≠ c) _ hnew hself h.stack) (by simp)
      (by simp [Submitted, h.lt.ne])
  | queued hl hnew =>
    exact hkeep hlt (forall_waits (P := fun _ i => i ≠ c) _ hnew hself h.stack) (by simp)
      (by simp [Submitted])
  | @upcall st x rest accepts log hl hlog =>
    refine hkeep h.lt h.stack (by simp [Submission.event]) ?_
    rintro ⟨sent, ret, hmem⟩
    obtain ⟨sub, hin, heq⟩ := List.mem_map.mp hmem
    have hoffered : sub.entry ∈ Serial.offered accepts rest := hlog ▸ List.mem_map_of_mem hin
    have hsub : sub.entry ∈ l :=
      hl ▸ List.mem_cons_of_mem x (Serial.mem_of_mem_offered accepts rest hoffered)
    obtain ⟨f, hf, hdata⟩ := List.mem_map.mp (hv.mem_stack hsub)
    have hcall : w.call sub.entry = c := (Event.submitted.inj heq).1
    exact h.stack f hf (hdata ▸ hcall)
  | @returned st f stack hstack =>
    have hne := h.stack f (by simp [hstack])
    refine hkeep h.lt (fun g hg => h.stack g (hstack ▸ List.mem_cons_of_mem f hg)) ?_
      (by simp [Submitted])
    simp [hne.symm]

lemma run_waits (hv : Valid w l) (h : Waits c [] w) (hrun : Run (Guarded Step Fresh) w tr w') :
    Waits c tr w' := by
  obtain ⟨-, -, hwaits⟩ := run_keeps (P := fun tr w _ => Waits c tr w)
    (fun _ _ _ _ _ _ _ hw heff => hw.step heff) hv h hrun
  exact hwaits

lemma run_over (hv : Valid w l) (h : Over c [] w) (hrun : Run (Guarded Step Fresh) w tr w') :
    Over c tr w' := by
  obtain ⟨-, -, hover⟩ := run_keeps (P := fun tr w _ => Over c tr w)
    (fun _ _ _ _ _ _ hv hw heff => hw.step hv heff) hv h hrun
  exact hover

/-- The number of the next call is new. -/
lemma InOrder.not_submitted (ho : InOrder tr w l) : ¬ Submitted tr w.calls := by
  rintro ⟨sent, r, hmem⟩
  have hin : w.calls ∈ submitted tr := List.mem_filterMap.mpr ⟨_, hmem, rfl⟩
  exact (ho.lt _ (ho.order ▸ List.mem_append_left _ hin)).false

lemma step_putnstr_calls {alloc : Allocation} {ans : Answers} {str : ℕ → U8} {len : U32}
    (h : Step w (.putnstr alloc ans str len) w' es) : w'.calls = w.calls + 1 := by
  obtain ⟨fuel, h⟩ := h
  rw [step] at h
  cases hput : Console.putnstr alloc ans str len w.st with
  | error e => simp [hput, Except.map] at h
  | ok r =>
    rw [hput, Except.map, Except.ok.injEq] at h
    exact (congrArg (fun r => r.1.calls) h).symm

/-- In every run, whatever the kernel refuses, a call of `putnstr` that returns has success as its
result if and only if `putnstr_async` was accepted for its own buffer, or the call had been queued
behind another one and `putstr_upcall` dropped it when `putnstr_async` was refused. -/
theorem putnstr_reports {alloc : Allocation} {ans : Answers} {str : ℕ → U8} {len : U32} {ret : ℤ}
    (h0 : Initial w₀) (hrun : Run (Guarded Step Fresh) w₀ tr w)
    (hcall : Guarded Step Fresh w (.putnstr alloc ans str len) w₁ es)
    (hrun' : Run (Guarded Step Fresh) w₁ tr' w₂) (hret : .returned w.calls ret ∈ es ++ tr') :
    ret = returncodeSuccess ↔
      (∃ sent r, .submitted w.calls sent r ∈ es ++ tr' ∧ 0 ≤ r) ∨
        w.st.putstrTail ≠ none ∧ ∃ sent r, .submitted w.calls sent r ∈ tr' ∧ r < 0 := by
  obtain ⟨l, hv, ho, hr⟩ := run_reports h0 hrun
  obtain ⟨_, -, -, hr₂⟩ := run_reports h0 ((hrun.snoc _ hcall).trans hrun')
  have hcalls := step_putnstr_calls hcall.2
  obtain ⟨w', es', l', hsteps, hv', heff⟩ := hv.step hcall.1
  obtain ⟨rfl, rfl⟩ := hsteps.unique hcall.2
  have hlt : w.calls < w₁.calls := by omega
  cases heff with
  | idle => exact absurd hcalls (Nat.lt_succ_self _).ne
  | upcall => exact absurd hcalls (Nat.lt_succ_self _).ne
  | returned => exact absurd hcalls (Nat.lt_succ_self _).ne
  | noMemory =>
    have hover : Over w.calls tr' w₂ :=
      run_over hv' ⟨hlt, fun f hf => (hr.lt f hf).ne, by simp, by simp [Submitted]⟩ hrun'
    obtain rfl : ret = returncodeENomem := by simpa [hover.returned] using hret
    simp [hover.not_mem, returncodeSuccess, returncodeENomem]
  | @refused st str n data r hl hnew hr₀ =>
    have hover : Over w.calls tr' w₂ := by
      refine run_over hv' ⟨hlt, fun f hf => ?_, by simp, by simp [Submitted]⟩ hrun'
      rw [call_numbered hnew hf]
      exact (hr.lt f hf).ne
    have htail : w.st.putstrTail = none := by rw [hv.writing.tail, hl, lastOr]
    obtain rfl : ret = r := by simpa [hover.returned] using hret
    have hsuccess : ret ≠ returncodeSuccess := hr₀.ne
    simpa [hover.not_mem, htail, hsuccess] using hr₀
  | @accepted st str n data =>
    have hwaits : Waits w.calls tr' w₂ :=
      run_waits hv' ⟨hlt, by simpa [waits] using hr.ret, by simp⟩ hrun'
    refine iff_of_true (hwaits.returned ret (by simpa using hret)) (.inl ?_)
    exact ⟨some (strncpy str n), returncodeSuccess, by simp, le_rfl⟩
  | @queued st str n data hl =>
    have hwaits : Waits w.calls tr' w₂ :=
      run_waits hv' ⟨hlt, by simpa [waits] using hr.ret, by simp⟩ hrun'
    have hin : .returned w.calls ret ∈ tr' := by simpa using hret
    obtain rfl := hwaits.returned ret hin
    obtain ⟨sent, r, hmem⟩ := hr₂.returned w.calls (List.mem_append_right _ hin)
    have hmem' : .submitted w.calls sent r ∈ tr' := by
      rcases List.mem_append.mp hmem with hmem | hmem
      · exact absurd ⟨sent, r, by simpa using hmem⟩ ho.not_submitted
      · exact hmem
    have htail : w.st.putstrTail ≠ none := by
      rw [hv.writing.tail]
      exact mt lastOr_none_eq_none_iff.mp hl
    refine iff_of_true rfl ?_
    rcases lt_or_ge r 0 with hneg | hpos
    · exact .inr ⟨htail, sent, r, hmem', hneg⟩
    · exact .inl ⟨sent, r, List.mem_append_right _ hmem', hpos⟩

/-- A queued call returns success although its buffer is refused. -/
theorem putnstr_reports_dropped :
    ∃ tr w w₁ w₂ es tr' ans, Run (Guarded Step Fresh) boot tr w ∧
      Guarded Step Fresh w (.putnstr ⟨some 2, some 20⟩ ans (fun _ => 66) 1) w₁ es ∧
      Run (Guarded Step Fresh) w₁ tr' w₂ ∧ .returned w.calls returncodeSuccess ∈ es ++ tr' ∧
      (returncodeSuccess = returncodeSuccess ↔
        (∃ sent r, .submitted w.calls sent r ∈ es ++ tr' ∧ 0 ≤ r) ∨
          w.st.putstrTail ≠ none ∧ ∃ sent r, .submitted w.calls sent r ∈ tr' ∧ r < 0) := by
  let accepted : Answers := ⟨.ok (), .ok (), .success⟩
  let refused : Answers := ⟨.ok (), .ok (), .failure ⟨.busy, by decide⟩⟩
  let first : Action := .putnstr ⟨some 1, some 10⟩ accepted (fun _ => 65) 1
  let second : Action := .putnstr ⟨some 2, some 20⟩ accepted (fun _ => 66) 1
  let w := ((exec boot [first]).getD (boot, [])).1
  let w₁ := ((exec w [second]).getD (w, [])).1
  have hrun : Run (Guarded Step Fresh) boot
    [.entered 0 [65], .submitted 0 (some [65]) returncodeSuccess] w := run_of_exec [first] rfl
  have hcall : Guarded Step Fresh w second w₁ [.entered 1 [66]] := ⟨by decide, 32, rfl⟩
  have hrun' : Run (Guarded Step Fresh) w₁
      [.submitted 1 (some [66]) (-2), .returned 1 returncodeSuccess] _ := run_of_exec
    [.upcall fun _ => refused, .test] rfl
  exact ⟨_, w, w₁, _, _, _, accepted, hrun, hcall, hrun', by decide,
    putnstr_reports boot_initial hrun hcall hrun' (by decide)⟩

theorem putnstr_reports_not :
    ¬ ∀ tr w, Run (Guarded Step Fresh) boot tr w → ∀ call,
      .returned call returncodeSuccess ∈ tr → ∃ sent r, .submitted call sent r ∈ tr ∧ 0 ≤ r := by
  intro h
  let accepted : Answers := ⟨.ok (), .ok (), .success⟩
  let refused : Answers := ⟨.ok (), .ok (), .failure ⟨.busy, by decide⟩⟩
  have hrun : Run (Guarded Step Fresh) boot
      [.entered 0 [65], .submitted 0 (some [65]) returncodeSuccess, .entered 1 [66],
        .submitted 1 (some [66]) (-2), .returned 1 returncodeSuccess] _ := run_of_exec
    [.putnstr ⟨some 1, some 10⟩ accepted (fun _ => 65) 1,
      .putnstr ⟨some 2, some 20⟩ accepted (fun _ => 66) 1, .upcall fun _ => refused, .test] rfl
  obtain ⟨sent, r, hmem, hr⟩ := h _ _ hrun 1 (by simp)
  obtain ⟨-, rfl⟩ : sent = some [66] ∧ r = -2 := by simpa using hmem
  exact absurd hr (by decide)

end World

end Console
