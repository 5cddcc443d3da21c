import Libtock.Console.Serialized

/-!
# The bytes that are written

`putnstr` copies its bytes with `strncpy`. The copy stays as it is while the entry waits, so it is
what the console driver gets; but `strncpy` stops at a zero byte. The driver gets the bytes of the
call if and only if nothing but zeros follows a zero byte.
-/

namespace Console

open Core Tock

/-- `_write` of `sys.c` up to the `yield_for` of its `putnstr`, whose result it drops. -/
def write (alloc : Allocation) (ans : Answers) (_fd : ℤ) (buf : ℕ → U8) (count : U32) (s : State) :
    Result (State × Started) := do
  let (s, r) ← putnstr alloc ans buf count s
  .ok (s, { r with returned := r.returned.map fun _ => count.toInt })

/-- Nothing but zeros follows a zero byte. -/
def ZeroTailed (bytes : List U8) : Prop := bytes.Pairwise fun a b => a = 0 → b = 0

instance (bytes : List U8) : Decidable (ZeroTailed bytes) :=
  inferInstanceAs (Decidable (bytes.Pairwise fun a b => a = 0 → b = 0))

/-! ### The copy -/

lemma zeroTailed_zero_cons {bytes : List U8} :
    ZeroTailed (0 :: bytes) ↔ ∀ b ∈ bytes, b = 0 := by
  rw [ZeroTailed, List.pairwise_cons]
  constructor
  · rintro ⟨hzero, -⟩ b hb
    exact hzero b hb rfl
  · intro hzero
    exact ⟨fun b hb _ => hzero b hb,
      List.pairwise_of_forall_mem_list fun _ _ b hb _ => hzero b hb⟩

lemma zeroTailed_cons {a : U8} (ha : a ≠ 0) {bytes : List U8} :
    ZeroTailed (a :: bytes) ↔ ZeroTailed bytes :=
  List.pairwise_cons.trans (and_iff_right fun _ _ hzero => absurd hzero ha)

/-- The copy is exact if and only if nothing but zeros follows a zero byte. -/
lemma strncpy_eq_iff (str : ℕ → U8) (n : ℕ) :
    strncpy str n = (List.range n).map str ↔ ZeroTailed ((List.range n).map str) := by
  induction n generalizing str with
  | zero => simp [strncpy, ZeroTailed]
  | succ n ih =>
    have hmap : (List.range (n + 1)).map str =
        str 0 :: (List.range n).map fun i => str (i + 1) := by
      rw [List.range_succ_eq_map, List.map_cons, List.map_map]
      rfl
    rw [hmap, strncpy]
    split_ifs with hzero
    · rw [hzero, zeroTailed_zero_cons, List.replicate_succ, List.cons.injEq,
        eq_comm (a := List.replicate n 0), List.eq_replicate_iff]
      simp
    · rw [zeroTailed_cons hzero, List.cons.injEq, ih]
      simp

namespace World

variable {w w₀ w' : World} {l l' : List Ptr} {tr es : List Event}

/-- `call` was made for `bytes`, of which `sent` is the copy. -/
def Copy (tr : List Event) (call : ℕ) (sent : Option (List U8)) : Prop :=
  ∃ str n, .entered call ((List.range n).map str) ∈ tr ∧ sent = some (strncpy str n)

lemma Copy.append {call : ℕ} {sent : Option (List U8)} (h : Copy tr call sent)
    (es : List Event) : Copy (tr ++ es) call sent := by
  obtain ⟨str, n, hmem, hsent⟩ := h
  exact ⟨str, n, List.mem_append_left _ hmem, hsent⟩

/-- Entries hold, and the driver gets, copies of what their calls were made for. -/
structure Copied (tr : List Event) (w : World) (l : List Ptr) : Prop where
  waiting : ∀ p ∈ l, Copy tr (w.call p) (w.st.content p)
  submitted : ∀ call sent ret, .submitted call sent ret ∈ tr → Copy tr call sent

/-- An entry keeps the copy of its call while the others are numbered. -/
lemma Copied.numbered {data : Ptr} (h : Copied tr w l) (hcall : data ∉ l)
    (hw' : w'.call = Function.update w.call data w.calls)
    (hframe : ∀ p ∈ l, w'.st.content p = w.st.content p) (es : List Event) :
    ∀ p ∈ l, Copy (tr ++ es) (w'.call p) (w'.st.content p) := by
  intro p hp
  have hpd : p ≠ data := fun hpd => hcall (hpd ▸ hp)
  rw [hw', Function.update_of_ne hpd, hframe p hp]
  exact (h.waiting p hp).append es

lemma Copied.step (h : Copied tr w l) (hv : Valid w l) (heff : Effect w l w' l' es) :
    Copied (tr ++ es) w' l' := by
  have hold : ∀ call sent ret, .submitted call sent ret ∈ tr → Copy (tr ++ es) call sent :=
    fun call sent ret hmem => (h.submitted call sent ret hmem).append es
  -- a new submission is of the call that has just copied its bytes
  have hcopy : ∀ {str n es'}, es = .entered w.calls ((List.range n).map str) :: es' →
      Copy (tr ++ es) w.calls (some (strncpy str n)) := by
    rintro str n es' rfl
    exact ⟨str, n, by simp, rfl⟩
  cases heff with
  | idle => simpa using h
  | noMemory =>
    refine ⟨fun p hp => (h.waiting p hp).append _, fun call sent ret hmem => ?_⟩
    exact hold call sent ret (by simpa using hmem)
  | @refused st str n data ret hl hnew =>
    refine ⟨by simp [hl, Serial.put], fun call sent ret hmem => ?_⟩
    rcases List.mem_append.mp hmem with hmem | hmem
    · exact hold call sent ret hmem
    · obtain ⟨rfl, rfl, -⟩ : call = w.calls ∧ sent = _ ∧ ret = _ := by simpa using hmem
      exact hcopy rfl
  | @accepted st str n data hl hnew hcontent =>
    refine ⟨?_, fun call sent ret hmem => ?_⟩
    · intro p hp
      obtain rfl : p = data := by simpa [hl, Serial.put] using hp
      rw [call_waits_self]
      exact hcontent ▸ hcopy rfl
    · rcases List.mem_append.mp hmem with hmem | hmem
      · exact hold call sent ret hmem
      · obtain ⟨rfl, rfl, -⟩ : call = w.calls ∧ sent = _ ∧ ret = _ := by simpa using hmem
        exact hcopy rfl
  | @queued st str n data hl hnew hcontent hframe =>
    refine ⟨?_, fun call sent ret hmem => hold call sent ret (by simpa using hmem)⟩
    intro p hp
    rcases List.mem_append.mp hp with hp | hp
    · have hwaits : (w.waits data st).call = Function.update w.call data w.calls := rfl
      exact h.numbered (fun hd => hnew (hv.mem_stack hd)) hwaits hframe _ p hp
    · obtain rfl : p = data := by simpa using hp
      rw [call_waits_self]
      exact hcontent ▸ hcopy rfl
  | @upcall st x rest accepts log hl hlog hbytes hframe =>
    have hmem : ∀ p ∈ rest, p ∈ l := fun p hp => hl ▸ List.mem_cons_of_mem x hp
    refine ⟨?_, fun call sent ret hsub => ?_⟩
    · intro p hp
      have hp : p ∈ rest := Serial.mem_of_mem_served accepts rest hp
      show Copy _ _ (st.content p)
      rw [hframe]
      exact (h.waiting p (hmem p hp)).append _
    · rcases List.mem_append.mp hsub with hsub | hsub
      · exact hold call sent ret hsub
      · obtain ⟨sub, hin, heq⟩ := List.mem_map.mp hsub
        obtain ⟨rfl, rfl, -⟩ : w.call sub.entry = call ∧ sub.bytes = sent ∧ sub.ret = ret := by
          simpa [Submission.event] using heq
        have hoffered : sub.entry ∈ Serial.offered accepts rest :=
          hlog ▸ List.mem_map_of_mem hin
        have hrest : sub.entry ∈ rest := Serial.mem_of_mem_offered accepts rest hoffered
        rw [hbytes sub hin]
        exact (h.waiting _ (hmem _ hrest)).append _
  | returned hstack hf hframe =>
    refine ⟨fun p hp => ?_, fun call sent ret hmem => hold call sent ret (by simpa using hmem)⟩
    show Copy _ _ (State.content _ p)
    rw [hframe p hp]
    exact (h.waiting p hp).append _

lemma run_copied (h0 : Initial w₀) (hrun : Run (Guarded Step Fresh) w₀ tr w) :
    ∃ l, Valid w l ∧ InOrder tr w l ∧ Copied tr w l := by
  have hkeep : ∀ tr w l w' l' es, Valid w l → InOrder tr w l ∧ Copied tr w l →
      Effect w l w' l' es → InOrder (tr ++ es) w' l' ∧ Copied (tr ++ es) w' l' :=
    fun _ _ _ _ _ _ hv h heff => ⟨h.1.step (heff.moves hv), h.2.step hv heff⟩
  exact run_keeps hkeep h0.valid.1 ⟨h0.valid.2, by simp, by simp⟩ hrun

/-- In every run, whenever the entry of a call is submitted, at once or later, the driver gets
exactly the bytes of the call if and only if nothing but zeros follows a zero byte in them; and
`_write` submits what `putnstr` does. -/
theorem putnstr_submits_exactly {call : ℕ} {bytes : List U8} {sent : Option (List U8)} {ret : ℤ}
    (h0 : Initial w₀) (hrun : Run (Guarded Step Fresh) w₀ tr w)
    (hentered : .entered call bytes ∈ tr) (hsubmitted : .submitted call sent ret ∈ tr) :
    (sent = some bytes ↔ ZeroTailed bytes) ∧
      ∀ alloc ans fd buf count s,
        (write alloc ans fd buf count s).map (fun r => (r.1, r.2.entry, r.2.submission)) =
          (Console.putnstr alloc ans buf count s).map fun r => (r.1, r.2.entry, r.2.submission) := by
  constructor
  · obtain ⟨l, hv, ho, hc⟩ := run_copied h0 hrun
    obtain ⟨str, n, hmem, rfl⟩ := hc.submitted call sent ret hsubmitted
    obtain rfl : bytes = (List.range n).map str := by
      have heq := eq_of_filterMap_nodup ho.increasing.nodup hentered hmem rfl rfl
      exact (Event.entered.inj heq).2
    rw [Option.some.injEq, strncpy_eq_iff]
  · intro alloc ans fd buf count s
    rw [write]
    cases Console.putnstr alloc ans buf count s <;> rfl

/-- A call that waits behind another one, for bytes that end in a zero byte. -/
theorem putnstr_submits_exactly_later :
    ∃ tr w, Run (Guarded Step Fresh) boot tr w ∧
      .submitted 1 (some [66, 0]) returncodeSuccess ∈ tr ∧
      (some [(66 : U8), 0] = some [66, 0] ↔ ZeroTailed [66, 0]) := by
  let accepted : Answers := ⟨.ok (), .ok (), .success⟩
  let tr : List Event :=
    [.entered 0 [65], .submitted 0 (some [65]) returncodeSuccess, .entered 1 [66, 0],
      .submitted 1 (some [66, 0]) returncodeSuccess]
  have hrun : Run (Guarded Step Fresh) boot tr _ := run_of_exec
    [.putnstr ⟨some 1, some 10⟩ accepted (fun _ => 65) 1,
      .putnstr ⟨some 2, some 20⟩ accepted (fun i => if i = 0 then 66 else 0) 2,
      .upcall fun _ => accepted] rfl
  have hentered : .entered 1 [66, 0] ∈ tr := by decide
  have hsubmitted : .submitted 1 (some [66, 0]) returncodeSuccess ∈ tr := by decide
  exact ⟨tr, _, hrun, hsubmitted,
    (putnstr_submits_exactly boot_initial hrun hentered hsubmitted).1⟩

/-- The byte after a zero byte is lost. -/
theorem putnstr_submits_exactly_not :
    ¬ ∀ tr w, Run (Guarded Step Fresh) boot tr w → ∀ call bytes sent ret,
      .entered call bytes ∈ tr → .submitted call sent ret ∈ tr → sent = some bytes := by
  intro h
  have hrun : Run (Guarded Step Fresh) boot
      [.entered 0 [65, 0, 65], .submitted 0 (some [65, 0, 0]) returncodeSuccess] _ := run_of_exec
    [.putnstr ⟨some 1, some 10⟩ ⟨.ok (), .ok (), .success⟩ (fun i => if i = 1 then 0 else 65) 3] rfl
  have heq := h _ _ hrun 0 [65, 0, 65] (some [65, 0, 0]) returncodeSuccess (by simp) (by simp)
  exact absurd heq (by decide)

end World

end Console
