import Libtock.Console.World

/-!
# Writes are serialized

In every run of nested and overlapping calls of `putnstr`, whichever submissions fail, the list of
entries is a queue in front of the kernel: its entries are allocated, its first entry is the one
that is being written, and entries are submitted in the order of the calls, each once.
-/

namespace Console

open Core Tock

namespace World

structure Valid (w : World) (l : List Ptr) : Prop where
  writing : Writing w.st l
  memory : Memory w.st (w.stack.map Frame.data)
  /-- Nobody waits for an entry that has left the list. -/
  waiting : ∀ f ∈ w.stack, f.data ∈ l ∨ w.st.called f.data = true

/-- What a step that changes the list from `l` to `l'` does to the order. -/
structure Moves (w w' : World) (l l' : List Ptr) (es : List Event) : Prop where
  order : l.tail.map w.call ++ entered es = submitted es ++ l'.tail.map w'.call
  calls : w.calls ≤ w'.calls
  entered : entered es = [] ∨ entered es = [w.calls] ∧ w.calls < w'.calls

/-- A new call, whose entry is `data`; the memory is now `st`. -/
def numbered (w : World) (data : Ptr) (st : State) : World :=
  { w with st, calls := w.calls + 1, call := Function.update w.call data w.calls }

/-- A new call that waits. -/
def waits (w : World) (data : Ptr) (st : State) : World :=
  { w.numbered data st with stack := ⟨data, returncodeSuccess⟩ :: w.stack }

lemma call_waits_self (w : World) (data : Ptr) (st : State) :
    (w.waits data st).call data = w.calls := Function.update_self _ _ _

/-- A new call leaves the numbers of the waiting calls as they are. -/
lemma call_numbered {w : World} {data : Ptr} {st : State} {f : Frame}
    (hnew : data ∉ w.stack.map Frame.data) (hf : f ∈ w.stack) :
    (w.numbered data st).call f.data = w.call f.data :=
  Function.update_of_ne (fun heq : f.data = data => hnew (heq ▸ List.mem_map_of_mem hf)) _ _

section

variable {w : World} {data : Ptr} {P : Ptr → ℕ → Prop}

lemma forall_numbered (st : State) (hnew : data ∉ w.stack.map Frame.data)
    (h : ∀ f ∈ w.stack, P f.data (w.call f.data)) :
    ∀ f ∈ w.stack, P f.data ((w.numbered data st).call f.data) := by
  intro f hf
  rw [call_numbered hnew hf]
  exact h f hf

/-- What holds of the calls that wait and of a new one holds once that one waits too. -/
lemma forall_waits (st : State) (hnew : data ∉ w.stack.map Frame.data) (hself : P data w.calls)
    (h : ∀ f ∈ w.stack, P f.data (w.call f.data)) :
    ∀ f ∈ (w.waits data st).stack, P f.data ((w.waits data st).call f.data) := by
  intro f hf
  rcases List.mem_cons.mp hf with rfl | hf
  · rw [call_waits_self]
    exact hself
  · exact forall_numbered st hnew h f hf

end

/-- What a step does to the calls and to the list `l`, and what it reports. -/
inductive Effect (w : World) (l : List Ptr) : World → List Ptr → List Event → Prop
  | idle : Effect w l w l []
  | noMemory : Effect w l { w with calls := w.calls + 1 } l [.returned w.calls returncodeENomem]
  | refused {st : State} {str : ℕ → U8} {n : ℕ} {data : Ptr} {ret : ℤ} (hl : l = [])
      (hnew : data ∉ w.stack.map Frame.data) (hret : ret < 0) :
      Effect w l (w.numbered data st) (Serial.put data false l)
        [.entered w.calls ((List.range n).map str),
          .submitted w.calls (some (strncpy str n)) ret, .returned w.calls ret]
  | accepted {st : State} {str : ℕ → U8} {n : ℕ} {data : Ptr} (hl : l = [])
      (hnew : data ∉ w.stack.map Frame.data) (hcontent : st.content data = some (strncpy str n)) :
      Effect w l (w.waits data st) (Serial.put data true l)
        [.entered w.calls ((List.range n).map str),
          .submitted w.calls (some (strncpy str n)) returncodeSuccess]
  | queued {st : State} {str : ℕ → U8} {n : ℕ} {data : Ptr} (hl : l ≠ [])
      (hnew : data ∉ w.stack.map Frame.data) (hcontent : st.content data = some (strncpy str n))
      (hframe : ∀ p ∈ l, st.content p = w.st.content p) :
      Effect w l (w.waits data st) (l ++ [data]) [.entered w.calls ((List.range n).map str)]
  | upcall {st : State} {x : Ptr} {rest : List Ptr} {accepts : ℕ → Bool} {log : List Submission}
      (hl : l = x :: rest) (hlog : log.map Submission.entry = Serial.offered accepts rest)
      (hbytes : ∀ sub ∈ log, sub.bytes = w.st.content sub.entry)
      (hframe : ∀ p, st.content p = w.st.content p) :
      Effect w l { w with st } (Serial.served accepts rest) (log.map (Submission.event w.call))
  | returned {st : State} {f : Frame} {stack : List Frame} (hstack : w.stack = f :: stack)
      (hf : f.data ∉ l) (hframe : ∀ p ∈ l, st.content p = w.st.content p) :
      Effect w l { w with st, stack } l [.returned (w.call f.data) f.ret]

/-- With enough fuel the step leads to `w'`; with less it may run out of it. -/
def Returns (w : World) (a : Action) (w' : World) (es : List Event) : Prop :=
  ∃ n, ∀ fuel, w.step fuel a = .ok (w', es) ∨ fuel ≤ n ∧ w.step fuel a = .error .outOfFuel

variable {w w' w'' : World} {a : Action} {es es' tr : List Event} {l : List Ptr}

lemma Returns.step (h : Returns w a w' es) : Step w a w' es := by
  obtain ⟨n, hn⟩ := h
  rcases hn (n + 1) with hok | ⟨hle, -⟩
  · exact ⟨n + 1, hok⟩
  · omega

lemma Returns.unique (h : Returns w a w' es) (h' : Step w a w'' es') : w'' = w' ∧ es' = es := by
  obtain ⟨n, hn⟩ := h
  obtain ⟨fuel, hfuel⟩ := h'
  rcases hn fuel with hok | ⟨-, herr⟩
  · rw [hok, Except.ok.injEq, Prod.mk.injEq] at hfuel
    exact ⟨hfuel.1.symm, hfuel.2.symm⟩
  · rw [herr] at hfuel
    cases hfuel

lemma returns_of_eq (h : ∀ fuel, w.step fuel a = .ok (w', es)) : Returns w a w' es :=
  ⟨0, fun fuel => .inl (h fuel)⟩

/-! ### One step -/

/-- An entry in the list belongs to a call that waits. -/
lemma Valid.mem_stack (hv : Valid w l) {p : Ptr} (hp : p ∈ l) : p ∈ w.stack.map Frame.data := by
  obtain ⟨d, hd, -⟩ := hv.writing.waiting p hp
  exact (hv.memory.allocated p).mp (by simp [hd])

lemma Valid.called_eq_false (hv : Valid w l) {p : Ptr} (hp : p ∈ l) : w.st.called p = false := by
  obtain ⟨d, hd, hcalled⟩ := hv.writing.waiting p hp
  simp [State.called, hd, hcalled]

lemma step_upcall {r : Region} {ud : Option Ptr} (hwrites : w.st.writes = [r])
    (hsub : w.st.subscribed = some (.putstrUpcall, ud)) (fuel : ℕ) (ans : ℕ → Answers) :
    w.step fuel (.upcall ans) =
      (putstrUpcall fuel ans { w.st with writes := [] }).map fun r =>
        ({ w with st := r.1 }, r.2.map (Submission.event w.call)) := by
  simp only [step, hwrites, hsub]

lemma Valid.upcall {x : Ptr} (hv : Valid w (x :: l)) (ans : ℕ → Answers) :
    ∃ w' es, Returns w (.upcall ans) w' es ∧
      Valid w' (Serial.served (fun k => (ans k).accept) l) ∧
      Effect w (x :: l) w' (Serial.served (fun k => (ans k).accept) l) es ∧
      ∀ p ∈ x :: Serial.refused (fun k => (ans k).accept) l, w'.st.called p = true := by
  obtain ⟨d, hd, -⟩ := hv.writing.waiting x (by simp)
  have hwrites : w.st.writes = [⟨d.buf, d.len⟩] := by
    simpa [State.region, hd] using hv.writing.writes
  have hq : Queued { w.st with writes := [] } (x :: l) :=
    hv.writing.toQueued.congr (fun _ _ => rfl) rfl rfl
  obtain ⟨s', log, hrun, hw', hlog, hbytes, hwoken⟩ := putstrUpcall_spec hq rfl ans
  have hsub := hv.writing.subscribed (by simp)
  have hcalled : ∀ p ∈ x :: Serial.refused (fun k => (ans k).accept) l, s'.called p = true := by
    intro p hp
    have hpl : p ∈ x :: l := by
      rcases List.mem_cons.mp hp with rfl | hp
      · simp
      · rw [← Serial.refused_append_served (fun k => (ans k).accept) l]
        exact List.mem_cons_of_mem _ (List.mem_append_left _ hp)
    obtain ⟨e, he, -⟩ := hv.writing.waiting p hpl
    simp [State.called, hwoken.nodes, hp, he]
  refine ⟨{ w with st := s' }, log.map (Submission.event w.call), ⟨l.length, ?_⟩,
    ⟨hw', ?_, ?_⟩, .upcall rfl hlog hbytes (?_), hcalled⟩
  · intro fuel
    rw [step_upcall hwrites hsub]
    rcases hrun fuel with hok | ⟨hle, herr⟩
    · exact .inl (by rw [hok]; rfl)
    · exact .inr ⟨hle, by rw [herr]; rfl⟩
  · have hmem : Memory { w.st with writes := [] } (w.stack.map Frame.data) :=
      hv.memory.congr (fun _ => rfl) (fun _ => rfl) rfl
    exact hmem.woken hwoken
  · intro f hf
    by_cases hp : f.data ∈ x :: Serial.refused (fun k => (ans k).accept) l
    · exact .inr (hcalled _ hp)
    · rcases hv.waiting f hf with hfl | hfc
      · left
        rw [← Serial.refused_append_served (fun k => (ans k).accept) l] at hfl
        simp only [List.mem_cons, List.mem_append, not_or] at hfl hp
        tauto
      · right
        rw [State.called, hwoken.nodes, if_neg hp]
        exact hfc
  · intro p
    exact State.content_congr (hwoken.region p) hwoken.bufs

lemma started_events (w : World) (bytes : List U8) (st : State) (data : Ptr)
    (sent : Option (List U8)) (ret : ℤ) (returned : Option ℤ) :
    (w.started bytes st ⟨some data, some ⟨data, sent, ret⟩, returned⟩).2 =
      .entered w.calls bytes :: .submitted w.calls sent ret ::
        returned.toList.map (.returned w.calls) := by
  simp [started, Submission.event]

lemma Valid.putnstr (hv : Valid w l) {alloc : Allocation} (hfresh : alloc.Fresh w.st)
    (ans : Answers) (str : ℕ → U8) (len : U32) :
    ∃ w' es l', Returns w (.putnstr alloc ans str len) w' es ∧ Valid w' l' ∧
      Effect w l w' l' es := by
  obtain ⟨s', r, l', hrun, hentering, hw'⟩ := putnstr_spec hv.writing hfresh ans str len
  have hstep : ∀ fuel, w.step fuel (.putnstr alloc ans str len) =
      .ok (w.started ((List.range len.toNat).map str) s' r) := by
    intro fuel
    simp only [step, hrun]
    rfl
  refine ⟨(w.started ((List.range len.toNat).map str) s' r).1,
    (w.started ((List.range len.toNat).map str) s' r).2, l', returns_of_eq hstep, ?_⟩
  have hnew : ∀ {data}, alloc.data = some data → data ∉ w.stack.map Frame.data :=
    fun hdata => hv.memory.not_mem (hfresh.1 _ hdata)
  -- the calls that wait keep on waiting while a new one joins them
  have hwaits : ∀ {data buf}, alloc.data = some data → alloc.buf = some buf →
      Entered w.st s' data buf (strncpy str len.toNat) → Writing s' (l ++ [data]) →
      Valid (w.waits data s') (l ++ [data]) := by
    intro data buf hdata hbuf hentered hw'
    refine ⟨hw', hv.memory.enter (hfresh.1 data hdata) (hfresh.2 buf hbuf) hentered, ?_⟩
    intro f hf
    rcases List.mem_cons.mp hf with rfl | hf
    · exact .inl (by simp)
    · have hfd : f.data ≠ data := fun hfd => hnew hdata (hfd ▸ List.mem_map_of_mem hf)
      rcases hv.waiting f hf with hfl | hfc
      · exact .inl (List.mem_append_left _ hfl)
      · right
        exact (hentered.called_eq hfd).trans hfc
  cases hentering with
  | noMemory => exact ⟨⟨hw', hv.memory, hv.waiting⟩, .noMemory⟩
  | refused hl hdata hret hnodes hbufs =>
    rw [started_events]
    refine ⟨⟨hw', ?_, ?_⟩, .refused hl (hnew hdata) hret⟩
    · show Memory s' (w.stack.map Frame.data)
      exact hv.memory.congr (fun p => by rw [hnodes]) (fun p => by simp [State.buf, hnodes]) hbufs
    · intro f hf
      subst hl
      rcases hv.waiting f hf with hfl | hfc
      · exact absurd hfl (by simp)
      · right
        simpa [started, State.called, hnodes] using hfc
  | accepted hl hdata hbuf hentered hcontent =>
    rw [started_events]
    refine ⟨?_, .accepted hl (hnew hdata) hcontent⟩
    rw [Serial.put_eq_append _ _ (.inr rfl)] at hw' ⊢
    exact hwaits hdata hbuf hentered hw'
  | queued hl hdata hbuf hentered hcontent =>
    refine ⟨hwaits hdata hbuf hentered hw', .queued hl (hnew hdata) hcontent (?_)⟩
    intro p hp
    have hmem := hv.mem_stack hp
    exact hentered.content_eq hv.memory (hfresh.2 _ hbuf) (fun hpd => hnew hdata (hpd ▸ hmem)) hmem

lemma Valid.test (hv : Valid w l) :
    ∃ w' es, Returns w .test w' es ∧ Valid w' l ∧ Effect w l w' l es := by
  cases hstack : w.stack with
  | nil =>
    exact ⟨w, [], returns_of_eq fun fuel => by simp [step, hstack], hv, .idle⟩
  | cons f stack =>
    have hf : f.data ∈ w.stack.map Frame.data := by simp [hstack]
    obtain ⟨d, b, hd, -⟩ := hv.memory.nodes hf
    have hload := State.load_of_nodes hd
    cases hcalled : d.called with
    | false =>
      refine ⟨w, [], returns_of_eq ?_, hv, .idle⟩
      intro fuel
      simp only [step, hstack, hload]
      show (if d.called = true then _ else _) = _
      rw [hcalled]
      rfl
    | true =>
      have hmem : Memory w.st (f.data :: stack.map Frame.data) := by
        have := hv.memory
        rwa [hstack] at this
      obtain ⟨s', hend, hmem', hnodes, hhead, htail, hsub, hwrites, hcontent⟩ :=
        putnstrEnd_spec hmem
      have hfl : f.data ∉ l := by
        intro hfl
        have := hv.called_eq_false hfl
        simp [State.called, hd, hcalled] at this
      have hne : ∀ p ∈ l, p ≠ f.data := fun p hp hpf => hfl (hpf ▸ hp)
      have hold : ∀ p, p ≠ f.data → s'.nodes p = w.st.nodes p := by
        intro p hp
        rw [hnodes, Function.update_of_ne hp]
      refine ⟨{ w with st := s', stack }, [.returned (w.call f.data) f.ret],
        returns_of_eq ?_, ⟨⟨?_, ?_, ?_⟩, hmem', ?_⟩, .returned hstack hfl (?_)⟩
      · intro fuel
        simp only [step, hstack, hload]
        show (if d.called = true then _ else _) = _
        rw [hcalled, if_pos rfl, hend]
        rfl
      · exact hv.writing.toQueued.congr (fun p hp => hold p (hne p hp)) hhead htail
      · rw [hwrites, hv.writing.writes]
        cases l with
        | nil => rfl
        | cons x l => simp [State.region, hold x (hne x (by simp))]
      · rw [hsub]
        exact hv.writing.subscribed
      · intro g hg
        have hgf : g.data ≠ f.data := fun hgf =>
          (List.nodup_cons.mp hmem.nodup).1 (hgf ▸ List.mem_map_of_mem hg)
        rcases hv.waiting g (by simp [hstack, hg]) with hgl | hgc
        · exact .inl hgl
        · right
          rw [State.called, hold g.data hgf]
          exact hgc
      · intro p hp
        have hpf := hv.mem_stack hp
        rw [hstack, List.map_cons, List.mem_cons] at hpf
        exact hcontent p (hpf.resolve_left (hne p hp))

/-- Every step returns. -/
lemma Valid.step (hv : Valid w l) (hfresh : w.Fresh a) :
    ∃ w' es l', Returns w a w' es ∧ Valid w' l' ∧ Effect w l w' l' es := by
  cases a with
  | putnstr alloc ans str len => exact hv.putnstr hfresh ans str len
  | upcall ans =>
    cases l with
    | nil =>
      have hwrites : w.st.writes = [] := hv.writing.writes
      exact ⟨w, [], [], returns_of_eq fun fuel => by simp [World.step, hwrites], hv, .idle⟩
    | cons x l =>
      obtain ⟨w', es, hret, hv', heff, -⟩ := hv.upcall ans
      exact ⟨w', es, _, hret, hv', heff⟩
  | test =>
    obtain ⟨w', es, hret, hv', heff⟩ := hv.test
    exact ⟨w', es, l, hret, hv', heff⟩

/-- The order, whichever way a call with an entry took. -/
lemma moves_numbered {w' : World} {l l' : List Ptr} {data : Ptr} (subs : List Ptr)
    (horder : subs ++ l'.tail = l.tail ++ [data]) (hl : data ∉ l) (hcalls : w'.calls = w.calls + 1)
    (hcall : w'.call = Function.update w.call data w.calls) (hentered : entered es = [w.calls])
    (hsubmitted : submitted es = subs.map w'.call) : Moves w w' l l' es where
  order := by
    have hold : l.tail.map w.call = l.tail.map w'.call := by
      refine List.map_congr_left fun p hp => ?_
      have hpd : p ≠ data := fun hpd => hl (hpd ▸ List.mem_of_mem_tail hp)
      rw [hcall, Function.update_of_ne hpd]
    have hdata : [w.calls] = [data].map w'.call := by simp [hcall]
    rw [hentered, hsubmitted, hold, hdata, ← List.map_append, ← List.map_append, horder]
  calls := hcalls ▸ Nat.le_succ _
  entered := .inr ⟨hentered, hcalls ▸ Nat.lt_succ_self _⟩

/-- Every step keeps the list in order. -/
lemma Effect.moves {l' : List Ptr} (h : Effect w l w' l' es) (hv : Valid w l) :
    Moves w w' l l' es := by
  cases h with
  | idle => exact ⟨by simp [entered, submitted], le_rfl, .inl rfl⟩
  | noMemory => exact ⟨by simp [entered, submitted], Nat.le_succ _, .inl rfl⟩
  | @refused st str n data ret hl hnew hret =>
    refine moves_numbered _ (Serial.putOffered_append_tail data l false)
      (fun h => hnew (hv.mem_stack h)) rfl rfl rfl ?_
    simp [hl, Serial.putOffered, submitted, numbered]
  | @accepted st str n data hl hnew =>
    refine moves_numbered _ (Serial.putOffered_append_tail data l true)
      (fun h => hnew (hv.mem_stack h)) rfl rfl rfl ?_
    simp [hl, Serial.putOffered, submitted, waits, numbered]
  | @queued st str n data hl hnew =>
    refine moves_numbered [] (?_) (fun h => hnew (hv.mem_stack h)) rfl rfl rfl rfl
    rw [List.nil_append, List.tail_append_of_ne_nil hl]
  | @upcall st x rest accepts log hl hlog =>
    refine ⟨?_, le_rfl, .inl (entered_log _ _)⟩
    have htail := Serial.offered_append_tail accepts rest
    simp only [hl, List.tail_cons, entered_log, List.append_nil, submitted_log, hlog]
    rw [← List.map_append, htail]
  | returned => exact ⟨by simp [entered, submitted], le_rfl, .inl rfl⟩

/-! ### All runs -/

/-- The calls so far, in the order in which they were made: first those whose entry was submitted,
then those whose entry waits behind the first one of the list. -/
structure InOrder (tr : List Event) (w : World) (l : List Ptr) : Prop where
  order : entered tr = submitted tr ++ l.tail.map w.call
  lt : ∀ i ∈ entered tr, i < w.calls
  increasing : (entered tr).Pairwise (· < ·)

lemma InOrder.step {l' : List Ptr} (h : InOrder tr w l) (hm : Moves w w' l l' es) :
    InOrder (tr ++ es) w' l' where
  order := by
    rw [entered_append, submitted_append, h.order, List.append_assoc, hm.order,
      List.append_assoc]
  lt := by
    intro i hi
    rw [entered_append, List.mem_append] at hi
    rcases hi with hi | hi
    · exact (h.lt i hi).trans_le hm.calls
    · rcases hm.entered with hnone | ⟨hone, hlt⟩
      · simp [hnone] at hi
      · obtain rfl : i = w.calls := by simpa [hone] using hi
        exact hlt
  increasing := by
    rw [entered_append]
    rcases hm.entered with hnone | ⟨hone, -⟩
    · simpa [hnone] using h.increasing
    · rw [hone, List.pairwise_append]
      exact ⟨h.increasing, List.pairwise_singleton _ _, fun i hi j hj => by
        obtain rfl : j = w.calls := by simpa using hj
        exact h.lt i hi⟩

lemma Initial.valid {w : World} (h : Initial w) : Valid w [] ∧ InOrder [] w [] := by
  refine ⟨⟨⟨⟨h.head, h.tail, by simp⟩, h.writes, by simp⟩, ?_, by simp [h.stack]⟩,
    ⟨rfl, by simp [entered], List.Pairwise.nil⟩⟩
  rw [h.stack]
  exact ⟨List.nodup_nil, fun p => by simp [h.nodes], by simp, by simp⟩

/-- What every effect keeps, a run keeps. -/
lemma run_keeps {P : List Event → World → List Ptr → Prop} {w₀ : World} {l₀ : List Ptr}
    (hkeep : ∀ tr w l w' l' es, Valid w l → P tr w l → Effect w l w' l' es → P (tr ++ es) w' l')
    (hv₀ : Valid w₀ l₀) (h₀ : P [] w₀ l₀) (hrun : Run (Guarded Step Fresh) w₀ tr w) :
    ∃ l, Valid w l ∧ P tr w l := by
  refine hrun.trace_invariant (fun tr w => ∃ l, Valid w l ∧ P tr w l) ?_ ⟨l₀, hv₀, h₀⟩
  rintro tr w a w' es ⟨l, hv, hP⟩ ⟨hfresh, hstep⟩
  obtain ⟨w'', es', l', hret, hv', heff⟩ := hv.step hfresh
  obtain ⟨rfl, rfl⟩ := hret.unique hstep
  exact ⟨l', hv', hkeep tr w l _ l' _ hv hP heff⟩

lemma run_valid {w₀ : World} (h0 : Initial w₀) (hrun : Run (Guarded Step Fresh) w₀ tr w) :
    ∃ l, Valid w l ∧ InOrder tr w l :=
  run_keeps (fun _ _ _ _ _ _ hv ho heff => ho.step (heff.moves hv)) h0.valid.1 h0.valid.2 hrun

/-- The list from `putstr_head` is `l`, and writes are serialized. -/
structure Serialized (tr : List Event) (w : World) (l : List Ptr) : Prop where
  head_iff_tail : w.st.putstrHead = none ↔ w.st.putstrTail = none
  chain : IsChain w.st.next w.st.putstrHead l
  tail : w.st.putstrTail = l.getLast?
  /-- No entry of the list has been freed, and neither has its buffer. -/
  allocated : ∀ p ∈ l, ∃ d b, w.st.nodes p = some d ∧ d.buf = some b ∧ (w.st.bufs b).isSome
  /-- The kernel has the write of the first entry to answer, and no other. -/
  outstanding : w.st.writes = (l.head?.bind w.st.region).toList
  /-- Every call that has not returned has its entry in the list or is woken. -/
  waiting : ∀ f ∈ w.stack, f.data ∈ l ∨ w.st.called f.data = true
  order : entered tr = submitted tr ++ l.tail.map w.call
  increasing : (entered tr).Pairwise (· < ·)

lemma Valid.serialized (hv : Valid w l) (ho : InOrder tr w l) : Serialized tr w l where
  head_iff_tail := by
    rw [hv.writing.head_eq, hv.writing.tail, lastOr_none_eq_none_iff, List.head?_eq_none_iff]
  chain := hv.writing.chain
  tail := hv.writing.tail.trans (lastOr_none_eq_getLast? l)
  allocated := fun _ hp => hv.memory.nodes (hv.mem_stack hp)
  outstanding := hv.writing.writes
  waiting := hv.waiting
  order := ho.order
  increasing := ho.increasing

/-- In every run writes are serialized; every step returns without a fault, whatever the kernel
answers; and an upcall wakes the calls of all the entries it takes out of the list. -/
theorem console_writes_serialized {w₀ : World} (h0 : Initial w₀)
    (hrun : Run (Guarded Step Fresh) w₀ tr w) :
    ∃ l, Serialized tr w l ∧ (∀ a, w.Fresh a → ∃ w' es, Step w a w' es) ∧
      ∀ ans w' es, l ≠ [] → Step w (.upcall ans) w' es →
        ∃ dropped l', l = dropped ++ l' ∧ dropped ≠ [] ∧ Serialized (tr ++ es) w' l' ∧
          ∀ p ∈ dropped, w'.st.called p = true := by
  obtain ⟨l, hv, ho⟩ := run_valid h0 hrun
  refine ⟨l, hv.serialized ho, ?_, ?_⟩
  · intro a hfresh
    obtain ⟨w', es, _, hret, -⟩ := hv.step hfresh
    exact ⟨w', es, hret.step⟩
  · intro ans w' es hl hstep
    cases l with
    | nil => exact absurd rfl hl
    | cons x l =>
      obtain ⟨w'', es', hret, hv', heff, hcalled⟩ := hv.upcall ans
      obtain ⟨rfl, rfl⟩ := hret.unique hstep
      refine ⟨x :: Serial.refused (fun k => (ans k).accept) l, _, ?_, by simp,
        hv'.serialized (ho.step (heff.moves hv)), hcalled⟩
      rw [List.cons_append, Serial.refused_append_served]

/-- Three overlapping calls, of which the second is dropped when its turn comes. -/
theorem console_writes_serialized_dropped :
    ∃ w tr l, Run (Guarded Step Fresh) boot tr w ∧ w.stack.length = 3 ∧
      submitted tr = [0, 1, 2] ∧ Serialized tr w l := by
  let accepted : Answers := ⟨.ok (), .ok (), .success⟩
  let refused : Answers := ⟨.ok (), .ok (), .failure ⟨.busy, by decide⟩⟩
  have hrun : Run (Guarded Step Fresh) boot _ _ := run_of_exec
    [.putnstr ⟨some 1, some 10⟩ accepted (fun _ => 65) 1,
      .putnstr ⟨some 2, some 20⟩ accepted (fun _ => 66) 1,
      .putnstr ⟨some 3, some 30⟩ accepted (fun _ => 67) 1,
      .upcall fun k => if k = 0 then refused else accepted] rfl
  obtain ⟨l, hl, -⟩ := console_writes_serialized boot_initial hrun
  exact ⟨_, _, l, hrun, rfl, by decide, hl⟩

end World

end Console
