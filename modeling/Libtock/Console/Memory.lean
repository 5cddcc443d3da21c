import Libtock.Console.Queue

/-!
# Entries and the calls that own them

An entry and its buffer belong to the call of `putnstr` that allocated them, which frees them before
it returns: `Memory s ps` says that `ps` are the entries that exist, and that each has a buffer of
its own. With the list of entries this gives what `putnstr` does before and after its `yield_for`.
-/

namespace Console

open Core Tock

/-- The buffer of the entry `p`. -/
def State.buf (s : State) (p : Ptr) : Option Ptr := (s.nodes p).bind PutstrData.buf

structure Memory (s : State) (ps : List Ptr) : Prop where
  nodup : ps.Nodup
  allocated : ∀ p, (s.nodes p).isSome ↔ p ∈ ps
  buf : ∀ p ∈ ps, ∃ b, s.buf p = some b ∧ (s.bufs b).isSome
  inj : ∀ p ∈ ps, ∀ q ∈ ps, s.buf p = s.buf q → p = q

/-- `malloc` only hands out memory that is free. -/
def Allocation.Fresh (alloc : Allocation) (s : State) : Prop :=
  (∀ p ∈ alloc.data, s.nodes p = none) ∧ ∀ b ∈ alloc.buf, s.bufs b = none

instance (alloc : Allocation) (s : State) : Decidable (alloc.Fresh s) :=
  inferInstanceAs (Decidable ((∀ p ∈ alloc.data, s.nodes p = none) ∧
    ∀ b ∈ alloc.buf, s.bufs b = none))

variable {s s' : State} {l ps : List Ptr} {p b : Ptr} {d : PutstrData} {alloc : Allocation}

lemma strncpy_length (str : ℕ → U8) (n : ℕ) : (strncpy str n).length = n := by
  induction n generalizing str with
  | zero => rfl
  | succ n ih =>
    rw [strncpy]
    split_ifs
    · exact List.length_replicate
    · rw [List.length_cons, ih]

/-! ### The memory -/

/-- Only the other fields of the entries have changed. -/
lemma Memory.congr (h : Memory s ps) (hsome : ∀ p, (s'.nodes p).isSome = (s.nodes p).isSome)
    (hbuf : ∀ p, s'.buf p = s.buf p) (hbufs : s'.bufs = s.bufs) : Memory s' ps where
  nodup := h.nodup
  allocated := fun p => by rw [hsome, h.allocated]
  buf := by
    intro p hp
    rw [hbuf, hbufs]
    exact h.buf p hp
  inj := by
    intro p hp q hq heq
    rw [hbuf, hbuf] at heq
    exact h.inj p hp q hq heq

lemma Memory.nodes (h : Memory s ps) (hp : p ∈ ps) :
    ∃ d b, s.nodes p = some d ∧ d.buf = some b ∧ (s.bufs b).isSome := by
  obtain ⟨d, hd⟩ := Option.isSome_iff_exists.mp ((h.allocated p).mpr hp)
  obtain ⟨b, hb, hsome⟩ := h.buf p hp
  exact ⟨d, b, hd, by simpa [State.buf, hd] using hb, hsome⟩

lemma Memory.not_mem (h : Memory s ps) (hp : s.nodes p = none) : p ∉ ps := by
  intro hmem
  simpa [hp] using (h.allocated p).mpr hmem

lemma Memory.woken {qs : List Ptr} (h : Memory s ps) (hwoken : Woken s s' qs) : Memory s' ps := by
  refine h.congr (?_) (?_) hwoken.bufs
  · intro p
    rw [hwoken.nodes]
    split_ifs <;> simp
  · intro p
    rw [State.buf, State.buf, hwoken.nodes]
    split_ifs
    · cases s.nodes p <;> rfl
    · rfl

/-- A new entry `data` with the buffer `buf`, which holds `bytes`. -/
structure Entered (s s' : State) (data buf : Ptr) (bytes : List U8) : Prop where
  entry : ∃ d, s'.nodes data = some d ∧ d.buf = some buf ∧ d.called = false
  /-- Of another entry only `next` may have changed. -/
  nodes : ∀ q ≠ data, ∃ f : Option Ptr → Option Ptr,
    s'.nodes q = (s.nodes q).map fun d => { d with next := f d.next }
  bufs : s'.bufs = Function.update s.bufs buf (some bytes)

section Entered

variable {data buf q : Ptr} {bytes : List U8}

/-- What does not read `next` is as it was in another entry. -/
lemma Entered.frame {β : Type} (h : Entered s s' data buf bytes) (hq : q ≠ data)
    (read : Option PutstrData → β) (hread : ∀ (f : Option Ptr → Option Ptr) d,
      read (d.map fun d => { d with next := f d.next }) = read d) :
    read (s'.nodes q) = read (s.nodes q) := by
  obtain ⟨f, hnext⟩ := h.nodes q hq
  rw [hnext, hread]

lemma Entered.buf_eq (h : Entered s s' data buf bytes) (hq : q ≠ data) : s'.buf q = s.buf q :=
  h.frame hq (fun d => d.bind PutstrData.buf) fun _ d => by cases d <;> rfl

lemma Entered.called_eq (h : Entered s s' data buf bytes) (hq : q ≠ data) :
    s'.called q = s.called q :=
  h.frame hq (fun d => d.any PutstrData.called) fun _ d => by cases d <;> rfl

lemma Entered.region_eq (h : Entered s s' data buf bytes) (hq : q ≠ data) :
    s'.region q = s.region q :=
  h.frame hq (fun d => d.map fun e : PutstrData => Region.mk e.buf e.len)
    fun _ d => by cases d <;> rfl

/-- The buffer of another entry is another buffer. -/
lemma Entered.content_eq (h : Entered s s' data buf bytes) (hm : Memory s ps)
    (hbuf : s.bufs buf = none) (hq : q ≠ data) (hmem : q ∈ ps) :
    s'.content q = s.content q := by
  obtain ⟨d, b, hd, hb, hsome⟩ := hm.nodes hmem
  have hne : b ≠ buf := by
    rintro rfl
    simp [hbuf] at hsome
  rw [State.content, h.region_eq hq]
  simp [State.content, State.region, State.read, hd, hb, h.bufs, hne]

end Entered

lemma Memory.enter {data buf : Ptr} {bytes : List U8} (h : Memory s ps)
    (hdata : s.nodes data = none) (hbuf : s.bufs buf = none) (he : Entered s s' data buf bytes) :
    Memory s' (data :: ps) := by
  obtain ⟨d, hd, hdbuf, -⟩ := he.entry
  have hnew : s'.buf data = some buf := by simp [State.buf, hd, hdbuf]
  have hnot := h.not_mem hdata
  -- the buffers of the other entries are other buffers
  have hold : ∀ q ∈ ps, ∃ b, s'.buf q = some b ∧ b ≠ buf ∧ (s.bufs b).isSome := by
    intro q hq
    obtain ⟨b, hb, hsome⟩ := h.buf q hq
    refine ⟨b, ?_, fun hbb => by simp [hbb, hbuf] at hsome, hsome⟩
    rw [he.buf_eq fun hqd => hnot (hqd ▸ hq), hb]
  refine ⟨List.nodup_cons.mpr ⟨hnot, h.nodup⟩, ?_, ?_, ?_⟩
  · intro q
    by_cases hq : q = data
    · simp [hq, hd]
    · obtain ⟨_, hnext⟩ := he.nodes q hq
      rw [hnext, Option.isSome_map, h.allocated]
      simp [hq]
  · intro q hq
    rcases List.mem_cons.mp hq with rfl | hq
    · exact ⟨buf, hnew, by simp [he.bufs]⟩
    · obtain ⟨b, hb, hne, hsome⟩ := hold q hq
      exact ⟨b, hb, by simpa [he.bufs, hne] using hsome⟩
  · intro p hp q hq heq
    rcases List.mem_cons.mp hp with rfl | hp
    · rcases List.mem_cons.mp hq with rfl | hq
      · rfl
      · obtain ⟨b, hb, hne, -⟩ := hold q hq
        rw [hnew, hb, Option.some.injEq] at heq
        exact absurd heq.symm hne
    · obtain ⟨b, hb, hne, -⟩ := hold p hp
      rcases List.mem_cons.mp hq with rfl | hq
      · rw [hnew, hb, Option.some.injEq] at heq
        exact absurd heq hne
      · rw [he.buf_eq fun hpd => hnot (hpd ▸ hp), he.buf_eq fun hqd => hnot (hqd ▸ hq)] at heq
        exact h.inj p hp q hq heq

/-- The end of a call frees its entry and its buffer, which are still allocated. -/
lemma putnstrEnd_spec (h : Memory s (p :: ps)) :
    ∃ s', putnstrEnd p s = .ok s' ∧ Memory s' ps ∧ s'.nodes = Function.update s.nodes p none ∧
      s'.putstrHead = s.putstrHead ∧ s'.putstrTail = s.putstrTail ∧
      s'.subscribed = s.subscribed ∧ s'.writes = s.writes ∧
      ∀ q ∈ ps, s'.content q = s.content q := by
  obtain ⟨d, b, hd, hb, hsome⟩ := h.nodes List.mem_cons_self
  obtain ⟨bytes, hbytes⟩ := Option.isSome_iff_exists.mp hsome
  have hnot : p ∉ ps := (List.nodup_cons.mp h.nodup).1
  have hbp : s.buf p = some b := by simp [State.buf, hd, hb]
  have hother : ∀ q ∈ ps, ∀ c, s.buf q = some c → c ≠ b := by
    rintro q hq c hc rfl
    exact hnot (h.inj q (List.mem_cons_of_mem _ hq) p List.mem_cons_self (hc.trans hbp.symm) ▸ hq)
  refine ⟨{ s with
    bufs := Function.update s.bufs b none
    nodes := Function.update s.nodes p none }, ?_, ?_, rfl, rfl, rfl, rfl, rfl, ?_⟩
  · rw [putnstrEnd]
    rw [State.load_of_nodes hd]
    show (s.freeBuf d.buf >>= _) = _
    simp only [State.freeBuf, hb, hbytes]
    show State.freeNode p _ = _
    simp only [State.freeNode, hd]
  · have hbuf : ∀ q ∈ ps, (Function.update s.nodes p none q).bind PutstrData.buf = s.buf q := by
      intro q hq
      have hqp : q ≠ p := fun hqp => hnot (hqp ▸ hq)
      rw [Function.update_of_ne hqp, State.buf]
    refine ⟨(List.nodup_cons.mp h.nodup).2, ?_, ?_, ?_⟩
    · intro q
      by_cases hq : q = p
      · simp [hq, hnot]
      · simpa [hq] using h.allocated q
    · intro q hq
      obtain ⟨c, hc, hcsome⟩ := h.buf q (List.mem_cons_of_mem _ hq)
      exact ⟨c, (hbuf q hq).trans hc, by simpa [hother q hq c hc] using hcsome⟩
    · intro q hq r hr heq
      have heq' : s.buf q = s.buf r := (hbuf q hq).symm.trans (heq.trans (hbuf r hr))
      exact h.inj q (List.mem_cons_of_mem _ hq) r (List.mem_cons_of_mem _ hr) heq'
  · intro q hq
    have hqp : q ≠ p := fun hqp => hnot (hqp ▸ hq)
    obtain ⟨e, c, he, hc, -⟩ := h.nodes (List.mem_cons_of_mem _ hq)
    have hcb : c ≠ b := hother q hq c (by simp [State.buf, he, hc])
    simp [State.content, State.region, State.read, hqp, he, hc, hcb]

/-! ### Entering `putnstr` -/

variable {ans : Answers} {str : ℕ → U8} {len : U32} {data buf t : Ptr} {e : PutstrData}

/-- The memory when both calls of `malloc` have succeeded and the fields have been written. -/
def State.enter (data buf : Ptr) (str : ℕ → U8) (len : U32) (s : State) : State :=
  (s.setNode data ⟨some buf, len, false, none⟩).setBuf buf (strncpy str len.toNat)

lemma State.enter_nodes (s : State) : (s.enter data buf str len).nodes =
    Function.update s.nodes data (some ⟨some buf, len, false, none⟩) := rfl

lemma State.enter_bufs (s : State) : (s.enter data buf str len).bufs =
    Function.update s.bufs buf (some (strncpy str len.toNat)) := rfl

lemma putnstr_noMemory (hfresh : alloc.Fresh s) (h : alloc.data = none ∨ alloc.buf = none)
    (ans : Answers) (str : ℕ → U8) (len : U32) :
    putnstr alloc ans str len s = .ok (s, ⟨none, none, some returncodeENomem⟩) := by
  obtain ⟨data, buf⟩ := alloc
  cases data with
  | none => rfl
  | some data =>
    obtain rfl : buf = none := by simpa using h
    have hdata : s.nodes data = none := hfresh.1 data rfl
    simp only [putnstr, State.freeNode, State.setNode_nodes, Function.update_self]
    have hs : Function.update s.nodes data none = s.nodes := by
      rw [← hdata, Function.update_eq_self]
    simp only [Function.update_idem, hs]
    rfl

lemma putnstr_direct (htail : s.putstrTail = none) :
    putnstr ⟨some data, some buf⟩ ans str len s =
      let r := submit ans data ⟨some buf, len, false, none⟩ (s.enter data buf str len)
      if r.1.ret < 0 then do
        let s ← r.2.freeBuf (some buf)
        let s ← s.freeNode data
        .ok (s, ⟨some data, some r.1, some r.1.ret⟩)
      else
        .ok ({ r.2 with putstrHead := some data, putstrTail := some data },
          ⟨some data, some r.1, none⟩) := by
  have htail' : ((s.setNode data ⟨some buf, len, false, none⟩).setBuf buf
    (strncpy str len.toNat)).putstrTail = none := htail
  simp only [putnstr, htail']
  rfl

lemma putnstr_queued (htail : s.putstrTail = some t)
    (ht : (s.enter data buf str len).nodes t = some e) :
    putnstr ⟨some data, some buf⟩ ans str len s =
      .ok ((s.enter data buf str len).push t e data, ⟨some data, none, none⟩) := by
  have htail' : ((s.setNode data ⟨some buf, len, false, none⟩).setBuf buf
    (strncpy str len.toNat)).putstrTail = some t := htail
  simp only [putnstr, htail']
  show (State.load (some t) (s.enter data buf str len) >>= _) = _
  rw [State.load_of_nodes ht]
  rfl

/-- What the entry holds from then on. -/
lemma State.enter_content (s : State) (data buf : Ptr) (str : ℕ → U8) (len : U32) :
    (s.enter data buf str len).content data = some (strncpy str len.toNat) := by
  simp [State.content, State.region, State.read, State.enter_nodes, State.enter_bufs,
    List.take_of_length_le, strncpy_length]

lemma submit_enter (ans : Answers) (s : State) (data buf : Ptr) (str : ℕ → U8) (len : U32) :
    (submit ans data ⟨some buf, len, false, none⟩ (s.enter data buf str len)).1.bytes =
      some (strncpy str len.toNat) := by
  rw [← s.enter_content data buf str len, State.content, State.region, State.enter_nodes,
    Function.update_self]
  rfl

/-- When the first submission is refused the new entry and its buffer are freed again. -/
lemma putnstr_refused (htail : s.putstrTail = none) (hdata : s.nodes data = none)
    (hbuf : s.bufs buf = none) (hacc : ans.accept = false) (str : ℕ → U8) (len : U32) :
    ∃ ret allowed subscribed, ret < 0 ∧
      putnstr ⟨some data, some buf⟩ ans str len s =
        .ok ({ s with allowed, subscribed },
          ⟨some data, some ⟨data, some (strncpy str len.toNat), ret⟩, some ret⟩) := by
  obtain ⟨hret, allowed, subscribed, hs₂⟩ :=
    submit_refused hacc data ⟨some buf, len, false, none⟩ (s.enter data buf str len)
  refine ⟨(submit ans data ⟨some buf, len, false, none⟩ (s.enter data buf str len)).1.ret,
    allowed, subscribed, hret, ?_⟩
  rw [putnstr_direct htail, ← submit_enter ans s data buf str len]
  simp only [hret, if_true, hs₂]
  have hnodes : Function.update (s.enter data buf str len).nodes data none = s.nodes := by
    rw [State.enter_nodes, Function.update_idem, ← hdata, Function.update_eq_self]
  have hbufs : Function.update (s.enter data buf str len).bufs buf none = s.bufs := by
    rw [State.enter_bufs, Function.update_idem, ← hbuf, Function.update_eq_self]
  have hsome : (s.enter data buf str len).bufs buf = some (strncpy str len.toNat) := by
    simp [State.enter_bufs]
  simp only [State.freeBuf, hsome]
  show (State.freeNode data _ >>= _) = _
  have hsome' : (s.enter data buf str len).nodes data = some ⟨some buf, len, false, none⟩ := by
    simp [State.enter_nodes]
  simp only [State.freeNode, hsome', hnodes, hbufs]
  rfl

lemma putnstr_accepted (htail : s.putstrTail = none) (hacc : ans.accept = true) (data buf : Ptr)
    (str : ℕ → U8) (len : U32) :
    putnstr ⟨some data, some buf⟩ ans str len s =
      .ok ({ s.enter data buf str len with
          putstrHead := some data
          putstrTail := some data
          allowed := ⟨some buf, len⟩
          subscribed := some (.putstrUpcall, none)
          writes := s.writes ++ [⟨some buf, len⟩] },
        ⟨some data, some ⟨data, some (strncpy str len.toNat), returncodeSuccess⟩, none⟩) := by
  rw [putnstr_direct htail, ← submit_enter ans s data buf str len]
  simp only [submit_accepted hacc, returncodeSuccess, lt_irrefl, if_false]
  rfl

lemma entered_enter (s : State) (data buf : Ptr) (str : ℕ → U8) (len : U32) :
    Entered s (s.enter data buf str len) data buf (strncpy str len.toNat) where
  entry := ⟨⟨some buf, len, false, none⟩, by simp [State.enter_nodes], rfl, rfl⟩
  nodes := fun q hq => ⟨id, by simp [State.enter_nodes, hq]⟩
  bufs := rfl

lemma Entered.push {bytes : List U8} (h : Entered s s' data buf bytes) (ht : s'.nodes t = some e)
    (htd : t ≠ data) : Entered s (s'.push t e data) data buf bytes where
  entry := by
    obtain ⟨d, hd, hrest⟩ := h.entry
    exact ⟨d, by simp [State.push_nodes, htd.symm, hd], hrest⟩
  nodes := by
    intro q hq
    obtain ⟨f, hf⟩ := h.nodes q hq
    by_cases hqt : q = t
    · subst hqt
      rw [ht] at hf
      obtain ⟨d, hd, rfl⟩ := Option.map_eq_some_iff.mp hf.symm
      exact ⟨fun _ => some data, by simp [State.push_nodes, hd]⟩
    · exact ⟨f, by simp [State.push_nodes, hqt, hf]⟩
  bufs := h.bufs

/-- What a call of `putnstr` does until it waits or returns, if `l` are the entries in the list and
its buffer gets `bytes`: the memory, the report and the entries afterwards. -/
inductive Entering (s : State) (l : List Ptr) (alloc : Allocation) (bytes : List U8) :
    State → Started → List Ptr → Prop
  | noMemory : Entering s l alloc bytes s ⟨none, none, some returncodeENomem⟩ l
  | refused {s' : State} {data : Ptr} {ret : ℤ} (hl : l = []) (hdata : alloc.data = some data)
      (hret : ret < 0) (hnodes : s'.nodes = s.nodes) (hbufs : s'.bufs = s.bufs) :
      Entering s l alloc bytes s' ⟨some data, some ⟨data, some bytes, ret⟩, some ret⟩
        (Serial.put data false l)
  | accepted {s' : State} {data buf : Ptr} (hl : l = []) (hdata : alloc.data = some data)
      (hbuf : alloc.buf = some buf) (hentered : Entered s s' data buf bytes)
      (hcontent : s'.content data = some bytes) :
      Entering s l alloc bytes s' ⟨some data, some ⟨data, some bytes, returncodeSuccess⟩, none⟩
        (Serial.put data true l)
  | queued {s' : State} {data buf : Ptr} (hl : l ≠ []) (hdata : alloc.data = some data)
      (hbuf : alloc.buf = some buf) (hentered : Entered s s' data buf bytes)
      (hcontent : s'.content data = some bytes) :
      Entering s l alloc bytes s' ⟨some data, none, none⟩ (l ++ [data])

lemma putnstr_spec (hw : Writing s l) (hfresh : alloc.Fresh s) (ans : Answers) (str : ℕ → U8)
    (len : U32) :
    ∃ s' r l', putnstr alloc ans str len s = .ok (s', r) ∧
      Entering s l alloc (strncpy str len.toNat) s' r l' ∧ Writing s' l' := by
  by_cases hnone : alloc.data = none ∨ alloc.buf = none
  · exact ⟨s, _, l, putnstr_noMemory hfresh hnone ans str len, .noMemory, hw⟩
  obtain ⟨data, buf⟩ := alloc
  obtain ⟨hdata, hbuf⟩ := not_or.mp hnone
  obtain ⟨data, rfl⟩ := Option.ne_none_iff_exists'.mp hdata
  obtain ⟨buf, rfl⟩ := Option.ne_none_iff_exists'.mp hbuf
  have hdata : s.nodes data = none := hfresh.1 data rfl
  have hbuf : s.bufs buf = none := hfresh.2 buf rfl
  have hentered := entered_enter s data buf str len
  have hcontent := s.enter_content data buf str len
  cases l with
  | nil =>
    have htail : s.putstrTail = none := hw.tail
    cases hacc : ans.accept with
    | false =>
      obtain ⟨ret, allowed, subscribed, hret, hrun⟩ :=
        putnstr_refused htail hdata hbuf hacc str len
      refine ⟨_, _, _, hrun, .refused rfl rfl hret rfl rfl, ?_⟩
      exact ⟨hw.toQueued.congr (fun _ _ => rfl) rfl rfl, hw.writes, fun h => absurd rfl h⟩
    | true =>
      have hrun := putnstr_accepted htail hacc data buf str len
      refine ⟨_, _, _, hrun, .accepted rfl rfl rfl ⟨hentered.entry, hentered.nodes, rfl⟩ hcontent,
        ?_⟩
      have hwrites : s.writes = [] := hw.writes
      refine ⟨⟨?_, rfl, ?_⟩, ?_, fun _ => rfl⟩
      · simp [Serial.put, State.next, State.enter_nodes]
      · simp [Serial.put, State.enter_nodes]
      · simp [Serial.put, State.region, State.enter_nodes, hwrites]
  | cons x l =>
    obtain ⟨t, ht⟩ : ∃ t, lastOr none (x :: l) = some t :=
      Option.ne_none_iff_exists'.mp (mt lastOr_none_eq_none_iff.mp (by simp))
    have htl : t ∈ x :: l := by
      rcases lastOr_eq_some_mem ht with hc | hmem
      · cases hc
      · exact hmem
    obtain ⟨e, he, -⟩ := hw.waiting t htl
    have hne : ∀ q ∈ x :: l, q ≠ data := by
      intro q hq hqd
      obtain ⟨e', he', -⟩ := hw.waiting q hq
      simp [hqd, hdata] at he'
    have he' : (s.enter data buf str len).nodes t = some e := by
      simp [State.enter_nodes, hne t htl, he]
    have hpush := hentered.push he' (hne t htl)
    have hcontent' : ((s.enter data buf str len).push t e data).content data =
        some (strncpy str len.toNat) := by
      have hregion : ((s.enter data buf str len).push t e data).region data =
          (s.enter data buf str len).region data := by
        simp [State.region, State.push_nodes, (hne t htl).symm]
      exact (State.content_congr hregion rfl).trans hcontent
    refine ⟨_, _, _, putnstr_queued (hw.tail.trans ht) he',
      .queued (by simp) rfl rfl hpush hcontent', ?_⟩
    refine ⟨?_, ?_, fun _ => hw.subscribed (by simp)⟩
    · have hq := hw.toQueued.push (d := ⟨some buf, len, false, none⟩) ht he hdata rfl rfl
      exact hq.congr (fun _ _ => rfl) rfl rfl
    · have hregion := hpush.region_eq (hne x (by simp))
      have hwrites : s.writes = ((x :: l).head?.bind s.region).toList := hw.writes
      simp only [List.cons_append, List.head?_cons, Option.bind_some, hregion] at hwrites ⊢
      exact hwrites

end Console
