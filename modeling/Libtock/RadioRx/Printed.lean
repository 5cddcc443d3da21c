import Libtock.Core.History
import Libtock.RadioRx.World

/-!
# What `radio_rx` prints

A callback that is not interrupted prints the text about one frame, the last one that came: while it
prints, the buffer is not shared. A callback that interrupts another one shares the buffer again
before the other has printed its text.
-/

namespace RadioRx

open Core Tock Ieee802154

variable {packetRx : Ptr} {k : Kernel} {w w' : World} {a : Action} {tr es : List Event}
  {f g : Frame} {n : ℕ} {pc : Pc} {r : Line × Pc} {i : Issued Unit Region}

/-! ### Traces -/

@[simp] lemma received_append : received (tr ++ es) = received tr ++ received es :=
  List.filterMap_append

@[simp] lemma begun_append : begun (tr ++ es) = begun tr ++ begun es := List.filterMap_append

@[simp] lemma lines_append : lines (tr ++ es) = lines tr ++ lines es := List.filterMap_append

@[simp] lemma printed_append : printed n (tr ++ es) = printed n tr ++ printed n es :=
  List.filterMap_append

/-- The callback that an event is about. -/
def Event.call : Event → Option ℕ
  | received _ | missed _ | ledToggled => none
  | began n _ _ | interrupted n | line n _ | ended n _ => some n

lemma printed_eq_nil (h : ∀ e ∈ tr, e.call ≠ some n) : printed n tr = [] := by
  rw [printed, List.filterMap_eq_nil_iff]
  intro e he
  cases e with
  | line m l => exact if_neg fun hm => h _ he (congrArg some hm)
  | _ => rfl

/-! ### The text about a frame -/

/-- The characters of the payload from the `i`-th on. -/
def charsFrom (f : Frame) (length offset : ℤ) (i : ℕ) : List U8 :=
  (((List.range length.toNat).drop i).map fun j => f (offset.toNat + j)).takeWhile (· ≠ 0)

lemma charsFrom_cons {length offset : ℤ} {i : ℕ} (hi : (i : ℤ) < length)
    (hc : f (offset.toNat + i) ≠ 0) :
    charsFrom f length offset i = f (offset.toNat + i) :: charsFrom f length offset (i + 1) := by
  have hlt : i < (List.range length.toNat).length := by simp; omega
  rw [charsFrom, List.drop_eq_getElem_cons hlt, List.getElem_range, List.map_cons,
    List.takeWhile_cons_of_pos (by simpa using hc), charsFrom]

lemma charsFrom_nil {length offset : ℤ} {i : ℕ}
    (h : ¬ ((i : ℤ) < length ∧ f (offset.toNat + i) ≠ 0)) : charsFrom f length offset i = [] := by
  by_cases hi : (i : ℤ) < length
  · have hlt : i < (List.range length.toNat).length := by simp; omega
    rw [charsFrom, List.drop_eq_getElem_cons hlt, List.getElem_range, List.map_cons,
      List.takeWhile_cons_of_neg (by simpa [hi] using h)]
  · rw [charsFrom, List.drop_eq_nil_of_le (by simp; omega), List.map_nil, List.takeWhile_nil]

/-- The lines about the header. -/
def header (f : Frame) : List Line :=
  [.dstPan (shownPan (frameGetDstPan (some f) shortAddr)),
    .dstAddr (shownAddr (frameGetDstAddr (some f) shortAddr longAddr)),
    .srcPan (shownPan (frameGetSrcPan (some f) shortAddr)),
    .srcAddr (shownAddr (frameGetSrcAddr (some f) shortAddr longAddr))]

/-- What a callback still prints if the frame stays as it is. -/
def Pc.rest (f : Frame) : Pc → List Line
  | payload length offset i => (charsFrom f length offset i).map .char ++ .newline :: header f
  | dstPan => header f
  | dstAddr => (header f).drop 1
  | srcPan => (header f).drop 2
  | srcAddr => (header f).drop 3
  | receive | receiving _ _ => []

lemma Pc.rest_of_next (h : pc.next f = some r) : pc.rest f = r.1 :: r.2.rest f := by
  cases pc with
  | payload length offset i =>
    rw [next] at h
    split at h
    · next hc =>
      cases h
      rw [rest, charsFrom_cons hc.1 hc.2, List.map_cons, List.cons_append, rest]
    · next hc =>
      cases h
      rw [rest, charsFrom_nil hc, List.map_nil, List.nil_append, rest]
  | receive | receiving _ _ => cases h
  | _ =>
    cases h
    rfl

lemma Pc.ne_receiving_of_next (h : pc.next f = some r) (ret : ℤ)
    (calls : List (Issued Unit Region)) : r.2 ≠ receiving ret calls := by
  rintro hr
  cases pc with
  | payload length offset i =>
    rw [next] at h
    split at h <;>
    · cases h
      cases hr
  | receive | receiving _ _ => cases h
  | _ =>
    cases h
    cases hr

lemma Pc.rest_ne_nil_of_next (h : pc.next g = some r) : pc.rest f ≠ [] := by
  cases pc with
  | receive | receiving _ _ => cases h
  | _ => simp [rest, header]

lemma text_eq (f : Frame) :
    text f =
      .received (f 1).toNat (f 0).toNat :: (Pc.payload (f 1).toNat (f 0).toNat 0).rest f := by
  simp [text, Pc.rest, shownPayload, charsFrom, header]

/-! ### Steps -/

namespace World

/-- The numbers of the callbacks in progress. -/
def ids (w : World) : List ℕ := w.stack.map Prod.fst

lemma ids_cons {stack : List (ℕ × Pc)} (h : w.stack = (n, pc) :: stack) :
    w.ids = n :: stack.map Prod.fst := by rw [ids, h, List.map_cons]

@[simp] lemma issue_packetRx : (w.issue i).packetRx = w.packetRx := rfl

@[simp] lemma issue_stack : (w.issue i).stack = w.stack := rfl

@[simp] lemma issue_calls : (w.issue i).calls = w.calls := rfl

lemma issue_due : (w.issue i).due = w.due ∨ (w.issue i).due = 0 := by
  simp only [issue]
  split
  · exact .inr rfl
  · exact .inl rfl

lemma receive_of_refused {e : Failure} (h : k.allowReadwrite radioDriver allowRx = .refused e) :
    receive packetRx k = (tockStatusToReturncode e.status,
      [.allowReadwrite radioDriver allowRx ⟨some packetRx, 129⟩ (.refused e)]) := by
  simp [receive, ieee802154Receive, ieee802154FrameLen, h]

lemma receive_of_accepted (h : k.allowReadwrite radioDriver allowRx = .accepted) :
    receive packetRx k = ((k.subscribe radioDriver subscribeRx).toReturncode,
      [.allowReadwrite radioDriver allowRx ⟨some packetRx, 129⟩ .accepted,
        .subscribe radioDriver subscribeRx (some ()) (k.subscribe radioDriver subscribeRx)]) := by
  simp [receive, ieee802154Receive, ieee802154FrameLen, h]

/-- The state in which a callback begins to print. -/
lemma callback_eq (k : Kernel) (w : World) : ∃ slots,
    callback k w = ({ w with
        slots
        stack := (w.calls, .payload (w.packetRx 1).toNat (w.packetRx 0).toNat 0) :: w.stack
        calls := w.calls + 1 },
      (w.stack.head?.map fun p => Event.interrupted p.1).toList ++
        [.ledToggled,
          .began w.calls w.packetRx (decide (k.allowReadwrite radioDriver allowRx = .accepted)),
          .line w.calls (.received (w.packetRx 1).toNat (w.packetRx 0).toNat)]) ∧
      slots.subscription = w.slots.subscription ∧
      (k.allowReadwrite radioDriver allowRx = .accepted →
        slots.readwrite (radioDriver, allowRx) = some ⟨none, 0⟩) := by
  refine ⟨_, rfl, rfl, fun hk => ?_⟩
  simp [ieee802154UnallowRxBuf, hk, issue]

lemma received_callback : received (callback k w).2 = [] := by
  obtain ⟨slots, heq, -, -⟩ := callback_eq k w
  rw [heq]
  cases w.stack <;> rfl

lemma begun_callback : begun (callback k w).2 = [w.packetRx] := by
  obtain ⟨slots, heq, -, -⟩ := callback_eq k w
  rw [heq]
  cases w.stack <;> rfl

lemma lines_callback : lines (callback k w).2 =
    [.received (w.packetRx 1).toNat (w.packetRx 0).toNat] := by
  obtain ⟨slots, heq, -, -⟩ := callback_eq k w
  rw [heq]
  cases w.stack <;> rfl

/-- What a step is. -/
inductive Transition (packetRx : Ptr) (w : World) : Action → World → List Event → Prop
  | received (f : Frame) (hshared : w.shared = true) :
      Transition packetRx w (.frame f)
        { w with packetRx := f, due := if w.subscribed then w.due + 1 else w.due } [.received f]
  | missed (f : Frame) (hshared : w.shared = false) :
      Transition packetRx w (.frame f) w [.missed f]
  | upcall (k : Kernel) {due : ℕ} (hdue : w.due = due + 1) (hwaits : w.receiving = false) :
      Transition packetRx w (.upcall k) (callback k { w with due }).1
        (callback k { w with due }).2
  | line (k : Kernel) {n : ℕ} {pc : Pc} {stack : List (ℕ × Pc)} {r : Line × Pc}
      (hstack : w.stack = (n, pc) :: stack) (hnext : pc.next w.packetRx = some r) :
      Transition packetRx w (.run k) { w with stack := (n, r.2) :: stack } [.line n r.1]
  | receive (k : Kernel) {n : ℕ} {stack : List (ℕ × Pc)}
      (hstack : w.stack = (n, .receive) :: stack) :
      Transition packetRx w (.run k)
        { w with
          stack := (n, .receiving (World.receive packetRx k).1 (World.receive packetRx k).2) ::
            stack } []
  | issue (k : Kernel) {n : ℕ} {ret : ℤ} {i : Issued Unit Region}
      {calls : List (Issued Unit Region)} {stack : List (ℕ × Pc)}
      (hstack : w.stack = (n, .receiving ret (i :: calls)) :: stack) :
      Transition packetRx w (.run k)
        { w.issue i with stack := (n, .receiving ret calls) :: stack } []
  | ended (k : Kernel) {n : ℕ} {ret : ℤ} {stack : List (ℕ × Pc)}
      (hstack : w.stack = (n, .receiving ret []) :: stack) :
      Transition packetRx w (.run k) { w with stack } [.ended n ret]

lemma step_of_exec (h : w.exec packetRx a = some (w', es)) : w.Step packetRx a w' es := h

lemma Step.transition (h : w.Step packetRx a w' es) : Transition packetRx w a w' es := by
  cases a with
  | frame f =>
    rw [Step, exec] at h
    split at h
    · next hshared =>
      cases h
      exact .received f hshared
    · next hshared =>
      cases h
      exact .missed f (by simpa using hshared)
  | upcall k =>
    rw [Step, exec] at h
    split at h
    · cases h
    · next due hdue =>
      split at h
      · cases h
      · next hwaits =>
        cases h
        exact .upcall k hdue (by simpa using hwaits)
  | run k =>
    rw [Step, exec] at h
    split at h
    · cases h
    · next hstack =>
      cases h
      exact .receive k hstack
    · next hstack =>
      cases h
      exact .issue k hstack
    · next hstack =>
      cases h
      exact .ended k hstack
    · next hstack =>
      obtain ⟨r, hnext, heq⟩ := Option.map_eq_some_iff.mp h
      cases heq
      exact .line k hstack hnext

end World

/-! ### The callbacks in progress -/

/-- Callbacks are numbered as they begin; all but the innermost have been interrupted. -/
structure Numbered (tr : List Event) (w : World) : Prop where
  lt : ∀ e ∈ tr, ∀ n ∈ e.call, n < w.calls
  sorted : (w.calls :: w.ids).Pairwise (· > ·)
  ended : ∀ n ret, .ended n ret ∈ tr → n ∉ w.ids
  inner : ∀ n ∈ w.ids.tail, .interrupted n ∈ tr

namespace Numbered

lemma lt_calls (h : Numbered tr w) (hn : n ∈ w.ids) : n < w.calls :=
  (List.pairwise_cons.mp h.sorted).1 n hn

/-- The steps with which no callback begins or ends. -/
lemma keep (h : Numbered tr w) (hcalls : w'.calls = w.calls) (hids : w'.ids = w.ids)
    (hes : ∀ e ∈ es, e.call = none ∨ ∃ n ∈ w.ids, ∃ l, e = .line n l) :
    Numbered (tr ++ es) w' := by
  refine ⟨fun e he n hn => ?_, by rw [hcalls, hids]; exact h.sorted, fun n ret hn => ?_,
    fun n hn => ?_⟩
  · rw [hcalls]
    rcases List.mem_append.mp he with he | he
    · exact h.lt e he n hn
    · rcases hes e he with hnone | ⟨m, hm, l, rfl⟩
      · rw [hnone] at hn
        cases hn
      · obtain rfl : m = n := by simpa [Event.call] using hn
        exact h.lt_calls hm
  · rw [hids]
    rcases List.mem_append.mp hn with hn | hn
    · exact h.ended n ret hn
    · rcases hes _ hn with hnone | ⟨m, hm, l, heq⟩
      · cases hnone
      · cases heq
  · rw [hids] at hn
    exact List.mem_append_left _ (h.inner n hn)

lemma callback (h : Numbered tr w) (k : Kernel) (due : ℕ) :
    Numbered (tr ++ (World.callback k { w with due }).2) (World.callback k { w with due }).1 := by
  obtain ⟨slots, heq, -, -⟩ := World.callback_eq k { w with due }
  rw [heq]
  have hhead : ∀ n ∈ w.stack.head?.map Prod.fst, n ∈ w.ids := by
    intro n hn
    rw [← List.head?_map] at hn
    exact List.mem_of_mem_head? hn
  refine ⟨fun e he n hn => ?_, ?_, fun n ret hn => ?_, fun n hn => ?_⟩
  · rcases List.mem_append.mp he with he | he
    · exact (h.lt e he n hn).trans (Nat.lt_succ_self _)
    · rcases List.mem_append.mp he with he | he
      · obtain ⟨p, hp, rfl⟩ : ∃ p ∈ w.stack.head?, Event.interrupted p.1 = e := by
          simpa using he
        obtain rfl : p.1 = n := by simpa [Event.call] using hn
        exact (h.lt_calls (hhead _ (Option.mem_map_of_mem _ hp))).trans (Nat.lt_succ_self _)
      · obtain rfl : w.calls = n := by
          rcases List.mem_cons.mp he with rfl | he
          · cases hn
          · rcases List.mem_pair.mp he with rfl | rfl <;> simpa [Event.call] using hn
        exact Nat.lt_succ_self _
  · refine List.pairwise_cons.mpr ⟨fun n hn => ?_, h.sorted⟩
    rcases List.mem_cons.mp hn with rfl | hn
    · exact Nat.lt_succ_self _
    · exact (h.lt_calls hn).trans (Nat.lt_succ_self _)
  · have hn : .ended n ret ∈ tr := by simpa using hn
    exact List.not_mem_cons_of_ne_of_not_mem (h.lt _ hn n rfl).ne (h.ended n ret hn)
  · have hn : n ∈ w.ids := hn
    cases hstack : w.stack with
    | nil => simp [World.ids, hstack] at hn
    | cons p stack =>
      rw [World.ids, hstack, List.map_cons] at hn
      rcases List.mem_cons.mp hn with rfl | hn
      · simp
      · refine List.mem_append_left _ (h.inner n ?_)
        rwa [World.ids, hstack]

lemma ending (h : Numbered tr w) {ret : ℤ} {stack : List (ℕ × Pc)}
    (hstack : w.stack = (n, pc) :: stack) :
    Numbered (tr ++ [.ended n ret]) { w with stack } := by
  have hids : w.ids = n :: stack.map Prod.fst := World.ids_cons hstack
  have hsorted := h.sorted
  rw [hids, List.pairwise_cons, List.pairwise_cons] at hsorted
  obtain ⟨hlt, hltn, htail⟩ := hsorted
  refine ⟨fun e he m hm => ?_, List.pairwise_cons.mpr ⟨fun m hm => hlt m (.tail _ hm), htail⟩,
    fun m ret' hm => ?_, fun m hm => ?_⟩
  · rcases List.mem_append.mp he with he | he
    · exact h.lt e he m hm
    · obtain rfl := List.mem_singleton.mp he
      obtain rfl : n = m := by simpa [Event.call] using hm
      exact hlt n List.mem_cons_self
  · rcases List.mem_append.mp hm with hm | hm
    · have hnot := h.ended m ret' hm
      rw [hids] at hnot
      exact fun hmem => hnot (List.mem_cons_of_mem _ hmem)
    · obtain ⟨rfl, -⟩ : m = n ∧ ret' = ret := by simpa using hm
      exact fun hmem => (hltn m hmem).false
  · refine List.mem_append_left _ (h.inner m ?_)
    rw [hids]
    exact List.mem_of_mem_tail hm

lemma step (h : Numbered tr w) (hstep : w.Step packetRx a w' es) : Numbered (tr ++ es) w' := by
  cases hstep.transition with
  | received f _ => exact h.keep rfl rfl (by simp [Event.call])
  | missed f _ => exact h.keep rfl rfl (by simp [Event.call])
  | upcall k _ _ => exact h.callback k _
  | line k hstack _ =>
    refine h.keep rfl (by simp [World.ids, hstack]) ?_
    simp [World.ids, hstack]
  | receive k hstack => exact h.keep rfl (by simp [World.ids, hstack]) (by simp)
  | issue k hstack => exact h.keep rfl (by simp [World.ids, hstack]) (by simp)
  | ended k hstack => exact h.ending hstack

/-- The innermost callback is not among the others. -/
lemma not_mem_tail (h : Numbered tr w) {stack : List (ℕ × Pc)}
    (hstack : w.stack = (n, pc) :: stack) : n ∉ stack.map Prod.fst := by
  have hsorted := h.sorted
  rw [World.ids_cons hstack, List.pairwise_cons, List.pairwise_cons] at hsorted
  exact fun hmem => (hsorted.2.1 n hmem).false

end Numbered

/-! ### Callbacks that are not interrupted -/

/-- The `n`-th callback has printed `ls`, and all it prints is the text about `f`: it is over, or it
is the innermost one and its frame stays in the buffer as long as it prints. -/
inductive Shows (w : World) (n : ℕ) (f : Frame) (ls : List Line) : Prop
  | innermost {pc : Pc} {stack : List (ℕ × Pc)} (hstack : w.stack = (n, pc) :: stack)
      (hls : ls ++ pc.rest f = text f)
      (hbuffer : pc.rest f ≠ [] → w.shared = false ∧ w.packetRx = f)
  | ended (hn : n ∉ w.ids) (hls : ls = text f)

/-- A callback finds the last frame that came. -/
def FindsLast (pre : List Event) : Event → Prop
  | .began _ f _ => (received pre).getLast? = some f
  | _ => True

structure Inv (tr : List Event) (w : World) : Prop extends Numbered tr w where
  last : w.due ≠ 0 → (received tr).getLast? = some w.packetRx
  finds : Each FindsLast tr
  shows : ∀ n f, .began n f true ∈ tr → .interrupted n ∉ tr → Shows w n f (printed n tr)

lemma printed_line (n m : ℕ) (l : Line) : printed n [.line m l] = if m = n then [l] else [] := by
  by_cases h : m = n
  · simp [printed, h]
  · simp [printed, h]

/-- A callback that is not the innermost one has been interrupted. -/
lemma Numbered.eq_of_mem (h : Numbered tr w) {m : ℕ} {stack : List (ℕ × Pc)}
    (hstack : w.stack = (m, pc) :: stack) (hn : n ∈ w.ids) (hnot : .interrupted n ∉ tr) :
    m = n := by
  have hinner := h.inner n
  rw [World.ids_cons hstack] at hn hinner
  rcases List.mem_cons.mp hn with rfl | hn
  · rfl
  · exact absurd (hinner hn) hnot

namespace Shows

variable {ls : List Line}

lemma of_stack (h : Shows w n f ls) {m : ℕ} {stack : List (ℕ × Pc)}
    (hstack : w.stack = (m, pc) :: stack) :
    (m = n ∧ ls ++ pc.rest f = text f ∧
        (pc.rest f ≠ [] → w.shared = false ∧ w.packetRx = f)) ∨
      n ∉ w.ids ∧ ls = text f := by
  cases h with
  | innermost hs hls hbuffer =>
    rw [hstack] at hs
    cases hs
    exact .inl ⟨rfl, hls, hbuffer⟩
  | ended hn hls => exact .inr ⟨hn, hls⟩

/-- The kernel writes to the buffer only when it is shared. -/
lemma received (h : Shows w n f ls) (hshared : w.shared = true) (due : ℕ) :
    Shows { w with packetRx := g, due } n f ls := by
  cases h with
  | innermost hs hls hbuffer =>
    refine .innermost hs hls fun hne => ?_
    rw [(hbuffer hne).1] at hshared
    cases hshared
  | ended hn hls => exact .ended hn hls

/-- The callback prints a line. -/
lemma line (h : Shows w n f (printed n tr)) {m : ℕ} {stack : List (ℕ × Pc)}
    (hstack : w.stack = (m, pc) :: stack) (hnext : pc.next w.packetRx = some r) :
    Shows { w with stack := (m, r.2) :: stack } n f (printed n (tr ++ [.line m r.1])) := by
  rw [printed_append, printed_line]
  rcases h.of_stack hstack with ⟨rfl, hls, hbuffer⟩ | ⟨hn, hls⟩
  · obtain ⟨hshared, hpacket⟩ := hbuffer (Pc.rest_ne_nil_of_next hnext)
    rw [hpacket] at hnext
    rw [Pc.rest_of_next hnext] at hls
    rw [if_pos rfl]
    exact .innermost rfl (by simpa using hls) fun _ => ⟨hshared, hpacket⟩
  · rw [World.ids_cons hstack] at hn
    have hne : m ≠ n := fun hmn => hn (by simp [hmn])
    rw [if_neg hne, List.append_nil]
    refine .ended ?_ hls
    rwa [World.ids, List.map_cons]

/-- The callback has printed everything and goes on. -/
lemma goOn (h : Shows w n f ls) {m : ℕ} {stack : List (ℕ × Pc)} {pc' : Pc}
    (hstack : w.stack = (m, pc) :: stack) (hpc : pc.rest f = []) (hpc' : pc'.rest f = [])
    (hstack' : w'.stack = (m, pc') :: stack) : Shows w' n f ls := by
  rcases h.of_stack hstack with ⟨rfl, hls, -⟩ | ⟨hn, hls⟩
  · rw [hpc] at hls
    exact .innermost hstack' (by rwa [hpc']) fun hne => absurd hpc' hne
  · refine .ended ?_ hls
    rw [World.ids_cons hstack] at hn
    rwa [World.ids_cons hstack']

/-- The callback returns. -/
lemma returns (h : Shows w n f ls) (hw : Numbered tr w) {m : ℕ} {stack : List (ℕ × Pc)}
    (hstack : w.stack = (m, pc) :: stack) (hpc : pc.rest f = []) :
    Shows { w with stack } n f ls := by
  rcases h.of_stack hstack with ⟨rfl, hls, -⟩ | ⟨hn, hls⟩
  · rw [hpc, List.append_nil] at hls
    exact .ended (hw.not_mem_tail hstack) hls
  · rw [World.ids_cons hstack] at hn
    exact .ended (fun hmem => hn (List.mem_cons_of_mem _ hmem)) hls

end Shows

lemma Inv.finds_append (h : Inv tr w) (hreceived : received es = [])
    (hbegun : ∀ f ∈ begun es, (received tr).getLast? = some f) : Each FindsLast (tr ++ es) := by
  refine each_append h.finds fun pre e hpre => ?_
  obtain ⟨post, rfl⟩ := hpre
  rw [received_append, received_append] at hreceived
  have hpre : received pre = [] :=
    (List.append_eq_nil_iff.mp (List.append_eq_nil_iff.mp hreceived).1).1
  cases e with
  | began n f ok =>
    rw [FindsLast, received_append, hpre, List.append_nil]
    exact hbegun f (by simp [begun])
  | _ => trivial

/-- A new callback interrupts the innermost one. -/
lemma Inv.shows_callback (h : Inv tr w) (k : Kernel) {due : ℕ}
    (hn : .began n f true ∈ tr ++ (World.callback k { w with due }).2)
    (hnot : .interrupted n ∉ tr ++ (World.callback k { w with due }).2) :
    Shows (World.callback k { w with due }).1 n f
      (printed n (tr ++ (World.callback k { w with due }).2)) := by
  obtain ⟨slots, heq, -, hslots⟩ := World.callback_eq k { w with due }
  rw [heq] at hn hnot ⊢
  have hprinted : printed n ((w.stack.head?.map fun p => Event.interrupted p.1).toList ++
      [.ledToggled,
        .began w.calls w.packetRx (decide (k.allowReadwrite radioDriver allowRx = .accepted)),
        .line w.calls (.received (w.packetRx 1).toNat (w.packetRx 0).toNat)]) =
      if w.calls = n then [.received (w.packetRx 1).toNat (w.packetRx 0).toNat] else [] := by
    cases w.stack <;> exact printed_line n w.calls _
  simp only [printed_append] at hprinted ⊢
  rw [hprinted]
  rcases List.mem_append.mp hn with hn | hn
  · have hlt : n < w.calls := h.lt _ hn n rfl
    have hnot' : .interrupted n ∉ tr := fun hmem => hnot (List.mem_append_left _ hmem)
    -- it has returned: were it in progress, it would be interrupted now, if it was not before
    have hmem : n ∉ w.ids := by
      intro hmem
      cases hstack : w.stack with
      | nil => simp [World.ids, hstack] at hmem
      | cons p stack =>
        obtain rfl := h.eq_of_mem hstack hmem hnot'
        exact hnot (by simp [hstack])
    rw [if_neg hlt.ne', List.append_nil]
    refine .ended (List.not_mem_cons_of_ne_of_not_mem hlt.ne hmem) ?_
    cases h.shows n f hn hnot' with
    | innermost hs _ _ => exact absurd (by simp [World.ids, hs]) hmem
    | ended _ hls => exact hls
  · obtain ⟨rfl, rfl, hk⟩ : n = w.calls ∧ f = w.packetRx ∧
        k.allowReadwrite radioDriver allowRx = .accepted := by
      simpa using hn
    have hnil : printed w.calls tr = [] :=
      printed_eq_nil fun e he hcall => (h.lt e he _ hcall).false
    rw [if_pos rfl, hnil, List.nil_append]
    refine .innermost rfl (text_eq w.packetRx).symm fun _ => ⟨?_, rfl⟩
    simp [World.shared, hslots hk]

lemma Inv.step (h : Inv tr w) (hstep : w.Step packetRx a w' es) : Inv (tr ++ es) w' := by
  refine ⟨h.toNumbered.step hstep, ?_, ?_, fun n f hn hnot => ?_⟩
  · cases hstep.transition with
    | received g _ =>
      intro _
      simp [received]
    | upcall k hdue _ =>
      intro _
      rw [received_append, World.received_callback, List.append_nil]
      exact h.last (by omega)
    | issue k hstack =>
      intro hdue
      rw [List.append_nil]
      refine h.last fun h0 => hdue ?_
      rcases World.issue_due (w := w) with heq | heq
      · exact heq.trans h0
      · exact heq
    | _ =>
      rw [received_append]
      exact fun hdue => (List.append_nil _).symm ▸ h.last hdue
  · cases hstep.transition with
    | received g _ => exact each_concat.mpr ⟨h.finds, trivial⟩
    | upcall k hdue _ =>
      refine h.finds_append World.received_callback fun f hf => ?_
      rw [World.begun_callback, List.mem_singleton] at hf
      rw [hf]
      exact h.last (by omega)
    | _ => exact h.finds_append rfl (by simp [begun])
  · cases hstep.transition with
    | received g hshared =>
      have hn : .began n f true ∈ tr := by simpa using hn
      have hnot : .interrupted n ∉ tr := by simpa using hnot
      have hprinted : printed n (tr ++ [.received g]) = printed n tr := by
        rw [printed_append]
        exact List.append_nil _
      rw [hprinted]
      exact (h.shows n f hn hnot).received hshared _
    | missed g _ =>
      have hn : .began n f true ∈ tr := by simpa using hn
      have hnot : .interrupted n ∉ tr := by simpa using hnot
      have hprinted : printed n (tr ++ [.missed g]) = printed n tr := by
        rw [printed_append]
        exact List.append_nil _
      rw [hprinted]
      exact h.shows n f hn hnot
    | upcall k _ _ => exact h.shows_callback k hn hnot
    | line k hstack hnext =>
      have hn : .began n f true ∈ tr := by simpa using hn
      have hnot : .interrupted n ∉ tr := by simpa using hnot
      exact (h.shows n f hn hnot).line hstack hnext
    | receive k hstack =>
      rw [List.append_nil] at hn hnot ⊢
      exact (h.shows n f hn hnot).goOn hstack rfl rfl rfl
    | issue k hstack =>
      rw [List.append_nil] at hn hnot ⊢
      exact (h.shows n f hn hnot).goOn hstack rfl rfl rfl
    | ended k hstack =>
      have hn : .began n f true ∈ tr := by simpa using hn
      have hnot : .interrupted n ∉ tr := by simpa using hnot
      have hprinted : ∀ m ret, printed n (tr ++ [.ended m ret]) = printed n tr := by
        intro m ret
        rw [printed_append]
        exact List.append_nil _
      rw [hprinted]
      exact (h.shows n f hn hnot).returns h.toNumbered hstack rfl

lemma World.foldl_issue (calls : List (Issued Unit Region)) (w : World) :
    (calls.foldl issue w).stack = w.stack ∧ (calls.foldl issue w).calls = w.calls ∧
      (w.due = 0 → (calls.foldl issue w).due = 0) := by
  induction calls generalizing w with
  | nil => exact ⟨rfl, rfl, id⟩
  | cons i calls ih =>
    obtain ⟨hstack, hcalls, hdue⟩ := ih (w.issue i)
    refine ⟨hstack, hcalls, fun h => hdue ?_⟩
    rcases issue_due (w := w) (i := i) with heq | heq
    · exact heq.trans h
    · exact heq

lemma inv_boot (packetRx : Ptr) (k : Kernel) (f : Frame) : Inv [] (World.boot packetRx k f) := by
  obtain ⟨hstack, hcalls, hdue⟩ :=
    World.foldl_issue (World.receive packetRx k).2 ⟨f, .empty, 0, [], 0⟩
  have hids : (World.boot packetRx k f).ids = [] := by
    rw [World.ids, World.boot, hstack]
    rfl
  exact
    { lt := by simp
      sorted := by simp [hids]
      ended := by simp
      inner := by simp [hids]
      last := fun hne => absurd (hdue rfl) hne
      finds := each_nil
      shows := by simp }

/-- In every run, whatever frames come and however the callbacks nest: a callback finds the last
frame that came into the buffer. One that takes the buffer back and is not interrupted prints the
text about this frame, and all of it before it ends. -/
theorem uninterrupted_prints_last_frame
    (h : Run (World.Step packetRx) (World.boot packetRx k f) tr w) :
    Each FindsLast tr ∧ ∀ n g, .began n g true ∈ tr → .interrupted n ∉ tr →
      printed n tr <+: text g ∧ ((∃ ret, .ended n ret ∈ tr) → printed n tr = text g) := by
  have hinv : Inv tr w :=
    h.trace_invariant Inv (fun _ _ _ _ _ hI hstep => hI.step hstep) (inv_boot packetRx k f)
  refine ⟨hinv.finds, fun n g hn hnot => ?_⟩
  cases hinv.shows n g hn hnot with
  | innermost hstack hls _ =>
    refine ⟨⟨_, hls⟩, ?_⟩
    rintro ⟨ret, hret⟩
    exact absurd (by simp [World.ids, hstack]) (hinv.ended n ret hret)
  | ended _ hls =>
    rw [hls]
    exact ⟨List.prefix_refl _, fun _ => rfl⟩

/-- A frame with this payload of one character, and no addresses. -/
def short (c : U8) : Frame := fun i =>
  if i = 0 then 5 else if i = 1 then 1 else if i = 5 then c else 0

/-- Two frames come before the first callback, which is interrupted by the second one. -/
theorem uninterrupted_prints_last_frame_nested :
    ∃ tr w g, Run (World.Step 0) (World.boot 0 (.steady .accepted .success) (short 0)) tr w ∧
      .began 1 g true ∈ tr ∧ .interrupted 1 ∉ tr ∧ .interrupted 0 ∈ tr ∧
      printed 1 tr = text g := by
  have hplay : (play (World.exec 0) (World.boot 0 (.steady .accepted .success) (short 0))
      ([.frame (short 65), .frame (short 66), .upcall (.steady .accepted .success),
        .run (.steady .accepted .success), .upcall (.steady .accepted .success)] ++
        List.replicate 10 (.run (.steady .accepted .success)))).any (fun r =>
      (r.2.any fun e => match e with | .began n _ ok => decide (n = 1) && ok | _ => false) &&
        (r.2.all fun e => match e with | .interrupted n => decide (n = 0) | _ => true) &&
        (r.2.any fun e => match e with | .interrupted _ => true | _ => false) &&
        (r.2.any fun e => match e with | .ended n _ => decide (n = 1) | _ => false)) = true := by
    decide +kernel
  obtain ⟨tr, w, hrun, htest⟩ := Run.of_play_any (fun _ _ _ _ => World.step_of_exec) _ hplay
  simp only [Bool.and_eq_true] at htest
  obtain ⟨⟨⟨hbegan, hinner⟩, hinterrupted⟩, hended⟩ := htest
  have hinner : ∀ n, .interrupted n ∈ tr → n = 0 := fun n he => by
    simpa using List.all_eq_true.mp hinner _ he
  have hnot : .interrupted 1 ∉ tr := fun he => absurd (hinner 1 he) one_ne_zero
  obtain ⟨g, hbegan⟩ : ∃ g, .began 1 g true ∈ tr := by
    obtain ⟨e, he, htest⟩ := List.any_eq_true.mp hbegan
    split at htest
    · obtain ⟨rfl, rfl⟩ : _ = 1 ∧ _ = true := by simpa using htest
      exact ⟨_, he⟩
    · cases htest
  have hinterrupted : .interrupted 0 ∈ tr := by
    obtain ⟨e, he, htest⟩ := List.any_eq_true.mp hinterrupted
    split at htest
    · obtain rfl := hinner _ he
      exact he
    · cases htest
  obtain ⟨ret, hended⟩ : ∃ ret, .ended 1 ret ∈ tr := by
    obtain ⟨e, he, htest⟩ := List.any_eq_true.mp hended
    split at htest
    · obtain rfl : _ = 1 := by simpa using htest
      exact ⟨_, he⟩
    · cases htest
  exact ⟨tr, w, g, hrun, hbegan, hnot, hinterrupted,
    ((uninterrupted_prints_last_frame hrun).2 1 g hbegan hnot).2 ⟨ret, hended⟩⟩

end RadioRx
