import Libtock.RadioRx.Printed

/-!
# Frames that come one at a time

While a callback prints, the buffer is not shared, so that the frames that come meanwhile are
missed. If none comes into the buffer between the last one and its callback, nor between the two
system calls of `ieee802154_receive`, the texts about all frames that came into it are printed in
order.
-/

namespace RadioRx

open Core Tock Ieee802154

variable {packetRx : Ptr} {k : Kernel} {w w' : World} {a : Action} {tr es : List Event}
  {f g : Frame} {n : ℕ} {pc : Pc} {r : Line × Pc} {i : Issued Unit Region}

/-! ### The state between two frames -/

/-- What the callbacks in progress still print. -/
def World.rest (w : World) : List Line :=
  match w.stack with
  | [] => []
  | (_, pc) :: _ => pc.rest w.packetRx

lemma World.rest_nil (h : w.stack = []) : w.rest = [] := by rw [rest, h]

lemma World.rest_cons {stack : List (ℕ × Pc)} (h : w.stack = (n, pc) :: stack) :
    w.rest = pc.rest w.packetRx := by rw [rest, h]

/-- The system calls that the callback still makes in `ieee802154_receive`. -/
def Pc.calls : Pc → List (Issued Unit Region)
  | receiving _ calls => calls
  | _ => []

lemma Pc.calls_of_next (h : pc.next f = some r) : r.2.calls = [] := by
  cases hpc : r.2 with
  | receiving ret calls => exact absurd hpc (ne_receiving_of_next h ret calls)
  | _ => rfl

/-- The system call leaves `callback` subscribed. -/
def KeepsSubscribed (i : Issued Unit Region) : Prop :=
  ∀ w : World, w.subscribed = true → (w.issue i).subscribed = true

lemma keepsSubscribed_of_mem (h : i ∈ (World.receive packetRx k).2) : KeepsSubscribed i := by
  intro w hw
  cases hrw : k.allowReadwrite radioDriver allowRx with
  | accepted =>
    rw [World.receive_of_accepted hrw] at h
    rcases List.mem_pair.mp h with rfl | rfl
    · exact hw
    · cases k.subscribe radioDriver subscribeRx with
      | accepted => simp [World.subscribed, World.issue]
      | refused e => simpa [World.subscribed, World.issue] using hw
  | refused e =>
    rw [World.receive_of_refused hrw, List.mem_singleton] at h
    rw [h]
    exact hw

lemma subscribed_boot (hk : (World.receive packetRx k).1 = returncodeSuccess) :
    (World.boot packetRx k f).subscribed = true := by
  cases hrw : k.allowReadwrite radioDriver allowRx with
  | accepted =>
    rw [World.boot, World.receive_of_accepted hrw]
    rw [World.receive_of_accepted hrw] at hk
    cases hsub : k.subscribe radioDriver subscribeRx with
    | accepted => simp [World.subscribed, World.issue]
    | refused e =>
      rw [hsub] at hk
      exact absurd hk (tockStatusToReturncode_neg e).ne
  | refused e =>
    rw [World.receive_of_refused hrw] at hk
    exact absurd hk (tockStatusToReturncode_neg e).ne

structure InOrder (tr : List Event) (w : World) : Prop where
  subscribed : w.subscribed = true
  keeps : ∀ p ∈ w.stack, ∀ i ∈ p.2.calls, KeepsSubscribed i
  alone : w.stack.length ≤ 1
  closed : w.stack ≠ [] → w.receiving = false → w.shared = false
  idle : w.stack ≠ [] → w.due = 0
  due_le : w.due ≤ 1
  received : received tr = begun tr ++ List.replicate w.due w.packetRx
  lines : lines tr ++ w.rest = (begun tr).flatMap text
  calm : ∀ n, .interrupted n ∉ tr

namespace InOrder

lemma received_frame (h : InOrder tr w) (hshared : w.shared = true) (hdue : w.due = 0)
    (hreceiving : w.receiving = false) :
    InOrder (tr ++ [.received g])
      { w with packetRx := g, due := if w.subscribed then w.due + 1 else w.due } := by
  have hstack : w.stack = [] := by
    by_contra hne
    rw [h.closed hne hreceiving] at hshared
    cases hshared
  have hreceived := h.received
  have hlines := h.lines
  rw [hdue, List.replicate_zero, List.append_nil] at hreceived
  rw [World.rest_nil hstack, List.append_nil] at hlines
  rw [h.subscribed, if_pos rfl, hdue]
  refine ⟨h.subscribed, h.keeps, h.alone, h.closed, fun hne => absurd hstack hne, le_rfl, ?_, ?_,
    by simpa using h.calm⟩
  · have hframe : RadioRx.received [.received g] = [g] := rfl
    have hnone : begun [.received g] = [] := rfl
    rw [received_append, begun_append, hframe, hnone, hreceived, List.append_nil]
    rfl
  · have hnone : RadioRx.lines [.received g] = [] := rfl
    have hnone' : begun [.received g] = [] := rfl
    have hrest : World.rest { w with packetRx := g, due := 0 + 1 } = [] := World.rest_nil hstack
    rw [lines_append, begun_append, hnone, hnone', hrest, List.append_nil, List.append_nil,
      List.append_nil, hlines]

lemma received_of_quiet (h : InOrder tr w) (hreceived : RadioRx.received es = [])
    (hbegun : begun es = []) :
    RadioRx.received (tr ++ es) = begun (tr ++ es) ++ List.replicate w.due w.packetRx := by
  rw [received_append, begun_append, hreceived, hbegun, List.append_nil, List.append_nil]
  exact h.received

lemma callback (h : InOrder tr w) {due : ℕ} (hdue : w.due = due + 1)
    (hk : k.allowReadwrite radioDriver allowRx = .accepted) :
    InOrder (tr ++ (World.callback k { w with due }).2) (World.callback k { w with due }).1 := by
  have hstack : w.stack = [] := by
    by_contra hne
    have hidle := h.idle hne
    omega
  obtain rfl : due = 0 := by
    have hle := h.due_le
    omega
  have hreceived := h.received
  have hlines := h.lines
  rw [hdue] at hreceived
  rw [World.rest_nil hstack, List.append_nil] at hlines
  have hreceivedNil := World.received_callback (k := k) (w := { w with due := 0 })
  have hbegun := World.begun_callback (k := k) (w := { w with due := 0 })
  have hline := World.lines_callback (k := k) (w := { w with due := 0 })
  obtain ⟨slots, heq, hsubscription, hreadwrite⟩ := World.callback_eq k { w with due := 0 }
  rw [heq] at hreceivedNil hbegun hline ⊢
  refine ⟨?_, ?_, ?_, fun _ _ => ?_, fun _ => rfl, Nat.zero_le _, ?_, ?_, ?_⟩
  · rw [World.subscribed, hsubscription]
    exact h.subscribed
  · simp [hstack, Pc.calls]
  · simp [hstack]
  · simp [World.shared, hreadwrite hk]
  · rw [received_append, begun_append, hreceivedNil, hbegun, hreceived]
    simp
  · rw [lines_append, begun_append, hline, hbegun, List.flatMap_append, ← hlines,
      List.append_assoc]
    simp [World.rest, text_eq]
  · simpa [hstack] using h.calm

lemma keeps_cons (h : InOrder tr w) {stack : List (ℕ × Pc)} (hstack : w.stack = (n, pc) :: stack)
    {p : ℕ × Pc} (hp : ∀ i ∈ p.2.calls, KeepsSubscribed i) :
    ∀ q ∈ p :: stack, ∀ i ∈ q.2.calls, KeepsSubscribed i := by
  intro q hq
  rcases List.mem_cons.mp hq with rfl | hq
  · exact hp
  · exact h.keeps q (by rw [hstack]; exact List.mem_cons_of_mem _ hq)

lemma line (h : InOrder tr w) {stack : List (ℕ × Pc)} (hstack : w.stack = (n, pc) :: stack)
    (hnext : pc.next w.packetRx = some r) :
    InOrder (tr ++ [.line n r.1]) { w with stack := (n, r.2) :: stack } := by
  have hne : w.stack ≠ [] := by simp [hstack]
  have hpc : w.receiving = false := by
    rw [World.receiving, hstack]
    cases pc with
    | receiving ret calls => cases hnext
    | _ => rfl
  have hlines := h.lines
  rw [World.rest_cons hstack] at hlines
  refine ⟨h.subscribed, ?_, ?_, fun _ _ => h.closed hne hpc, fun _ => h.idle hne, h.due_le, ?_, ?_,
    by simpa using h.calm⟩
  · exact h.keeps_cons hstack (by simp [Pc.calls_of_next hnext])
  · simpa [hstack] using h.alone
  · exact h.received_of_quiet rfl rfl
  · have hline : RadioRx.lines [.line n r.1] = [r.1] := rfl
    have hnone : begun [.line n r.1] = [] := rfl
    rw [lines_append, begun_append, hline, hnone, List.append_nil, ← hlines,
      Pc.rest_of_next hnext, List.append_assoc]
    rfl

lemma lines_eq (h : InOrder tr w) {stack : List (ℕ × Pc)} (hstack : w.stack = (n, pc) :: stack)
    (hpc : pc.rest w.packetRx = []) : RadioRx.lines tr ++ [] = (begun tr).flatMap text := by
  have hlines := h.lines
  rwa [World.rest_cons hstack, hpc] at hlines

lemma receive (h : InOrder tr w) {stack : List (ℕ × Pc)}
    (hstack : w.stack = (n, .receive) :: stack) :
    InOrder tr
      { w with
        stack := (n, .receiving (World.receive packetRx k).1 (World.receive packetRx k).2) ::
          stack } where
  subscribed := h.subscribed
  keeps := h.keeps_cons hstack fun _ hi => keepsSubscribed_of_mem hi
  alone := by simpa [hstack] using h.alone
  closed _ hr := by cases hr
  idle _ := h.idle (by simp [hstack])
  due_le := h.due_le
  received := h.received
  lines := h.lines_eq hstack rfl
  calm := h.calm

lemma issue (h : InOrder tr w) {ret : ℤ} {calls : List (Issued Unit Region)}
    {stack : List (ℕ × Pc)} (hstack : w.stack = (n, .receiving ret (i :: calls)) :: stack) :
    InOrder tr { w.issue i with stack := (n, .receiving ret calls) :: stack } := by
  have hkeeps : ∀ j ∈ i :: calls, KeepsSubscribed j :=
    h.keeps (n, .receiving ret (i :: calls)) (by simp [hstack])
  have hdue : (w.issue i).due = w.due := by
    have hidle := h.idle (by simp [hstack])
    rcases World.issue_due (w := w) (i := i) with heq | heq
    · exact heq
    · exact heq.trans hidle.symm
  refine
    { subscribed := hkeeps i List.mem_cons_self w h.subscribed
      keeps := h.keeps_cons hstack fun j hj => hkeeps j (List.mem_cons_of_mem _ hj)
      alone := by simpa [hstack] using h.alone
      closed := fun _ hr => by cases hr
      idle := fun _ => hdue.trans (h.idle (by simp [hstack]))
      due_le := hdue.trans_le h.due_le
      received := ?_
      lines := h.lines_eq hstack rfl
      calm := h.calm }
  rw [hdue]
  exact h.received

lemma ended (h : InOrder tr w) {ret : ℤ} {stack : List (ℕ × Pc)}
    (hstack : w.stack = (n, .receiving ret []) :: stack) :
    InOrder (tr ++ [.ended n ret]) { w with stack } := by
  obtain rfl : stack = [] := by simpa [hstack] using h.alone
  refine
    { subscribed := h.subscribed
      keeps := by simp
      alone := Nat.zero_le _
      closed := fun hne => absurd rfl hne
      idle := fun hne => absurd rfl hne
      due_le := h.due_le
      received := h.received_of_quiet rfl rfl
      lines := ?_
      calm := by simpa using h.calm }
  have hnone : RadioRx.lines [.ended n ret] = [] := rfl
  have hnone' : begun [.ended n ret] = [] := rfl
  rw [lines_append, begun_append, hnone, hnone', List.append_nil, List.append_nil]
  exact h.lines_eq hstack rfl

lemma missed (h : InOrder tr w) : InOrder (tr ++ [.missed g]) w := by
  refine
    { h with
      received := h.received_of_quiet rfl rfl
      lines := ?_
      calm := by simpa using h.calm }
  have hnone : RadioRx.lines [.missed g] = [] := rfl
  have hnone' : begun [.missed g] = [] := rfl
  rw [lines_append, begun_append, hnone, hnone', List.append_nil, List.append_nil]
  exact h.lines

lemma step (h : InOrder tr w) (hstep : Guarded (World.Step packetRx) World.Spaced w a w' es) :
    InOrder (tr ++ es) w' := by
  obtain ⟨hspaced, hstep⟩ := hstep
  cases hstep.transition with
  | received g hshared =>
    obtain ⟨hdue, hreceiving⟩ := hspaced hshared
    exact h.received_frame hshared hdue hreceiving
  | missed g _ => exact h.missed
  | upcall k hdue _ => exact h.callback hdue hspaced
  | line k hstack hnext => exact h.line hstack hnext
  | receive k hstack =>
    rw [List.append_nil]
    exact h.receive hstack
  | issue k hstack =>
    rw [List.append_nil]
    exact h.issue hstack
  | ended k hstack => exact h.ended hstack

end InOrder

lemma inOrder_boot (hk : (World.receive packetRx k).1 = returncodeSuccess) :
    InOrder [] (World.boot packetRx k f) := by
  obtain ⟨hstack, -, hdue⟩ :=
    World.foldl_issue (World.receive packetRx k).2 ⟨f, .empty, 0, [], 0⟩
  have hstack : (World.boot packetRx k f).stack = [] := hstack
  have hdue : (World.boot packetRx k f).due = 0 := hdue rfl
  exact
    { subscribed := subscribed_boot hk
      keeps := by simp [hstack]
      alone := by simp [hstack]
      closed := fun hne => absurd hstack hne
      idle := fun hne => absurd hstack hne
      due_le := by simp [hdue]
      received := by simp [hdue, received, begun]
      lines := by simp [World.rest_nil hstack, lines, begun]
      calm := by simp }

/-! ### All callbacks come to an end -/

/-- A bound for the steps that a callback still takes. -/
def Pc.size : Pc → ℕ
  | payload length _ i => (length - i).toNat + 9
  | dstPan => 8
  | dstAddr => 7
  | srcPan => 6
  | srcAddr => 5
  | receive => 4
  | receiving _ calls => calls.length + 1

lemma Pc.size_lt_of_next (h : pc.next f = some r) : r.2.size < pc.size := by
  cases pc with
  | payload length offset i =>
    rw [next] at h
    split at h
    · next hc =>
      cases h
      simp only [size]
      omega
    · cases h
      simp only [size]
      omega
  | receive | receiving _ _ => cases h
  | _ =>
    cases h
    exact Nat.lt_succ_self _

lemma length_receive_le (packetRx : Ptr) (k : Kernel) :
    (World.receive packetRx k).2.length ≤ 2 := by
  cases hrw : k.allowReadwrite radioDriver allowRx with
  | accepted => simp [World.receive_of_accepted hrw]
  | refused e => simp [World.receive_of_refused hrw]

namespace World

/-- A bound for the steps that the callbacks in progress still take. -/
def size (w : World) : ℕ := (w.stack.map fun p => p.2.size).sum

/-- The innermost callback can always go on. -/
lemma exists_run (packetRx : Ptr) (k : Kernel) {w : World} (h : w.stack ≠ []) :
    ∃ w' es, w.Step packetRx (.run k) w' es ∧ received es = [] ∧ w'.due ≤ w.due ∧
      w'.size < w.size := by
  obtain ⟨⟨n, pc⟩, stack, hstack⟩ := List.exists_cons_of_ne_nil h
  have hsize : w.size = pc.size + (stack.map fun p => p.2.size).sum := by
    rw [size, hstack, List.map_cons, List.sum_cons]
  cases hnext : pc.next w.packetRx with
  | some r =>
    refine ⟨{ w with stack := (n, r.2) :: stack }, [.line n r.1], ?_, rfl, le_rfl, ?_⟩
    · cases pc with
      | receive | receiving _ _ => cases hnext
      | _ => simp only [Step, exec, hstack, hnext, Option.map_some]
    · rw [hsize, size, List.map_cons, List.sum_cons]
      exact Nat.add_lt_add_right (Pc.size_lt_of_next hnext) _
  | none =>
    cases pc with
    | receive =>
      refine ⟨{ w with stack := (n, .receiving (receive packetRx k).1 (receive packetRx k).2) ::
        stack }, [], by simp only [Step, exec, hstack], rfl, le_rfl, ?_⟩
      rw [hsize, size, List.map_cons, List.sum_cons]
      have hle := length_receive_le packetRx k
      simp only [Pc.size]
      omega
    | receiving ret calls =>
      cases calls with
      | nil =>
        refine ⟨{ w with stack }, [.ended n ret], by simp only [Step, exec, hstack], rfl, le_rfl,
          ?_⟩
        rw [hsize, size]
        simp only [Pc.size]
        omega
      | cons i calls =>
        refine ⟨{ w.issue i with stack := (n, .receiving ret calls) :: stack }, [],
          by simp only [Step, exec, hstack], rfl, ?_, ?_⟩
        · rcases issue_due (w := w) (i := i) with heq | heq
          · exact heq.le
          · exact heq.trans_le (Nat.zero_le _)
        · rw [hsize, size, List.map_cons, List.sum_cons]
          simp only [Pc.size, List.length_cons]
          omega
    | payload length offset i =>
      rw [Pc.next] at hnext
      split at hnext <;> cases hnext
    | _ => cases hnext

/-- The callbacks in progress come to an end. -/
lemma exists_returned (packetRx : Ptr) (w : World) :
    ∃ es w', Run (Guarded (Step packetRx) Spaced) w es w' ∧ received es = [] ∧
      w'.due ≤ w.due ∧ w'.stack = [] := by
  induction hn : w.size using Nat.strong_induction_on generalizing w with
  | _ n ih =>
    by_cases hstack : w.stack = []
    · exact ⟨[], w, .nil, rfl, le_rfl, hstack⟩
    · obtain ⟨w₁, es₁, hstep, hreceived, hdue, hsize⟩ :=
        exists_run packetRx (.steady .accepted .success) hstack
      obtain ⟨es₂, w₂, hrun, hreceived', hdue', hstack'⟩ := ih w₁.size (by omega) w₁ rfl
      have hspaced : w.Spaced (.run (.steady .accepted .success)) := trivial
      refine ⟨es₁ ++ es₂, w₂, (Run.single ⟨hspaced, hstep⟩).trans hrun, ?_, hdue'.trans hdue,
        hstack'⟩
      rw [received_append, hreceived, hreceived']
      rfl

/-- So do those that are due. -/
lemma exists_idle (packetRx : Ptr) (w : World) :
    ∃ es w', Run (Guarded (Step packetRx) Spaced) w es w' ∧ received es = [] ∧
      w'.due = 0 ∧ w'.stack = [] := by
  induction hn : w.due using Nat.strong_induction_on generalizing w with
  | _ n ih =>
    obtain ⟨es₁, w₁, hrun, hreceived, hdue, hstack⟩ := exists_returned packetRx w
    cases hdue₁ : w₁.due with
    | zero => exact ⟨es₁, w₁, hrun, hreceived, hdue₁, hstack⟩
    | succ due =>
      have hstep : w₁.Step packetRx (.upcall (.steady .accepted .success))
          (callback (.steady .accepted .success) { w₁ with due }).1
          (callback (.steady .accepted .success) { w₁ with due }).2 := by
        simp [Step, exec, hdue₁, receiving, hstack]
      obtain ⟨es₂, w₂, hrun', hreceived', hdue', hstack'⟩ :=
        ih due (by omega) (callback (.steady .accepted .success) { w₁ with due }).1 rfl
      have hspaced : w₁.Spaced (.upcall (.steady .accepted .success)) := rfl
      refine ⟨es₁ ++ (_ ++ es₂), w₂, hrun.trans ((Run.single ⟨hspaced, hstep⟩).trans hrun'), ?_,
        hdue', hstack'⟩
      rw [received_append, received_append, hreceived, received_callback, hreceived']
      rfl

end World

/-- Where `ieee802154_receive` has succeeded in `main` and the frames come one at a time: no
callback is interrupted, what is printed is the texts about the frames that came into the buffer,
one after the other, and if no others come all of them are printed. -/
theorem spaced_frames_printed_in_order (hk : (World.receive packetRx k).1 = returncodeSuccess)
    (h : Run (Guarded (World.Step packetRx) World.Spaced) (World.boot packetRx k f) tr w) :
    (∀ n, .interrupted n ∉ tr) ∧ lines tr <+: (received tr).flatMap text ∧
      ∃ es w', Run (Guarded (World.Step packetRx) World.Spaced) w es w' ∧ received es = [] ∧
        lines (tr ++ es) = (received tr).flatMap text := by
  have hinv : InOrder tr w :=
    h.trace_invariant InOrder (fun _ _ _ _ _ hI hstep => hI.step hstep) (inOrder_boot hk)
  refine ⟨hinv.calm, ?_, ?_⟩
  · have hbegun : lines tr <+: (begun tr).flatMap text := hinv.lines ▸ List.prefix_append _ _
    rw [hinv.received, List.flatMap_append]
    exact hbegun.trans (List.prefix_append _ _)
  · obtain ⟨es, w', hrun, hreceived, hdue, hstack⟩ := w.exists_idle packetRx
    have hinv' : InOrder (tr ++ es) w' :=
      (h.trans hrun).trace_invariant InOrder (fun _ _ _ _ _ hI hstep => hI.step hstep)
        (inOrder_boot hk)
    have hall : received tr = begun (tr ++ es) := by
      have heq := hinv'.received
      rwa [received_append, hreceived, hdue, List.append_nil, List.replicate_zero,
        List.append_nil] at heq
    have hlines := hinv'.lines
    rw [World.rest_nil hstack, List.append_nil] at hlines
    exact ⟨es, w', hrun, hreceived, hlines.trans (by rw [hall])⟩

/-- Three frames come, the second one while the first is being printed. -/
theorem spaced_frames_printed_in_order_three : ∃ tr w,
    Run (Guarded (World.Step 0) World.Spaced)
      (World.boot 0 (.steady .accepted .success) (short 0)) tr w ∧
      ((received tr).length = 2 ∧ (lines tr).length = 8) ∧
      lines tr <+: (received tr).flatMap text := by
  have hplay : (play (restrict (World.exec 0) World.Spaced)
      (World.boot 0 (.steady .accepted .success) (short 0))
      ([.frame (short 65), .upcall (.steady .accepted .success), .frame (short 66)] ++
        List.replicate 10 (.run (.steady .accepted .success)) ++
        [.frame (short 67), .upcall (.steady .accepted .success)])).any (fun r =>
      decide ((received r.2).length = 2) && decide ((lines r.2).length = 8)) = true := by
    decide +kernel
  obtain ⟨tr, w, hrun, htest⟩ :=
    Run.of_play_restrict_any (fun _ _ _ _ => World.step_of_exec) _ hplay
  simp only [Bool.and_eq_true, decide_eq_true_eq] at htest
  exact ⟨tr, w, hrun, htest, (spaced_frames_printed_in_order rfl hrun).2.1⟩

end RadioRx
