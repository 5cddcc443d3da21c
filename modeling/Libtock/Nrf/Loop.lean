import Libtock.Nrf.Effect

/-!
# The packet loop in a run

The loop goes on round by round. Where it has called `printf` the kernel may fill `rx` again and
call the callback on top of it; as long as that does not happen, the loop comes to its end, and does
what it should unless it meets a packet of length 0.
-/

namespace Nrf

open Core

/-- The step is one of the packet loop: its next round, or the return of the `printf` it called. -/
def World.loopGoesOn (w : World) : Action → Bool
  | .resume _ =>
    match w.stack.head? with
    | some (.loop _ _) => true
    | some .printf => true
    | _ => false
  | _ => false

/-- The packet loop, undisturbed, has come to its end: the part of the callback behind it is next. -/
def LoopEnds (c : Headers) (w : World) (tr : List Event) (w' : World) : Prop :=
  Run (Guarded (World.Step c) fun w a => w.loopGoesOn a) w tr w' ∧
    w'.stack = .announce :: w.stack.tail

/-- The world with other bytes in `rx`. -/
def World.withRx (w : World) (rx : Buffer) : World := { w with state := { w.state with rx := rx } }

/-- What the packet loop should do with what was received: it comes to the packets of the leading
run, in order, keeps each for which there is room, and reads nothing else. -/
structure Parses (c : Headers) (rxLen : ℤ) (w w' : World) (tr : List Event) : Prop where
  packets : packets tr = (Framing.split packetHeader (rest w.state.rx rxLen 0)).1
  kept : w'.state.kept = (Nrf.packets tr).foldl (Kept.keep c) w.state.kept
  congr : ∀ rx : Buffer, (∀ i : ℕ, (i : ℤ) < rxLen → rx i = w.state.rx i) →
    LoopEnds c (w.withRx rx) tr (w'.withRx rx)

variable {c : Headers} {w : World} {rxLen : ℤ} {o : ℕ} {s s' : State}
  {es : List Event} {stack : List Frame}

/-- Behind a packet comes its `printf`, if it is refused, and then the next round, unless all has
been read. -/
lemma loopRound_frames {n : ℕ} (h : Fits c rxLen o s) (hn : (readLength s.rx o).toNat = n) :
    ∃ front, (front = [] ∨ front = [Frame.printf]) ∧ (World.loopRound c rxLen o s).2.1 =
      front ++ [if rxLen ≤ (o + (n + serPhyHeaderSize) : ℕ) then .announce
        else .loop rxLen (o + (n + serPhyHeaderSize))] := by
  rw [World.loopRound, round_of_fits h hn]
  generalize Event.packet _ :: _ = es
  refine ⟨if Event.printf ∈ es then [.printf] else [], ?_, ?_⟩
  · split_ifs
    · exact .inr rfl
    · exact .inl rfl
  · by_cases hend : rxLen ≤ (o + (n + serPhyHeaderSize) : ℕ)
    · rw [if_pos hend, if_pos hend]
    · rw [if_neg hend, if_neg hend]

/-- The rounds of the loop are taken one by one, and no callback comes in between. -/
lemma Loops.run (h : Loops c rxLen o s s' es) (stack : List Frame) (ask : Ask) :
    Run (Guarded (World.Step c) fun w a => w.loopGoesOn a) ⟨s, .loop rxLen o :: stack, ask⟩ es
      ⟨s', .announce :: stack, ask⟩ := by
  induction h with
  | @stop o s h =>
    refine Run.single (a := .resume false) ⟨rfl, ?_⟩
    simp only [World.Step, World.step, World.loopRound, round_of_not_fits h]
    rfl
  | @next o n s s' es h hn hnext ih =>
    obtain ⟨front, hfront, hframes⟩ := loopRound_frames h hn
    obtain ⟨hstate, hes⟩ := loopRound_of_fits h hn
    generalize hframe : (if rxLen ≤ (o + (n + serPhyHeaderSize) : ℕ) then Frame.announce
      else .loop rxLen (o + (n + serPhyHeaderSize))) = frame at hframes
    have hround : World.Step c ⟨s, .loop rxLen o :: stack, ask⟩ (.resume false)
        ⟨(storePacket c o (n + serPhyHeaderSize) s).1, front ++ frame :: stack, ask⟩
        (.packet (slice s.rx (o + serPhyHeaderSize) n) ::
          (storePacket c o (n + serPhyHeaderSize) s).2) := by
      simp only [World.Step, World.step, World.after, hstate, hes, hframes, List.append_assoc,
        List.singleton_append]
      exact congrArg (fun a => some (World.mk _ _ a, _)) (foldl_tell (reports_storePacket ..) ask)
    have hprintf : Run (Guarded (World.Step c) fun w a => w.loopGoesOn a)
        ⟨(storePacket c o (n + serPhyHeaderSize) s).1, front ++ frame :: stack, ask⟩ []
        ⟨(storePacket c o (n + serPhyHeaderSize) s).1, frame :: stack, ask⟩ := by
      rcases hfront with rfl | rfl
      · exact .nil
      · exact Run.single (a := Action.resume false) ⟨rfl, rfl⟩
    have hrest : Run (Guarded (World.Step c) fun w a => w.loopGoesOn a)
        ⟨(storePacket c o (n + serPhyHeaderSize) s).1, frame :: stack, ask⟩ es
        ⟨s', .announce :: stack, ask⟩ := by
      split_ifs at hframe with hend
      · -- the loop has read everything, so that it would do nothing in the next round either
        subst hframe
        cases hnext with
        | stop h => exact .nil
        | next h => exact absurd h (not_fits_of_le hend)
      · subst hframe
        exact ih
    exact (Run.single ⟨rfl, hround⟩).trans (hprintf.trans hrest)

/-- Undisturbed, the loop is deterministic. -/
lemma loopGoesOn_det (c : Headers) (w : World) (a : Action) (w₁ : World) (es₁ : List Event)
    (b : Action) (w₂ : World) (es₂ : List Event) :
    Guarded (World.Step c) (fun w a => w.loopGoesOn a) w a w₁ es₁ →
      Guarded (World.Step c) (fun w a => w.loopGoesOn a) w b w₂ es₂ → w₁ = w₂ ∧ es₁ = es₂ := by
  rintro ⟨hguard₁, hstep₁⟩ ⟨hguard₂, hstep₂⟩
  have hsame : w.step c a = w.step c b := by
    cases a with
    | resume busy =>
      cases b with
      | resume busy' =>
        obtain ⟨s, stack, ask⟩ := w
        rcases stack with - | ⟨frame, stack⟩
        · rfl
        · cases frame with
          | loop rxLen offset => rfl
          | printf => rfl
          | _ => cases hguard₁
      | _ => cases hguard₂
    | _ => cases hguard₁
  exact Prod.mk.inj (Option.some.inj (hstep₁.symm.trans (hsame.trans hstep₂)))

/-- Where the part behind it is next, the loop does not go on. -/
lemma not_loopGoesOn (h : w.stack = .announce :: stack) (a : Action) (w' : World)
    (es : List Event) : ¬ Guarded (World.Step c) (fun w a => w.loopGoesOn a) w a w' es := by
  rintro ⟨hguard, -⟩
  cases a with
  | resume busy => simp only [World.loopGoesOn, h, List.head?_cons, Bool.false_eq_true] at hguard
  | _ => cases hguard

/-- There is one way in which the loop comes to its end. -/
lemma LoopEnds.unique {tr₁ tr₂ : List Event} {w₁ w₂ : World} (h₁ : LoopEnds c w tr₁ w₁)
    (h₂ : LoopEnds c w tr₂ w₂) : tr₁ = tr₂ ∧ w₁ = w₂ := by
  obtain ⟨rest, hrest, rfl⟩ := h₁.1.extend (loopGoesOn_det c) h₂.1 (not_loopGoesOn h₂.2)
  rcases hrest.head with ⟨rfl, rfl⟩ | ⟨a, w', es, es', hstep, -⟩
  · exact ⟨(List.append_nil _).symm, rfl⟩
  · exact absurd hstep (not_loopGoesOn h₁.2 a w' es)

/-- The loop ends, and does what it should if and only if no empty packet follows the leading run
of packets. -/
lemma loop_spec (hmax : rxLen ≤ c.rxMaxPktSize) (hindices : w.state.Indices)
    (hstack : w.stack = .loop rxLen 0 :: stack) :
    ∃ tr w', LoopEnds c w tr w' ∧
      (∀ tr₁ w₁, Run (Guarded (World.Step c) fun w a => w.loopGoesOn a) w tr₁ w₁ →
        ∃ rest, Run (Guarded (World.Step c) fun w a => w.loopGoesOn a) w₁ rest w' ∧
          tr = tr₁ ++ rest) ∧
      (Parses c rxLen w w' tr ↔
        ¬ EmptyFirst (Framing.split packetHeader (rest w.state.rx rxLen 0)).2) := by
  obtain ⟨s, stack', ask⟩ := w
  obtain rfl : stack' = _ := hstack
  obtain ⟨s', es, h⟩ := exists_loops c rxLen 0 s
  have hrun := h.run stack ask
  refine ⟨es, ⟨s', .announce :: stack, ask⟩, ⟨hrun, rfl⟩, ?_, ?_⟩
  · exact fun tr₁ w₁ hrun₁ => hrun₁.extend (loopGoesOn_det c) hrun (not_loopGoesOn rfl)
  · constructor
    · intro hparses hempty
      exact h.packets_ne hmax hempty hparses.packets
    · intro hne
      obtain ⟨hpackets, hkept⟩ := h.packets_eq hmax hindices hne
      exact ⟨hpackets, hkept, fun rx hrx =>
        ⟨(h.congr (fun i _ => hrx i) hne).run stack ask, rfl⟩⟩

end Nrf
