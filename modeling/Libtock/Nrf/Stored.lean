import Libtock.Nrf.Invariant
import Libtock.Nrf.Loop

/-!
# The packets that are kept are well formed

If the loop never comes to a packet of length 0, every packet that is kept has between 1 byte and as
many as fit in a buffer behind the length, so that it can be announced.
-/

namespace Nrf

open Core

variable {c : Headers} {w w' : World} {a : Action} {es : List Event}

/-- The step is not a round of the loop that handles an empty packet. -/
def World.NoEmpty (c : Headers) (w : World) (a : Action) : Prop := w.handled c a ≠ some 0

instance (c : Headers) (w : World) (a : Action) : Decidable (w.NoEmpty c a) :=
  inferInstanceAs (Decidable (_ ≠ _))

/-- Every packet that is kept has a length of which this holds. -/
def Kept.AllLengths (P : ℕ → Prop) (k : Kept) : Prop :=
  (∀ p ∈ k.rsp, P p.length) ∧ ∀ p ∈ k.events, P p.length

lemma World.NoEmpty.bounds {n : ℕ} (hne : w.NoEmpty c a) (h : w.handled c a = some n) :
    1 ≤ n ∧ n + serPhyHeaderSize ≤ c.rxMaxPktSize := by
  constructor
  · rcases Nat.eq_zero_or_pos n with rfl | hpos
    · exact absurd h hne
    · exact hpos
  · cases a with
    | resume busy =>
      simp only [handled] at h
      split at h
      · split_ifs at h with hfits
        cases h
        exact hfits.2.1
      · cases h
    | _ => cases h

/-- A packet that is stored is one that the loop handles. -/
lemma handled_of_stored (hinv : Inv w.state.toReceive w.ask) (hstep : w.step c a = some (w', es))
    {src : Source} {p : List U8} (h : (src, p) ∈ stored es) : w.handled c a = some p.length := by
  cases step_effect hinv.handler hstep with
  | other hreceive hask hstored => simp [hstored] at h
  | grant q ha hreceive hask hes => simp [hes, stored] at h
  | storeRsp buf hhandled hfree hreceive hask hstored =>
    rw [hstored] at h
    cases List.mem_singleton.mp h
    exact hhandled
  | storeEvent buf hhandled hroom hreceive hask hstored =>
    rw [hstored] at h
    cases List.mem_singleton.mp h
    exact hhandled
  | request hidle hheld hreceive hask hes => simp [hes, stored] at h
  | deliver q hwakes hhal hreceive hask hes => simp [hes, stored] at h
  | drop hwakes hhal hreceive hask hes => simp [hes, stored] at h

/-- The lengths of the packets that are kept are those of packets stored. -/
lemma Kept.AllLengths.moves {P : ℕ → Prop} {k k' : Kept} {ins outs : List (Source × List U8)}
    (h : k.AllLengths P) (hmoves : Moves k k' ins outs)
    (hins : ∀ src p, (src, p) ∈ ins → P p.length) : k'.AllLengths P := by
  cases hmoves with
  | nothing hkept => rwa [hkept]
  | storeRsp p hfree hkept hstored =>
    rw [hkept]
    refine ⟨?_, h.2⟩
    rintro q ⟨⟩
    exact hins .rsp p (by simp [hstored])
  | storeEvent slot p hkept hstored =>
    rw [hkept]
    refine ⟨h.1, ?_⟩
    intro q hq
    rcases List.mem_append.mp hq with hold | hnew
    · exact h.2 q hold
    · rw [List.mem_singleton.mp hnew]
      exact hins (.event slot) p (by simp [hstored])
  | deliverRsp p hrsp hkept =>
    rw [hkept]
    refine ⟨?_, h.2⟩
    rintro q ⟨⟩
  | deliverEvent slot p hevents hrsp =>
    refine ⟨by rw [hrsp]; exact h.1, ?_⟩
    intro q hq
    apply h.2
    rw [hevents]
    exact List.mem_cons_of_mem p hq

/-- Undisturbed, the loop ends for all that can be received. It comes to the leading run of packets,
keeps them while there is room and reads nothing else, if and only if no empty packet follows the
run. And in every run in which a buffer is set once for each request and no empty packet is handled,
the packets that are kept have lengths in bounds. -/
theorem parser_keeps_packets (c : Headers) :
    (∀ (rxLen : ℤ) (w : World) (stack : List Frame), rxLen ≤ c.rxMaxPktSize → w.state.Indices →
      w.stack = .loop rxLen 0 :: stack →
      ∃ tr w', LoopEnds c w tr w' ∧
        (∀ tr₁ w₁, Run (Guarded (World.Step c) fun w a => w.loopGoesOn a) w tr₁ w₁ →
          ∃ rest, Run (Guarded (World.Step c) fun w a => w.loopGoesOn a) w₁ rest w' ∧
            tr = tr₁ ++ rest) ∧
        (Parses c rxLen w w' tr ↔
          ¬ EmptyFirst (Framing.split packetHeader (rest w.state.rx rxLen 0)).2)) ∧
    ∀ (rx : Buffer) (tr : List Event) (w : World),
      Run (Guarded (World.Step c) fun w a => w.oneGrant a ∧ w.NoEmpty c a) (World.initial rx) tr w →
      w.state.kept.AllLengths fun n => 1 ≤ n ∧ n + serPhyHeaderSize ≤ c.rxMaxPktSize := by
  constructor
  · exact fun rxLen w stack hmax hindices hstack => loop_spec hmax hindices hstack
  · intro rx tr w hrun
    have hinv : Inv w.state.toReceive w.ask ∧
        w.state.kept.AllLengths fun n => 1 ≤ n ∧ n + serPhyHeaderSize ≤ c.rxMaxPktSize := by
      apply hrun.trace_invariant (fun _ w => Inv w.state.toReceive w.ask ∧
        w.state.kept.AllLengths fun n => 1 ≤ n ∧ n + serPhyHeaderSize ≤ c.rxMaxPktSize)
      · rintro tr w a w' es ⟨hinv, h⟩ ⟨⟨hone, hne⟩, hstep⟩
        refine ⟨hinv.step hone hstep, h.moves (hinv.moves hstep) ?_⟩
        exact fun src p hp => hne.bounds (handled_of_stored hinv hstep hp)
      · refine ⟨initial_inv rx, ?_⟩
        rw [initial_kept]
        constructor
        · intro p hp
          cases hp
        · intro p hp
          cases hp
    exact hinv.2

/-- An event of two bytes is kept; the byte behind it is no header. -/
theorem parser_keeps_packets_event :
    (∃ tr w', Run (World.Step sampleHeaders) (World.initial (bufferOf [2, 0, 2, 7, 9])) []
        (World.upcalled (bufferOf [2, 0, 2, 7, 9]) 5) ∧
      LoopEnds sampleHeaders (World.upcalled (bufferOf [2, 0, 2, 7, 9]) 5) tr w' ∧
      Parses sampleHeaders 5 (World.upcalled (bufferOf [2, 0, 2, 7, 9]) 5) w' tr) ∧
    ∃ tr w, Run (Guarded (World.Step sampleHeaders) fun w a =>
        w.oneGrant a ∧ w.NoEmpty sampleHeaders a) (World.initial (bufferOf [2, 0, 2, 7, 9])) tr w ∧
      w.state.kept.events = [[2, 7]] ∧
      w.state.kept.AllLengths fun n =>
        1 ≤ n ∧ n + serPhyHeaderSize ≤ sampleHeaders.rxMaxPktSize := by
  constructor
  · obtain ⟨tr, w', hends, -, hiff⟩ := (parser_keeps_packets sampleHeaders).1 5
      (World.upcalled (bufferOf [2, 0, 2, 7, 9]) 5) [.app] (by decide) (World.indices_upcalled _ _) rfl
    refine ⟨tr, w', World.run_upcalled _ _ _, hends, hiff.mpr ?_⟩
    intro hempty
    have hsplit : (Framing.split packetHeader
        (rest (World.upcalled (bufferOf [2, 0, 2, 7, 9]) 5).state.rx 5 0)).2 = [9] := by
      rw [Framing.split_of_starts (by decide), Framing.split_of_not_starts (by decide)]
      rfl
    rw [hsplit] at hempty
    exact absurd hempty.1 (by decide)
  · have hrun := World.run_of_guarded
      (P := fun w a => w.oneGrant a ∧ w.NoEmpty sampleHeaders a)
      (w := World.initial (bufferOf [2, 0, 2, 7, 9])) (c := sampleHeaders)
      [.upcall 4 5, .resume false, .resume false] rfl
    exact ⟨_, _, hrun, by decide, (parser_keeps_packets sampleHeaders).2 _ _ _ hrun⟩

-- `printf` waits with `rx` shared: a second response is refused, and what the kernel has filled in
-- meanwhile is read as an event that nobody sent, in place of the event that was sent.
example : (play (World.guarded sampleHeaders fun w a => w.oneGrant a ∧ w.NoEmpty sampleHeaders a)
    (World.initial (bufferOf [1, 0, 1, 1, 0, 1, 2, 0, 2, 7]))
    [.upcall 4 10, .resume false, .resume false, .fill (bufferOf [7, 0, 9, 0, 0, 0, 1, 0, 2]),
      .resume false, .resume false]).map (fun r => r.1.state.kept.events) = some [[2]] := rfl

/-- A length of 0 makes an empty packet, whose type is read behind what was received. -/
theorem empty_packet_kept :
    (¬ ∀ (rxLen : ℤ) (w : World) (stack : List Frame), rxLen ≤ sampleHeaders.rxMaxPktSize →
      w.state.Indices → w.stack = .loop rxLen 0 :: stack →
      ∃ tr w', LoopEnds sampleHeaders w tr w' ∧ Parses sampleHeaders rxLen w w' tr) ∧
    ∃ tr w, Run (Guarded (World.Step sampleHeaders) fun w a => w.oneGrant a)
      (World.initial (bufferOf [0, 0, 2])) tr w ∧ w.state.kept.events = [[]] := by
  constructor
  · intro h
    obtain ⟨tr, w', hends, hparses⟩ :=
      h 2 (World.upcalled (bufferOf [0, 0, 2]) 2) [.app] (by decide) (World.indices_upcalled _ _) rfl
    have hrun := World.run_of_guarded (P := fun w a => w.loopGoesOn a)
      (w := World.upcalled (bufferOf [0, 0, 2]) 2) (c := sampleHeaders) [.resume false] rfl
    obtain ⟨rfl, -⟩ := hends.unique ⟨hrun, rfl⟩
    have hnone : (Framing.split packetHeader
        (rest (World.upcalled (bufferOf [0, 0, 2]) 2).state.rx 2 0)).1 = [] := by
      rw [Framing.split_of_not_starts (by decide)]
    have hpackets := hparses.packets
    rw [hnone] at hpackets
    cases hpackets
  · have hrun := World.run_of_guarded (P := fun w a => w.oneGrant a)
      (w := World.initial (bufferOf [0, 0, 2])) (c := sampleHeaders)
      [.upcall 4 2, .resume false] rfl
    exact ⟨_, _, hrun, by decide⟩

end Nrf
