import Libtock.Core.Bytes
import Libtock.Ipc.Leds

/-!
# The lamps that are lit are those that were drawn

At any time one process is at work for the client: the client itself, or the service it has asked.
So every pair of random bytes is drawn once and switches one lamp, in order, and a buffer is only
touched by the process whose turn it is. The system comes to a stop exactly if a notification was
lost or the board has no lamps.
-/

namespace Ipc.Leds

open Core

variable {n : Byte} {tr es : List Event} {w w' : World} {f : Function} {s : Service}
  {ds : List (List Byte)} {ls : List (Byte × Bool)} {e : Event}

/-! ### Traces -/

@[simp] lemma draws_append : draws (tr ++ es) = draws tr ++ draws es := by simp [draws]

@[simp] lemma lits_append : lits (tr ++ es) = lits tr ++ lits es := by simp [lits]

@[simp] lemma draws_singleton :
    draws [e] = match e with
      | .drew bytes => [bytes]
      | _ => [] := by
  cases e <;> rfl

@[simp] lemma lits_singleton :
    lits [e] = match e with
      | .lit ledId on => [(ledId, on)]
      | _ => [] := by
  cases e <;> rfl

@[simp] lemma serves_concat : serves s (tr ++ [e]) =
    if e = .asked s then true else if e = .answered s then false else serves s tr := by
  rw [serves, List.foldl_append, List.foldl_cons, List.foldl_nil, ← serves]

/-- The second byte of the buffer after these draws. -/
def second (ds : List (List Byte)) : Byte := (pairs ds).getLast?.elim 0 Prod.snd

lemma pairs_concat (ds : List (List Byte)) (bytes : List Byte) :
    pairs (ds ++ [bytes]) = pairs ds ++ [(bytes.getD 0 2, bytes.getD 1 (second ds))] := by
  rw [pairs, List.foldl_append, List.foldl_cons, List.foldl_nil, ← pairs, second]

lemma length_pairs (ds : List (List Byte)) : (pairs ds).length = ds.length := by
  induction ds using List.reverseRecOn with
  | nil => rfl
  | append_singleton ds bytes ih =>
    rw [pairs_concat, List.length_append, List.length_append, ih]
    rfl

/-- Every draw has switched its lamp. -/
def Settled (n : Byte) (ds : List (List Byte)) (ls : List (Byte × Bool)) : Prop :=
  ls = (pairs ds).map (wanted n)

/-- Every draw but the last, which gave `p`. -/
def Owing (n : Byte) (ds : List (List Byte)) (ls : List (Byte × Bool)) (p : Byte × Byte) : Prop :=
  ∃ ps, pairs ds = ps ++ [p] ∧ ls = ps.map (wanted n)

lemma Settled.draw (h : Settled n ds ls) (bytes : List Byte) :
    Owing n (ds ++ [bytes]) ls (bytes.getD 0 2, bytes.getD 1 (second ds)) :=
  ⟨pairs ds, pairs_concat ds bytes, h⟩

lemma Owing.light {p : Byte × Byte} (h : Owing n ds ls p) : Settled n ds (ls ++ [wanted n p]) := by
  obtain ⟨ps, hps, rfl⟩ := h
  rw [Settled, hps, List.map_append, List.map_singleton]

lemma Owing.second_eq {p : Byte × Byte} (h : Owing n ds ls p) : second ds = p.2 := by
  obtain ⟨ps, hps, -⟩ := h
  rw [second, hps, List.getLast?_concat]
  rfl

/-- All lamps that were switched were drawn, and at most the last draw is still to be switched. -/
def InTurn (n : Byte) (ds : List (List Byte)) (ls : List (Byte × Bool)) : Prop :=
  Settled n ds ls ∨ ∃ p, Owing n ds ls p

lemma InTurn.prefix_and_le (h : InTurn n ds ls) :
    ls <+: (pairs ds).map (wanted n) ∧ ds.length ≤ ls.length + 1 := by
  rcases h with h | ⟨p, ps, hps, hls⟩
  · rw [Settled] at h
    refine ⟨h ▸ List.prefix_refl _, ?_⟩
    rw [h, List.length_map, length_pairs]
    exact Nat.le_succ _
  · have hlen := length_pairs ds
    rw [hps, List.length_append, List.length_singleton] at hlen
    rw [hps, hls, List.map_append, List.length_map]
    exact ⟨List.prefix_append _ _, hlen.ge⟩

/-! ### What the functions of the client rely on -/

/-- What is to be done when a function asks its service. -/
def Due (n : Byte) (ds : List (List Byte)) (ls : List (Byte × Bool)) : Function → Prop
  | .getNumberOfLeds => ds = [] ∧ ls = []
  | .getTwoRandomBytes => Settled n ds ls
  | .setLed i st => ∃ p, Owing n ds ls p ∧ (i, decide (0 < st)) = wanted n p

/-- What has been done when the service has answered. -/
def Did (n : Byte) (ds : List (List Byte)) (ls : List (Byte × Bool)) (buf : ℕ → Byte) :
    Function → Prop
  | .getNumberOfLeds => (ds = [] ∧ ls = []) ∧ buf 0 = n
  | .getTwoRandomBytes => ∃ p, Owing n ds ls p ∧ buf 0 = p.1 ∧ buf 1 = p.2
  | .setLed _ _ => Settled n ds ls

/-- The request lies in the buffer. -/
def Asks (f : Function) (buf : ℕ → Byte) : Prop := ∀ i b, .write i b ∈ f.prep → buf i = b

lemma Due.inTurn (h : Due n ds ls f) : InTurn n ds ls := by
  cases f with
  | getNumberOfLeds =>
    obtain ⟨rfl, rfl⟩ := h
    exact .inl rfl
  | getTwoRandomBytes => exact .inl h
  | setLed i st =>
    obtain ⟨p, hp, -⟩ := h
    exact .inr ⟨p, hp⟩

lemma Did.inTurn {buf : ℕ → Byte} (h : Did n ds ls buf f) : InTurn n ds ls := by
  cases f with
  | getNumberOfLeds =>
    obtain ⟨⟨rfl, rfl⟩, -⟩ := h
    exact .inl rfl
  | getTwoRandomBytes =>
    obtain ⟨p, hp, -⟩ := h
    exact .inr ⟨p, hp⟩
  | setLed i st => exact .inl h

/-- The lamp that the client computes from the two bytes. -/
lemma wanted_eq (n b₀ b₁ : Byte) :
    (ledIndex n (twoRandomBytes b₀ b₁), decide (0 < ledState (twoRandomBytes b₀ b₁))) =
      wanted n (b₀, b₁) := by
  have hlo : (b₁.setWidth 16).toNat < 2 ^ 8 := by
    rw [BitVec.toNat_setWidth]
    omega
  have hhi : (b₀.setWidth 16).toNat * 2 ^ 8 < 2 ^ 16 := by
    rw [BitVec.toNat_setWidth]
    omega
  have hlow : (twoRandomBytes b₀ b₁ &&& 0xFF).toNat = b₁.toNat := by
    have heq : twoRandomBytes b₀ b₁ &&& 0xFF = b₁.setWidth 16 :=
      Bytes.shiftLeft_or_and (by decide) hlo hhi
    rw [heq, BitVec.toNat_setWidth]
    omega
  have hhigh : (twoRandomBytes b₀ b₁ >>> 8).toNat = b₀.toNat := by
    have heq : twoRandomBytes b₀ b₁ >>> 8 = b₀.setWidth 16 :=
      Bytes.shiftLeft_or_shiftRight hlo hhi
    rw [heq, BitVec.toNat_setWidth]
    omega
  have hstate : decide (0 < ledState (twoRandomBytes b₀ b₁)) = decide (0x7F < b₀.toNat) := by
    have hiff : twoRandomBytes b₀ b₁ >>> 8 > 0x7F ↔ 0x7F < b₀.toNat := by
      rw [gt_iff_lt, BitVec.lt_def, hhigh]
      rfl
    rw [ledState]
    by_cases h : 0x7F < b₀.toNat
    · rw [if_pos (hiff.mpr h), decide_eq_true h]
      rfl
    · rw [if_neg (mt hiff.mp h), decide_eq_false h]
      rfl
  rw [wanted, ledIndex, hlow, hstate]

/-! ### Whose turn it is -/

/-- What is in flight. -/
structure Flight (w : World) (due : Service → ℕ) (led : Option LedPc) (rng : List RngPc)
    (replies : ℕ) : Prop where
  due : w.due = due
  led : w.led = led
  rng : w.rng = rng
  replies : w.replies = replies

@[simp] lemma buf_goto (w : World) (pc : Pc) : (w.goto pc).buf = w.buf := rfl

/-- Nothing is in flight. -/
def Quiet (w : World) : Prop := Flight w (fun _ => 0) none [] 0

/-- Nothing was lost so far, and this service is at work. -/
structure Fine (tr : List Event) (busy : Option Service) : Prop where
  serves : ∀ s, serves s tr = decide (busy = some s)
  lost : .lost ∉ tr
  divided : .divided ∉ tr

/-- The callback of the LED service, at work for `f`. -/
inductive LedAt (n : Byte) (ds : List (List Byte)) (ls : List (Byte × Bool)) (buf : ℕ → Byte) :
    Function → LedPc → Prop
  | command {f : Function} (hdue : Due n ds ls f) (hasks : Asks f buf) :
      LedAt n ds ls buf f .command
  | count (hdue : Due n ds ls .getNumberOfLeds) : LedAt n ds ls buf .getNumberOfLeds .count
  | index {i st : Byte} (hdue : Due n ds ls (.setLed i st)) (hasks : Asks (.setLed i st) buf) :
      LedAt n ds ls buf (.setLed i st) .index
  | state {i st : Byte} (hdue : Due n ds ls (.setLed i st)) (hasks : Asks (.setLed i st) buf) :
      LedAt n ds ls buf (.setLed i st) (.state i)
  | drive {i st : Byte} (hdue : Due n ds ls (.setLed i st)) :
      LedAt n ds ls buf (.setLed i st) (.drive i (decide (0 < st)))
  | notify {f : Function} (hdid : Did n ds ls buf f) : LedAt n ds ls buf f .notify

/-- The callback of the RNG service. -/
inductive RngAt (n : Byte) (ls : List (Byte × Bool)) (buf : ℕ → Byte) :
    List (List Byte) → RngPc → Prop
  | number {ds : List (List Byte)} (hdue : Settled n ds ls) (hasks : buf 0 = 2)
      (hsecond : buf 1 = second ds) : RngAt n ls buf ds .number
  | malloc {ds : List (List Byte)} (hdue : Settled n ds ls) (hasks : buf 0 = 2)
      (hsecond : buf 1 = second ds) : RngAt n ls buf ds (.malloc 2)
  | sync {ds : List (List Byte)} (hdue : Settled n ds ls) (hasks : buf 0 = 2)
      (hsecond : buf 1 = second ds) : RngAt n ls buf ds (.sync 2)
  | copying {ds : List (List Byte)} {bytes : List Byte} {i : ℕ} (hdue : Settled n ds ls)
      (hlen : bytes.length ≤ 2) (hi : i ≤ bytes.length) (h0 : buf 0 = (bytes.take i).getD 0 2)
      (h1 : buf 1 = (bytes.take i).getD 1 (second ds)) :
      RngAt n ls buf (ds ++ [bytes]) (.copying bytes i)
  | notify {ds : List (List Byte)} (hdid : Did n ds ls buf .getTwoRandomBytes) :
      RngAt n ls buf ds .notify

/-- How far the service is with what `f` has asked. -/
inductive Pending (n : Byte) (tr : List Event) (w : World) (f : Function) : Prop
  | queued (hflight : Flight w (Function.update (fun _ => 0) f.service 1) none [] 0)
      (hfine : Fine tr (some f.service)) (hdone : w.client.done = false)
      (hdue : Due n (draws tr) (lits tr) f) (hasks : Asks f (w.buf f.service))
      (hsecond : w.buf .rng 1 = second (draws tr))
  | led {pc : LedPc} (hservice : f.service = .led)
      (hflight : Flight w (fun _ => 0) (some pc) [] 0) (hfine : Fine tr (some .led))
      (hdone : w.client.done = false) (hat : LedAt n (draws tr) (lits tr) (w.buf .led) f pc)
      (hsecond : w.buf .rng 1 = second (draws tr))
  | rng {pc : RngPc} (hf : f = .getTwoRandomBytes)
      (hflight : Flight w (fun _ => 0) none [pc] 0) (hfine : Fine tr (some .rng))
      (hdone : w.client.done = false) (hat : RngAt n (lits tr) (w.buf .rng) (draws tr) pc)
  | replied (hflight : Flight w (fun _ => 0) none [] 1) (hfine : Fine tr none)
      (hdone : w.client.done = false) (hdid : Did n (draws tr) (lits tr) (w.buf f.service) f)
      (hsecond : w.buf .rng 1 = second (draws tr))
  | told (hflight : Quiet w) (hfine : Fine tr none) (hdone : w.client.done = true)
      (hdid : Did n (draws tr) (lits tr) (w.buf f.service) f)
      (hsecond : w.buf .rng 1 = second (draws tr))
  | lost (hflight : Quiet w) (hdone : w.client.done = false) (hlost : .lost ∈ tr)
      (hturn : InTurn n (draws tr) (lits tr))

/-- The client knows the number of lamps once it has asked for it. -/
def Knows (n : Byte) (w : World) (f : Function) : Prop :=
  f ≠ .getNumberOfLeds → w.client.numberOfLeds = n

/-- Where the client is. -/
inductive At (n : Byte) (tr : List Event) (w : World) : Prop
  | preparing {f : Function} (pre rest : List Prep) (hpc : w.client.pc = .preparing f rest)
      (hflight : Quiet w) (hfine : Fine tr none) (hdue : Due n (draws tr) (lits tr) f)
      (hsecond : w.buf .rng 1 = second (draws tr)) (hknows : Knows n w f)
      (hsplit : f.prep = pre ++ rest) (hwritten : ∀ i b, .write i b ∈ pre → w.buf f.service i = b)
      (hclear : .clear ∈ pre → w.client.done = false)
  | waiting {f : Function} (hpc : w.client.pc = .waiting f) (hpending : Pending n tr w f)
      (hknows : Knows n w f)
  | reading {f : Function} (got rest : List ℕ)
      (hpc : w.client.pc = .reading f rest (got.map (w.buf f.service))) (hflight : Quiet w)
      (hfine : Fine tr none) (hdid : Did n (draws tr) (lits tr) (w.buf f.service) f)
      (hsecond : w.buf .rng 1 = second (draws tr)) (hknows : Knows n w f)
      (hsplit : f.reads = got ++ rest)
  | idle (hpc : w.client.pc = .printing ∨ w.client.pc = .delaying) (hflight : Quiet w)
      (hfine : Fine tr none) (hdue : Settled n (draws tr) (lits tr))
      (hsecond : w.buf .rng 1 = second (draws tr)) (hknows : w.client.numberOfLeds = n)
  | stopped (hpc : w.client.pc = .stopped) (hflight : Quiet w) (hdivided : .divided ∈ tr)
      (hturn : InTurn n (draws tr) (lits tr))

lemma at_boot : At n [] World.boot :=
  .preparing (f := .getNumberOfLeds) [] _ rfl ⟨rfl, rfl, rfl, rfl⟩
    ⟨fun _ => rfl, by simp, by simp⟩ ⟨rfl, rfl⟩ rfl (fun h => absurd rfl h) rfl (by simp) (by simp)

/-! ### The steps -/

lemma Fine.concat {busy : Option Service} (h : Fine tr busy) (hasked : ∀ s, e ≠ .asked s)
    (hanswered : ∀ s, e ≠ .answered s) (hlost : e ≠ .lost) (hdivided : e ≠ .divided) :
    Fine (tr ++ [e]) busy where
  serves s := by rw [serves_concat, if_neg (hasked s), if_neg (hanswered s), h.serves]
  lost := by simp [h.lost, hlost.symm]
  divided := by simp [h.divided, hdivided.symm]

lemma Fine.touched {busy : Option Service} (h : Fine tr busy) (byService : Bool) (s : Service)
    (i : ℕ) : Fine (tr ++ [.touched byService s i]) busy :=
  h.concat (by simp) (by simp) (by simp) (by simp)

lemma Fine.asked (h : Fine tr none) (s : Service) : Fine (tr ++ [.asked s]) (some s) where
  serves s' := by
    by_cases hs : s = s'
    · simp [hs]
    · simp [hs, h.serves]
  lost := by simp [h.lost]
  divided := by simp [h.divided]

lemma Fine.answered (h : Fine tr (some s)) : Fine (tr ++ [.answered s]) none where
  serves s' := by
    by_cases hs : s = s'
    · simp [hs]
    · simp [hs, h.serves]
  lost := by simp [h.lost]
  divided := by simp [h.divided]

/-- A step leads to this state, and emits at most one event, which owes nothing. -/
def Good (n : Byte) (tr : List Event) (w' : World) (es : List Event) : Prop :=
  At n (tr ++ es) w' ∧ (es = [] ∨ ∃ e, es = [e] ∧ Owes n tr e)

lemma Good.silent (h : At n tr w') : Good n tr w' [] := ⟨by rwa [List.append_nil], .inl rfl⟩

lemma Good.event (he : Owes n tr e) (h : At n (tr ++ [e]) w') : Good n tr w' [e] :=
  ⟨h, .inr ⟨e, rfl, he⟩⟩

section Prep

variable {i : ℕ} {b : Byte} {pre rest : List Prep}

lemma clear_mem_prep (f : Function) : .clear ∈ f.prep := by
  cases f <;> simp [Function.prep]

lemma write_mem_prep (h : .write i b ∈ f.prep) : i < 64 ∧ (f.service = .rng → i ≠ 1) := by
  cases f with
  | getNumberOfLeds | getTwoRandomBytes =>
    obtain ⟨rfl, -⟩ : i = 0 ∧ _ := by simpa [Function.prep] using h
    exact ⟨by decide, fun _ => by decide⟩
  | setLed ledIndex ledState =>
    refine ⟨?_, fun hrng => by cases hrng⟩
    simp only [Function.prep, List.mem_cons, Prep.write.injEq, reduceCtorEq, List.not_mem_nil,
      or_false] at h
    rcases h with ⟨rfl, -⟩ | ⟨rfl, -⟩ | ⟨rfl, -⟩ <;> decide

/-- The byte of the buffer that a statement writes. -/
def Prep.index : Prep → Option ℕ
  | clear => none
  | write i _ => some i

/-- No byte is written twice. -/
lemma write_notMem_pre (hsplit : f.prep = pre ++ .write i b :: rest) (b' : Byte) :
    .write i b' ∉ pre := by
  have hnodup : (f.prep.filterMap Prep.index).Nodup := by
    cases f with
    | getNumberOfLeds | getTwoRandomBytes => exact List.nodup_singleton 0
    | setLed ledIndex ledState => exact (by decide : [0, 1, 2].Nodup)
  have hcons : (Prep.write i b :: rest).filterMap Prep.index = i :: rest.filterMap Prep.index := rfl
  rw [hsplit, List.filterMap_append, hcons] at hnodup
  intro hmem
  have hpre : i ∈ pre.filterMap Prep.index := List.mem_filterMap.mpr ⟨_, hmem, rfl⟩
  exact (List.nodup_append.mp hnodup).2.2 i hpre i List.mem_cons_self rfl

lemma reads_lt (h : i ∈ f.reads) : i < 64 := by
  cases f <;> simp [Function.reads] at h <;> omega

end Prep

lemma at_prepare {f : Function} (hflight : Quiet w) (hfine : Fine tr none)
    (hdue : Due n (draws tr) (lits tr) f) (hsecond : w.buf .rng 1 = second (draws tr))
    (hknows : w.client.numberOfLeds = n) : At n tr (w.goto (.preparing f f.prep)) :=
  .preparing [] _ rfl ⟨hflight.due, hflight.led, hflight.rng, hflight.replies⟩ hfine hdue
    hsecond (fun _ => hknows) rfl (by simp) (by simp)

/-- A function of the client returns. -/
lemma At.returns (hflight : Quiet w) (hfine : Fine tr none)
    (hdid : Did n (draws tr) (lits tr) (w.buf f.service) f)
    (hsecond : w.buf .rng 1 = second (draws tr)) (hknows : Knows n w f) :
    Good n tr (w.returns f (f.reads.map (w.buf f.service))).1
      (w.returns f (f.reads.map (w.buf f.service))).2 := by
  cases f with
  | getNumberOfLeds =>
    obtain ⟨⟨hds, hls⟩, hn⟩ := hdid
    have hvalue : w.buf .led 0 = n := hn
    simp only [World.returns, Function.reads, Function.service, List.map_singleton, hvalue,
      List.getD_cons_zero]
    refine .event rfl (.idle (.inl rfl) ⟨hflight.due, hflight.led, hflight.rng, hflight.replies⟩
      (hfine.concat (by simp) (by simp) (by simp) (by simp)) ?_ (by simpa using hsecond) rfl)
    simp [hds, hls, Settled, pairs]
  | getTwoRandomBytes =>
    obtain ⟨p, howing, h0, h1⟩ := hdid
    have hn : w.client.numberOfLeds = n := hknows (by simp)
    have h0' : w.buf .rng 0 = p.1 := h0
    have h1' : w.buf .rng 1 = p.2 := h1
    simp only [World.returns, Function.reads, Function.service, List.map_cons, List.map_nil, h0',
      h1', List.getD_cons_zero, List.getD_cons_succ, hn]
    split_ifs with hzero
    · exact .event hzero (.stopped rfl ⟨hflight.due, hflight.led, hflight.rng, hflight.replies⟩
        (by simp) (by simpa using .inr ⟨p, howing⟩))
    · exact .silent (at_prepare hflight hfine ⟨p, howing, wanted_eq n p.1 p.2⟩ hsecond hn)
  | setLed i st =>
    exact .silent (.idle (.inr rfl) ⟨hflight.due, hflight.led, hflight.rng, hflight.replies⟩ hfine
      hdid hsecond (hknows (by simp)))

lemma At.client (h : At n tr w) {accepted : Bool} (hstep : w.clientStep accepted = some (w', es)) :
    Good n tr w' es := by
  cases h with
  | @preparing f pre rest hpc hflight hfine hdue hsecond hknows hsplit hwritten hclear =>
    cases rest with
    | nil =>
      rw [List.append_nil] at hsplit
      have hasks : Asks f (w.buf f.service) := fun i b hib => hwritten i b (hsplit ▸ hib)
      have hdone : w.client.done = false := hclear (hsplit ▸ clear_mem_prep f)
      simp only [World.clientStep, hpc] at hstep
      split_ifs at hstep
      · cases hstep
        refine .event trivial (.waiting rfl (.queued ⟨?_, hflight.led, hflight.rng,
          hflight.replies⟩ (hfine.asked _) hdone (by simpa using hdue) hasks
          (by simpa using hsecond)) hknows)
        simp [hflight.due]
      · cases hstep
        exact .event trivial (.waiting rfl (.lost ⟨hflight.due, hflight.led, hflight.rng,
          hflight.replies⟩ hdone (by simp) (by simpa using hdue.inTurn)) hknows)
    | cons op rest =>
      cases op with
      | clear =>
        simp only [World.clientStep, hpc] at hstep
        cases hstep
        refine .silent (.preparing (pre ++ [.clear]) rest rfl ⟨hflight.due, hflight.led,
          hflight.rng, hflight.replies⟩ hfine hdue hsecond hknows (by simp [hsplit]) ?_
          fun _ => rfl)
        intro i b hib
        exact hwritten i b (by simpa using hib)
      | write i b =>
        simp only [World.clientStep, hpc] at hstep
        cases hstep
        obtain ⟨hi, hne⟩ := write_mem_prep (f := f) (i := i) (b := b) (by simp [hsplit])
        refine .event ⟨by rw [sharedLen]; omega, (hfine.serves _).symm⟩
          (.preparing (pre ++ [.write i b]) rest rfl ⟨hflight.due, hflight.led, hflight.rng,
            hflight.replies⟩ (hfine.touched _ _ _) (by simpa using hdue) ?_ hknows
            (by simp [hsplit]) ?_ fun hc => hclear (by simpa using hc))
        · by_cases hrng : f.service = .rng
          · simpa [World.write, World.goto, hrng, (hne hrng).symm] using hsecond
          · simpa [World.write, World.goto, Function.update_of_ne (Ne.symm hrng)] using hsecond
        · intro i' b' hib
          by_cases hii : i' = i
          · subst hii
            have hb : b' = b := by simpa [write_notMem_pre hsplit] using hib
            simp [World.write, World.goto, hb]
          · have hpre : .write i' b' ∈ pre := by simpa [hii] using hib
            simpa [World.write, World.goto, hii] using hwritten i' b' hpre
  | @waiting f hpc hpending hknows =>
    simp only [World.clientStep, hpc] at hstep
    cases hpending with
    | told hflight hfine hdone hdid hsecond =>
      rw [if_pos hdone] at hstep
      cases hstep
      exact .silent (.reading [] _ rfl ⟨hflight.due, hflight.led, hflight.rng,
        hflight.replies⟩ hfine hdid hsecond hknows rfl)
    | queued hflight hfine hdone | led hservice hflight hfine hdone | rng hf hflight hfine hdone
    | replied hflight hfine hdone | lost hflight hdone => simp [hdone] at hstep
  | @reading f got rest hpc hflight hfine hdid hsecond hknows hsplit =>
    cases rest with
    | nil =>
      rw [List.append_nil] at hsplit
      rw [← hsplit] at hpc
      simp only [World.clientStep, hpc, Option.some.injEq] at hstep
      have hgood := At.returns hflight hfine hdid hsecond hknows
      rwa [hstep] at hgood
    | cons i rest =>
      simp only [World.clientStep, hpc] at hstep
      cases hstep
      have hi : i < 64 := reads_lt (f := f) (by simp [hsplit])
      exact .event ⟨by rw [sharedLen]; omega, (hfine.serves _).symm⟩
        (.reading (got ++ [i]) rest (by simp [World.goto]) ⟨hflight.due, hflight.led,
          hflight.rng, hflight.replies⟩ (hfine.touched _ _ _) (by simpa using hdid)
          (by simpa using hsecond) hknows (by simp [hsplit]))
  | idle hpc hflight hfine hdue hsecond hknows =>
    have hgoto : w.goto (.preparing .getTwoRandomBytes Function.getTwoRandomBytes.prep) = w' ∧
        [] = es := by
      rcases hpc with hpc | hpc
      · simpa [World.clientStep, hpc] using hstep
      · simpa [World.clientStep, hpc] using hstep
    obtain ⟨rfl, rfl⟩ := hgoto
    exact .silent (at_prepare hflight hfine hdue hsecond hknows)
  | stopped hpc => simp [World.clientStep, hpc] at hstep

lemma At.called (h : At n tr w) (hstep : w.exec n .called = some (w', es)) : Good n tr w' es := by
  cases h with
  | @waiting f hpc hpending hknows =>
    cases hpending with
    | replied hflight hfine hdone hdid hsecond =>
      simp only [World.exec, hflight.replies, hpc, Pc.yields, if_true] at hstep
      cases hstep
      exact .silent (.waiting rfl (.told ⟨hflight.due, hflight.led, hflight.rng, rfl⟩ hfine rfl
        hdid hsecond) hknows)
    | queued hflight | led _ hflight | rng _ hflight | told hflight | lost hflight =>
      simp [World.exec, hflight.replies] at hstep
  | preparing _ _ _ hflight | reading _ _ _ hflight | idle _ hflight | stopped _ hflight =>
    simp [World.exec, hflight.replies] at hstep

lemma At.serve (h : At n tr w) (hstep : w.exec n (.serve s) = some (w', es)) :
    Good n tr w' es := by
  cases h with
  | @waiting f hpc hpending hknows =>
    cases hpending with
    | queued hflight hfine hdone hdue hasks hsecond =>
      have hservice : s = f.service := by
        by_contra hne
        simp [World.exec, hflight.due, Function.update_of_ne hne] at hstep
      subst hservice
      have hnone : Function.update w.due f.service 0 = fun _ => 0 := by
        rw [hflight.due, Function.update_idem]
        exact Function.update_eq_self _ _
      have hone : w.due f.service = 0 + 1 := by simp [hflight.due]
      cases f with
      | getTwoRandomBytes =>
        have hdue' : w.due .rng = 0 + 1 := hone
        simp only [World.exec, Function.service, hdue', hflight.led, hflight.rng] at hstep
        cases hstep
        exact .silent (.waiting hpc (.rng rfl ⟨hnone, rfl, rfl, hflight.replies⟩ hfine
          hdone (.number hdue (hasks 0 2 (by simp [Function.prep])) hsecond)) hknows)
      | getNumberOfLeds | setLed i st =>
        have hdue' : w.due .led = 0 + 1 := hone
        simp only [World.exec, Function.service, hdue', hflight.led, hflight.rng] at hstep
        cases hstep
        exact .silent (.waiting hpc (.led rfl ⟨hnone, rfl, rfl, hflight.replies⟩ hfine
          hdone (.command hdue hasks) hsecond) hknows)
    | led _ hflight | rng _ hflight | replied hflight | told hflight | lost hflight =>
      simp [World.exec, hflight.due] at hstep
  | preparing _ _ _ hflight | reading _ _ _ hflight | idle _ hflight | stopped _ hflight =>
    simp [World.exec, hflight.due] at hstep

/-- The callback of the LED service, step by step. -/
lemma LedAt.step {pc : LedPc} (hservice : f.service = .led)
    (hflight : Flight w (fun _ => 0) (some pc) [] 0) (hfine : Fine tr (some .led))
    (hdone : w.client.done = false) (hat : LedAt n (draws tr) (lits tr) (w.buf .led) f pc)
    (hsecond : w.buf .rng 1 = second (draws tr)) (hpc : w.client.pc = .waiting f)
    (hknows : Knows n w f) {accepted : Bool} (hstep : w.ledStep n accepted = some (w', es)) :
    Good n tr w' es := by
  have howes : ∀ i < 64, Owes n tr (.touched true .led i) := fun i hi =>
    ⟨by rw [sharedLen]; omega, by simp [hfine.serves]⟩
  have hled := hflight.led
  cases hat with
  | command hdue hasks =>
    cases f with
    | getTwoRandomBytes => cases hservice
    | getNumberOfLeds =>
      have hzero : w.buf .led 0 = 0 := hasks 0 0 (by simp [Function.prep])
      simp only [World.ledStep, hled, hzero, sharedLen] at hstep
      cases hstep
      exact .event (howes 0 (by decide)) (.waiting hpc (.led rfl ⟨hflight.due, rfl, hflight.rng,
        hflight.replies⟩ (hfine.touched _ _ _) hdone (.count (by simpa using hdue))
        (by simpa using hsecond)) hknows)
    | setLed i st =>
      have hone : w.buf .led 0 = 1 := hasks 0 1 (by simp [Function.prep])
      simp only [World.ledStep, hled, hone, sharedLen] at hstep
      cases hstep
      exact .event (howes 0 (by decide)) (.waiting hpc (.led rfl ⟨hflight.due, rfl, hflight.rng,
        hflight.replies⟩ (hfine.touched _ _ _) hdone (.index (by simpa using hdue) hasks)
        (by simpa using hsecond)) hknows)
  | count hdue =>
    simp only [World.ledStep, hled] at hstep
    cases hstep
    exact .event (howes 0 (by decide)) (.waiting hpc (.led rfl ⟨hflight.due, rfl, hflight.rng,
      hflight.replies⟩ (hfine.touched _ _ _) hdone
      (.notify ⟨by simpa [Due] using hdue, by simp [World.write]⟩)
      (by simpa [World.write] using hsecond)) hknows)
  | @index i st hdue hasks =>
    have hindex : w.buf .led 1 = i := hasks 1 i (by simp [Function.prep])
    simp only [World.ledStep, hled, hindex] at hstep
    cases hstep
    exact .event (howes 1 (by decide)) (.waiting hpc (.led rfl ⟨hflight.due, rfl, hflight.rng,
      hflight.replies⟩ (hfine.touched _ _ _) hdone (.state (by simpa using hdue) hasks)
      (by simpa using hsecond)) hknows)
  | @state i st hdue hasks =>
    have hstate : w.buf .led 2 = st := hasks 2 st (by simp [Function.prep])
    simp only [World.ledStep, hled, hstate] at hstep
    cases hstep
    exact .event (howes 2 (by decide)) (.waiting hpc (.led rfl ⟨hflight.due, rfl, hflight.rng,
      hflight.replies⟩ (hfine.touched _ _ _) hdone (.drive (by simpa using hdue))
      (by simpa using hsecond)) hknows)
  | @drive i st hdue =>
    simp only [World.ledStep, hled] at hstep
    cases hstep
    obtain ⟨p, howing, hwanted⟩ := hdue
    refine .event trivial (.waiting hpc (.led rfl ⟨hflight.due, rfl, hflight.rng,
      hflight.replies⟩ (hfine.concat (by simp) (by simp) (by simp) (by simp)) hdone
      (.notify ?_) (by simpa using hsecond)) hknows)
    have hlight := howing.light
    rw [← hwanted] at hlight
    simpa [Did] using hlight
  | notify hdid =>
    simp only [World.ledStep, hled, World.answer] at hstep
    split_ifs at hstep
    · cases hstep
      refine .event trivial (.waiting hpc (.replied ⟨hflight.due, rfl, hflight.rng, ?_⟩
        hfine.answered hdone (by simpa [hservice] using hdid) (by simpa using hsecond)) hknows)
      simp [hflight.replies]
    · cases hstep
      exact .event trivial (.waiting hpc (.lost ⟨hflight.due, rfl, hflight.rng, hflight.replies⟩
        hdone (by simp) (by simpa using hdid.inTurn)) hknows)

/-- One more byte is copied. -/
lemma update_take {buf : ℕ → Byte} {bytes : List Byte} {i j : ℕ} {b : Byte}
    (h : buf j = (bytes.take i).getD j b) (hi : i < bytes.length) :
    Function.update buf i (bytes.get ⟨i, hi⟩) j = (bytes.take (i + 1)).getD j b := by
  by_cases hj : j = i
  · subst hj
    rw [Function.update_self, List.getD_eq_getElem?_getD, List.getElem?_take]
    simp [hi]
  · rw [Function.update_of_ne hj, h, List.getD_eq_getElem?_getD, List.getD_eq_getElem?_getD,
      List.getElem?_take, List.getElem?_take]
    have hiff : j < i + 1 ↔ j < i := by omega
    simp [hiff]

/-- The callback of the RNG service, step by step. -/
lemma RngAt.step {pc : RngPc} (hflight : Flight w (fun _ => 0) none [pc] 0)
    (hfine : Fine tr (some .rng)) (hdone : w.client.done = false)
    (hat : RngAt n (lits tr) (w.buf .rng) (draws tr) pc)
    (hpc : w.client.pc = .waiting .getTwoRandomBytes) (hknows : Knows n w .getTwoRandomBytes)
    {ok : Bool} (hstep : w.rngStep ok = some (w', es)) : Good n tr w' es := by
  have howes : ∀ i < 64, Owes n tr (.touched true .rng i) := fun i hi =>
    ⟨by rw [sharedLen]; omega, by simp [hfine.serves]⟩
  have hrng := hflight.rng
  generalize hds : draws tr = ds at hat
  cases hat with
  | number hdue hasks hsecond =>
    subst hds
    have htwo : (2 : Byte).toNat = 2 := rfl
    simp only [World.rngStep, hrng, hasks, sharedLen, htwo] at hstep
    cases hstep
    exact .event (howes 0 (by decide)) (.waiting hpc (.rng rfl ⟨hflight.due, hflight.led, rfl,
      hflight.replies⟩ (hfine.touched _ _ _) hdone
      (.malloc (by simpa using hdue) hasks (by simpa using hsecond))) hknows)
  | malloc hdue hasks hsecond =>
    subst hds
    simp only [World.rngStep, hrng] at hstep
    split_ifs at hstep
    · cases hstep
      exact .silent (.waiting hpc (.rng rfl ⟨hflight.due, hflight.led, rfl, hflight.replies⟩ hfine
        hdone (.sync hdue hasks hsecond)) hknows)
    · cases hstep
      exact .event trivial (.waiting hpc (.lost ⟨hflight.due, hflight.led, rfl, hflight.replies⟩
        hdone (by simp) (.inl (by simpa using hdue))) hknows)
  | sync => simp [World.rngStep, hrng] at hstep
  | @copying ds bytes i hdue hlen hi h0 h1 =>
    simp only [World.rngStep, hrng] at hstep
    split_ifs at hstep with hlt
    · cases hstep
      have htake : bytes.take (i + 1) = bytes.take i ++ [bytes.get ⟨i, hlt⟩] := by
        simp
      refine .event (howes i (by omega)) (.waiting hpc (.rng rfl ⟨hflight.due, hflight.led, rfl,
        hflight.replies⟩ (hfine.touched _ _ _) hdone ?_) hknows)
      have hdraws : draws (tr ++ [.touched true .rng i]) = ds ++ [bytes] := by simp [hds]
      rw [hdraws]
      refine .copying (by simpa using hdue) hlen hlt ?_ ?_
      · simpa [World.write] using update_take h0 hlt
      · simpa [World.write] using update_take h1 hlt
    · cases hstep
      have hall : bytes.take i = bytes := List.take_of_length_le (not_lt.mp hlt)
      rw [hall] at h0 h1
      refine .silent (.waiting hpc (.rng rfl ⟨hflight.due, hflight.led, rfl, hflight.replies⟩ hfine
        hdone ?_) hknows)
      rw [hds]
      exact .notify ⟨_, hdue.draw bytes, h0, h1⟩
  | notify hdid =>
    subst hds
    simp only [World.rngStep, hrng, World.answer] at hstep
    split_ifs at hstep
    · cases hstep
      obtain ⟨p, howing, h0, h1⟩ := hdid
      refine .event trivial (.waiting hpc (.replied ⟨hflight.due, hflight.led, rfl, ?_⟩
        hfine.answered hdone ⟨p, by simpa using howing, h0, h1⟩
        (by simpa [howing.second_eq] using h1)) hknows)
      simp [hflight.replies]
    · cases hstep
      exact .event trivial (.waiting hpc (.lost ⟨hflight.due, hflight.led, rfl, hflight.replies⟩
        hdone (by simp) (by simpa using hdid.inTurn)) hknows)

lemma At.random (h : At n tr w) {bytes : List Byte}
    (hstep : w.exec n (.random bytes) = some (w', es)) : Good n tr w' es := by
  cases h with
  | @waiting f hpc hpending hknows =>
    cases hpending with
    | @rng pc hf hflight hfine hdone hat =>
      subst hf
      have hrng := hflight.rng
      generalize hds : draws tr = ds at hat
      cases hat with
      | sync hdue hasks hsecond =>
        subst hds
        simp only [World.exec, hrng] at hstep
        split_ifs at hstep with hlen
        cases hstep
        refine .event trivial (.waiting hpc (.rng rfl ⟨hflight.due, hflight.led, rfl,
          hflight.replies⟩ (hfine.concat (by simp) (by simp) (by simp) (by simp)) hdone ?_) hknows)
        have hdraws : draws (tr ++ [.drew bytes]) = draws tr ++ [bytes] := by simp
        rw [hdraws]
        exact .copying (by simpa using hdue) hlen (Nat.zero_le _) (by simpa using hasks)
          (by simpa using hsecond)
      | number | malloc | copying | notify => simp [World.exec, hrng] at hstep
    | queued hflight | led _ hflight | replied hflight | told hflight | lost hflight =>
      simp [World.exec, hflight.rng] at hstep
  | preparing _ _ _ hflight | reading _ _ _ hflight | idle _ hflight | stopped _ hflight =>
    simp [World.exec, hflight.rng] at hstep

lemma At.step (h : At n tr w) {a : Action} (hstep : World.Step n w a w' es) : Good n tr w' es := by
  cases a with
  | client accepted => exact h.client hstep
  | called => exact h.called hstep
  | serve s => exact h.serve hstep
  | random bytes => exact h.random hstep
  | led accepted =>
    have hled : w.ledStep n accepted = some (w', es) := hstep
    cases h with
    | @waiting f hpc hpending hknows =>
      cases hpending with
      | led hservice hflight hfine hdone hat hsecond =>
        exact hat.step hservice hflight hfine hdone hsecond hpc hknows hled
      | queued hflight | rng _ hflight | replied hflight | told hflight | lost hflight =>
        simp [World.ledStep, hflight.led] at hled
    | preparing _ _ _ hflight | reading _ _ _ hflight | idle _ hflight | stopped _ hflight =>
      simp [World.ledStep, hflight.led] at hled
  | rng ok =>
    have hrng : w.rngStep ok = some (w', es) := hstep
    cases h with
    | @waiting f hpc hpending hknows =>
      cases hpending with
      | rng hf hflight hfine hdone hat =>
        subst hf
        exact hat.step hflight hfine hdone hpc hknows hrng
      | queued hflight | led _ hflight | replied hflight | told hflight | lost hflight =>
        simp [World.rngStep, hflight.rng] at hrng
    | preparing _ _ _ hflight | reading _ _ _ hflight | idle _ hflight | stopped _ hflight =>
      simp [World.rngStep, hflight.rng] at hrng

/-! ### Over whole runs -/

structure Inv (n : Byte) (tr : List Event) (w : World) : Prop where
  here : At n tr w
  each : Each (Owes n) tr

lemma Inv.step (h : Inv n tr w) {a : Action} (hstep : World.Step n w a w' es) :
    Inv n (tr ++ es) w' := by
  obtain ⟨hat, rfl | ⟨e, rfl, he⟩⟩ := h.here.step hstep
  · exact ⟨hat, by simpa using h.each⟩
  · exact ⟨hat, each_concat.mpr ⟨h.each, he⟩⟩

lemma At.inTurn (h : At n tr w) : InTurn n (draws tr) (lits tr) := by
  cases h with
  | preparing _ _ _ _ _ hdue => exact hdue.inTurn
  | waiting _ hpending =>
    cases hpending with
    | queued _ _ _ hdue => exact hdue.inTurn
    | led _ _ _ _ hat =>
      cases hat with
      | command hdue | count hdue | index hdue | state hdue | drive hdue => exact hdue.inTurn
      | notify hdid => exact hdid.inTurn
    | rng _ _ _ _ hat =>
      generalize draws tr = ds at hat
      cases hat with
      | number hdue | malloc hdue | sync hdue => exact .inl hdue
      | copying hdue => exact .inr ⟨_, hdue.draw _⟩
      | notify hdid => exact hdid.inTurn
    | replied _ _ _ hdid | told _ _ _ hdid => exact hdid.inTurn
    | lost _ _ _ hturn => exact hturn
  | reading _ _ _ _ _ hdid => exact hdid.inTurn
  | idle _ _ _ hdue => exact .inl hdue
  | stopped _ _ _ hturn => exact hturn

/-- As long as nothing was lost, some process goes on. -/
lemma At.exists_step (h : At n tr w) (hlost : .lost ∉ tr) (hdivided : .divided ∉ tr) :
    ∃ a w' es, World.Step n w a w' es := by
  have enabled : ∀ a, (w.exec n a).isSome = true → ∃ a w' es, World.Step n w a w' es := by
    intro a ha
    obtain ⟨r, hr⟩ := Option.isSome_iff_exists.mp ha
    exact ⟨a, r.1, r.2, hr⟩
  cases h with
  | preparing pre rest hpc =>
    apply enabled (.client true)
    cases rest with
    | nil => simp [World.exec, World.clientStep, hpc]
    | cons op rest => cases op <;> simp [World.exec, World.clientStep, hpc]
  | @waiting f hpc hpending =>
    cases hpending with
    | queued hflight =>
      have hone : w.due f.service = 0 + 1 := by simp [hflight.due]
      apply enabled (.serve f.service)
      cases hservice : f.service with
      | led | rng =>
        rw [hservice] at hone
        simp [World.exec, hone, hflight.led, hflight.rng]
    | @led pc hservice hflight =>
      apply enabled (.led true)
      cases pc <;> simp [World.exec, World.ledStep, hflight.led, sharedLen]
    | @rng pc hf hflight =>
      cases pc with
      | sync numberOfBytes =>
        apply enabled (.random [])
        simp [World.exec, hflight.rng]
      | copying bytes i =>
        apply enabled (.rng true)
        by_cases hlt : i < bytes.length
        · simp [World.exec, World.rngStep, hflight.rng, hlt]
        · simp [World.exec, World.rngStep, hflight.rng, hlt]
      | number | malloc numberOfBytes | notify =>
        apply enabled (.rng true)
        simp [World.exec, World.rngStep, hflight.rng, sharedLen]
    | replied hflight =>
      apply enabled .called
      simp [World.exec, hflight.replies, hpc, Pc.yields]
    | told hflight hfine hdone =>
      apply enabled (.client true)
      simp [World.exec, World.clientStep, hpc, hdone]
    | lost _ _ h => exact absurd h hlost
  | reading got rest hpc =>
    apply enabled (.client true)
    cases rest with
    | nil => simp [World.exec, World.clientStep, hpc]
    | cons i rest => simp [World.exec, World.clientStep, hpc]
  | idle hpc =>
    apply enabled (.client true)
    rcases hpc with hpc | hpc
    · simp [World.exec, World.clientStep, hpc]
    · simp [World.exec, World.clientStep, hpc]
  | stopped _ _ h => exact absurd h hdivided

/-- Once something was lost, or divided by zero, nothing goes on. -/
lemma At.not_step (h : At n tr w) (hstop : .lost ∈ tr ∨ .divided ∈ tr) (a : Action) :
    ¬ World.Step n w a w' es := by
  have hnot : ∀ busy, ¬ Fine tr busy := by
    intro busy hfine
    rcases hstop with hlost | hdivided
    · exact hfine.lost hlost
    · exact hfine.divided hdivided
  have hquiet : Quiet w ∧ w.clientStep = fun _ => none := by
    cases h with
    | waiting hpc hpending =>
      cases hpending with
      | lost hflight hdone => exact ⟨hflight, by funext b; simp [World.clientStep, hpc, hdone]⟩
      | queued _ hfine | led _ _ hfine | rng _ _ hfine | replied _ hfine | told _ hfine =>
        exact absurd hfine (hnot _)
    | stopped hpc hflight => exact ⟨hflight, by funext b; simp [World.clientStep, hpc]⟩
    | preparing _ _ _ _ hfine | reading _ _ _ _ hfine | idle _ _ hfine =>
      exact absurd hfine (hnot _)
  obtain ⟨hflight, hclient⟩ := hquiet
  cases a with
  | client accepted => simp [World.Step, World.exec, hclient]
  | called => simp [World.Step, World.exec, hflight.replies]
  | serve s => simp [World.Step, World.exec, hflight.due]
  | led accepted => simp [World.Step, World.exec, World.ledStep, hflight.led]
  | rng ok => simp [World.Step, World.exec, World.rngStep, hflight.rng]
  | random bytes => simp [World.Step, World.exec, hflight.rng]

/-- Two rounds with four lamps; the second draw gives one byte only. -/
def twoRounds : List Action :=
  let ask (k : ℕ) : List Action := List.replicate k (.client true)
  let rounds (bytes : List Byte) : List Action :=
    ask 3 ++ [.serve .rng, .rng true, .rng true, .random bytes] ++
      List.replicate (bytes.length + 2) (.rng true) ++ [.called] ++ ask 4 ++
      ask 5 ++ [.serve .led] ++ List.replicate 5 (.led true) ++ [.called] ++ ask 3
  ask 3 ++ [.serve .led] ++ List.replicate 3 (.led true) ++ [.called] ++ ask 4 ++
    rounds [0xFF, 5] ++ rounds [3]

end Ipc.Leds
