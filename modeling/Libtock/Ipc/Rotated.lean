import Libtock.Ipc.Rot13
import Mathlib.Algebra.Group.Nat.Even

/-!
# The notifications keep a client and the service apart

Whoever works on the buffer of a client has the only notification that there is for it. So a client
prints its text rotated as often as it was sent, whole, however many clients there are and however
the processes preempt each other.
-/

namespace Ipc.Rot13

open Core

/-! ### Rotating a text -/

lemma rot13_involutive : Function.Involutive rot13 := by
  have h : ∀ c, rot13 (rot13 c) = c := by decide
  exact h

lemma rot13_zero : rot13 0 = 0 := rfl

lemma rot13_ne_zero {c : Byte} (h : c ≠ 0) : rot13 c ≠ 0 := by
  intro hzero
  rw [← rot13_involutive c, hzero] at h
  exact h rot13_zero

variable {text : List Byte} {buf : ℕ → Byte} {n i j : ℕ}

/-- The text, rotated `n` times. -/
def line (text : List Byte) (n : ℕ) : List Byte := text.map rot13^[n]

/-- Its character `j`; behind the text there is nothing to rotate. -/
def rotated (text : List Byte) (n j : ℕ) : Byte := rot13^[n] (text.getD j 0)

lemma rotated_of_le (h : text.length ≤ j) : rotated text n j = 0 := by
  rw [rotated, List.getD_eq_default _ _ h]
  exact Function.iterate_fixed rot13_zero n

lemma rotated_succ : rotated text (n + 1) j = rot13 (rotated text n j) :=
  Function.iterate_succ_apply' ..

lemma iterate_rot13_ne_zero {c : Byte} (h : c ≠ 0) (n : ℕ) : rot13^[n] c ≠ 0 := by
  induction n with
  | zero => exact h
  | succ n ih =>
    rw [Function.iterate_succ_apply']
    exact rot13_ne_zero ih

/-- What a client puts into its buffer: it fits, and has no character that ends it. -/
structure Fits (text : List Byte) : Prop where
  length_le : text.length ≤ 30
  ne_zero : ∀ c ∈ text, c ≠ 0

/-- The buffer after `n` rotations, and of the next one the first `i` passes. -/
structure Holds (text : List Byte) (n i : ℕ) (buf : ℕ → Byte) : Prop where
  length : buf 0 = BitVec.ofNat 8 text.length
  chars : ∀ j, buf (1 + j) = rotated text (if j < i then n + 1 else n) j

lemma Fits.toInt_length (ht : Fits text) : (BitVec.ofNat 8 text.length).toInt = text.length := by
  have hle := ht.length_le
  have hnat : (BitVec.ofNat 8 text.length).toNat = text.length := by
    rw [BitVec.toNat_ofNat]
    exact Nat.mod_eq_of_lt (by omega)
  rw [BitVec.toInt_eq_toNat_of_lt (by omega), hnat]

lemma Fits.holds (ht : Fits text) : Holds text 0 0 (fill text) := by
  refine ⟨rfl, fun j => ?_⟩
  rw [Nat.add_comm, fill, List.take_of_length_le ht.length_le]
  rfl

lemma Holds.toInt_length (h : Holds text n i buf) (ht : Fits text) :
    (buf 0).toInt = text.length := by rw [h.length, ht.toInt_length]

lemma Holds.callbackLength (h : Holds text n i buf) (ht : Fits text) :
    callbackLength sharedLen buf = text.length := by
  have hle := ht.length_le
  rw [Rot13.callbackLength, h.toInt_length ht, sharedLen, if_neg]
  omega

/-- A pass of the loop. -/
lemma Holds.rotate (h : Holds text n i buf) :
    Holds text n (i + 1) (Function.update buf (1 + i) (rot13 (buf (1 + i)))) := by
  refine ⟨?_, fun j => ?_⟩
  · rw [Function.update_of_ne (by omega)]
    exact h.length
  · by_cases hji : j = i
    · subst hji
      rw [Function.update_self, h.chars, if_neg (lt_irrefl j), if_pos (Nat.lt_succ_self j),
        rotated_succ]
    · have hiff : j < i + 1 ↔ j < i := by omega
      rw [Function.update_of_ne (by omega), h.chars]
      simp only [hiff]

/-- All passes are one rotation more. -/
lemma Holds.done (h : Holds text n i buf) (hi : text.length ≤ i) : Holds text (n + 1) 0 buf := by
  refine ⟨h.length, fun j => ?_⟩
  rw [h.chars, if_neg (Nat.not_lt_zero j)]
  split_ifs with hj
  · rfl
  · rw [rotated_of_le (by omega), rotated_of_le (by omega)]

lemma length_line : (line text n).length = text.length := List.length_map _

lemma Holds.getElem? (h : Holds text n 0 buf) {k : ℕ} (hk : k < text.length) :
    (line text n)[k]? = some (buf (1 + k)) := by
  rw [h.chars, if_neg (Nat.not_lt_zero k), line, List.getElem?_map, rotated,
    List.getD_eq_getElem?_getD, List.getElem?_eq_getElem hk]
  rfl

/-- `printf` stops at the end of the text. -/
lemma Holds.printfEnds_iff (h : Holds text n 0 buf) (ht : Fits text) {k : ℕ}
    (hk : k ≤ text.length) :
    printfEnds buf text.length ((line text n).take k) ↔ k = text.length := by
  have hlen : ((line text n).take k).length = k := by
    rw [List.length_take, length_line, Nat.min_eq_left hk]
  rw [printfEnds, hlen]
  constructor
  · rintro (⟨-, hle⟩ | hzero)
    · exact Nat.le_antisymm hk (by exact_mod_cast hle)
    · by_contra hne
      have hlt : k < text.length := Nat.lt_of_le_of_ne hk hne
      rw [h.chars, if_neg (Nat.not_lt_zero k), rotated, List.getD_eq_getElem?_getD,
        List.getElem?_eq_getElem hlt] at hzero
      exact iterate_rot13_ne_zero (ht.ne_zero _ (List.getElem_mem hlt)) n hzero
  · rintro rfl
    exact .inl ⟨Int.natCast_nonneg _, le_rfl⟩

/-! ### One notification for each client -/

/-- Where the notification of a client is that has printed its text `n` times. -/
inductive Turn (text : List Byte) (n : ℕ) : View → Prop
  | idle {buf : ℕ → Byte} (hn : n = 0) : Turn text n ⟨⟨false, buf, 0, []⟩, 0, none⟩
  | queued {buf : ℕ → Byte} (h : Holds text n 0 buf) : Turn text n ⟨⟨true, buf, 0, []⟩, 1, none⟩
  | serving {buf : ℕ → Byte} {i : ℕ} (hi : i ≤ text.length) (h : Holds text n i buf) :
      Turn text n ⟨⟨true, buf, 0, []⟩, 0, some (text.length, i)⟩
  | replied {buf : ℕ → Byte} (h : Holds text (n + 1) 0 buf) :
      Turn text n ⟨⟨true, buf, 1, []⟩, 0, none⟩
  | printing {buf : ℕ → Byte} {k : ℕ} (hk : k ≤ text.length) (h : Holds text (n + 1) 0 buf) :
      Turn text n
        ⟨⟨true, buf, 0, [.printing text.length ((line text (n + 1)).take k)]⟩, 0, none⟩
  | delaying {buf : ℕ → Byte} (h : Holds text n 0 buf) :
      Turn text n ⟨⟨true, buf, 0, [.delaying]⟩, 0, none⟩
  | lost {buf : ℕ → Byte} : Turn text n ⟨⟨true, buf, 0, []⟩, 0, none⟩

def Note.isPrinted : Note → Bool
  | printed .. => true
  | touched _ => false

/-- What a client that has printed its text `n` times may do next; the service's view of a buffer has
32 bytes. -/
def Right (text : List Byte) (n : ℕ) : Note → Prop
  | .touched offset => offset < 32
  | .printed length shown => length = text.length ∧ shown = line text (n + 1)

variable {l l' : View} {ns : List Note}

lemma Turn.step (ht : Fits text) (hturn : Turn text n l) (h : View.Step text l l' ns) :
    Turn text (n + ns.countP Note.isPrinted) l' ∧ ∀ note ∈ ns, Right text n note := by
  have hle := ht.length_le
  cases h with
  | main accepted hstarted =>
    cases hturn with
    | idle hn =>
      subst hn
      refine ⟨?_, by simp⟩
      cases accepted with
      | true => exact .queued ht.holds
      | false => exact .lost
    | _ => cases hstarted
  | serve hqueued hhandler =>
    cases hturn with
    | queued h =>
      cases hqueued
      refine ⟨?_, by simp [Right]⟩
      dsimp only
      rw [h.callbackLength ht]
      exact .serving (Nat.zero_le _) h
    | _ => cases hqueued
  | rotate hhandler hi =>
    cases hturn with
    | serving hi' h =>
      cases hhandler
      refine ⟨.serving (by exact_mod_cast hi) h.rotate, ?_⟩
      simp only [List.mem_singleton, forall_eq, Right]
      omega
    | _ => cases hhandler
  | reply accepted hhandler hi =>
    cases hturn with
    | serving hi' h =>
      cases hhandler
      have hdone := h.done (by exact_mod_cast not_lt.mp hi)
      refine ⟨?_, by simp⟩
      cases accepted with
      | true => exact .replied hdone
      | false => exact .lost
    | _ => cases hhandler
  | called hdue hstarted =>
    cases hturn with
    | replied h =>
      cases hdue
      refine ⟨?_, by simp [Right]⟩
      dsimp only
      rw [h.toInt_length ht]
      exact .printing (Nat.zero_le _) h
    | _ => cases hdue
  | read hcallbacks hends =>
    cases hturn with
    | @printing buf k hk h =>
      cases hcallbacks
      have hlt : k < text.length :=
        Nat.lt_of_le_of_ne hk fun heq => hends ((h.printfEnds_iff ht hk).mpr heq)
      have hlen : ((line text (n + 1)).take k).length = k := by
        rw [List.length_take, length_line, Nat.min_eq_left hk]
      rw [hlen]
      refine ⟨?_, ?_⟩
      · have hshown : (line text (n + 1)).take k ++ [buf (1 + k)] =
            (line text (n + 1)).take (k + 1) := by
          rw [List.take_add_one, h.getElem? hlt]
          rfl
        dsimp only
        rw [hshown]
        exact .printing hlt h
      · simp only [List.mem_singleton, forall_eq, Right]
        omega
    | _ => cases hcallbacks
  | printed hcallbacks hends =>
    cases hturn with
    | printing hk h =>
      cases hcallbacks
      obtain rfl := (h.printfEnds_iff ht hk).mp hends
      refine ⟨.delaying h, ?_⟩
      simp only [List.mem_singleton, forall_eq]
      exact ⟨rfl, List.take_of_length_le length_line.le⟩
    | _ => cases hcallbacks
  | again accepted hcallbacks =>
    cases hturn with
    | delaying h =>
      cases hcallbacks
      refine ⟨?_, by simp⟩
      cases accepted with
      | true => exact .queued h
      | false => exact .lost
    | _ => cases hcallbacks

/-! ### All clients -/

variable {ι : Type} [DecidableEq ι] {texts : ι → List Byte} {w w' w₀ : World ι} {a : Action ι}
  {tr es : List (Event ι)} {c c' : ι}

/-- How often the client has printed its text. -/
def prints (c : ι) (tr : List (Event ι)) : ℕ := tr.countP fun e => e.1 = c && e.2.isPrinted

lemma prints_map_self : prints c (ns.map (Prod.mk c)) = ns.countP Note.isPrinted := by
  rw [prints, List.countP_map]
  congr 1
  funext note
  simp

lemma prints_map_of_ne (h : c' ≠ c) : prints c' (ns.map (Prod.mk c)) = 0 := by
  rw [prints, List.countP_map, List.countP_eq_zero]
  intro note _
  simp [h.symm]

/-- The text as a client shows it after it has printed it `n` times: rotated, and then as it was. -/
lemma line_succ (text : List Byte) (n : ℕ) :
    line text (n + 1) = if Even n then text.map rot13 else text := by
  rw [line]
  split_ifs with hn
  · rw [rot13_involutive.iterate_odd hn.add_one]
  · rw [rot13_involutive.iterate_even (Nat.not_even_iff_odd.mp hn).add_one, List.map_id]

/-- A client prints its text rotated and not, in turn, and nobody leaves the 32 bytes of the length and
the text. -/
def Alternates (texts : ι → List Byte) (pre : List (Event ι)) : Event ι → Prop
  | (_, .touched offset) => offset < 32
  | (c, .printed length shown) => length = (texts c).length ∧
      shown = if Even (prints c pre) then (texts c).map rot13 else texts c

lemma Right.alternates {note : Note} (h : Right (texts c) (prints c tr) note) :
    Alternates texts tr (c, note) := by
  cases note with
  | touched => exact h
  | printed => exact ⟨h.1, h.2.trans (line_succ _ _)⟩

lemma View.Step.subsingleton (h : View.Step text l l' ns) : ns = [] ∨ ∃ note, ns = [note] := by
  cases h with
  | main | reply | again => exact .inl rfl
  | _ => exact .inr ⟨_, rfl⟩

lemma each_alternates (h : Each (Alternates texts) tr) (hns : ns = [] ∨ ∃ note, ns = [note])
    (hright : ∀ note ∈ ns, Right (texts c) (prints c tr) note) :
    Each (Alternates texts) (tr ++ ns.map (Prod.mk c)) := by
  rcases hns with rfl | ⟨note, rfl⟩
  · rwa [List.map_nil, List.append_nil]
  · exact each_concat.mpr ⟨h, (hright note List.mem_cons_self).alternates⟩

lemma Initial.turn (h0 : Initial w₀) (c : ι) : Turn (texts c) 0 (w₀.view c) := by
  obtain ⟨hstarted, hdue, hcallbacks⟩ := h0.client c
  have hclient : w₀.client c = ⟨false, (w₀.client c).buf, 0, []⟩ := by
    rw [← hstarted, ← hdue, ← hcallbacks]
  rw [World.view, h0.due, h0.handler, hclient]
  exact .idle rfl

/-- The service works on no buffer that its client prints: of this client no callback is in progress. -/
def Exclusive (w : World ι) : Prop := ∀ h ∈ w.handler, (w.client h.client).callbacks = []

structure Valid (texts : ι → List Byte) (tr : List (Event ι)) (w : World ι) : Prop where
  turn : ∀ c, Turn (texts c) (prints c tr) (w.view c)
  each : Each (Alternates texts) tr

lemma Initial.valid (h0 : Initial w₀) : Valid texts [] w₀ := ⟨fun c => h0.turn c, each_nil⟩

lemma Valid.step (h : Valid texts tr w) (ht : ∀ c, Fits (texts c)) (hstep : Step texts w a w' es) :
    Valid texts (tr ++ es) w' := by
  obtain ⟨c, ns, hview, rfl, hothers⟩ := hstep.view
  obtain ⟨hturn, hright⟩ := (h.turn c).step (ht c) hview
  refine ⟨fun c' => ?_, each_alternates h.each hview.subsingleton hright⟩
  rw [prints, List.countP_append, ← prints, ← prints]
  by_cases hc : c' = c
  · subst hc
    rw [prints_map_self]
    exact hturn
  · rw [prints_map_of_ne hc, hothers c' hc]
    exact h.turn c'

lemma Turn.callbacks_eq_nil (h : Turn text n l) (hhandler : l.handler ≠ none) :
    l.client.callbacks = [] := by
  cases h with
  | serving => rfl
  | _ => exact absurd rfl hhandler

lemma Valid.exclusive (h : Valid texts tr w) : Exclusive w := by
  rintro ⟨c, length, i⟩ hhandler
  refine (h.turn c).callbacks_eq_nil fun hnone => ?_
  cases (view_handler hhandler).symm.trans hnone

/-- For any number of clients, each with a text of its own, and every interleaving of the service
and the clients byte by byte, with notifications that get lost: each client prints its text rotated,
then as it was, and so on, always whole, no process leaves the bytes of the length and the text, and
the service never works on a buffer that is being printed. -/
theorem clients_alternate (ht : ∀ c, Fits (texts c)) (h0 : Initial w₀)
    (hrun : Run (Step texts) w₀ es w) : Each (Alternates texts) es ∧ Exclusive w :=
  have hv : Valid texts es w :=
    hrun.trace_invariant (Valid texts) (fun _ _ _ _ _ h hstep => h.step ht hstep) h0.valid
  ⟨hv.each, hv.exclusive⟩

/-! ### Two clients -/

def twoTexts : Bool → List Byte
  | true => [72, 105]
  | false => [97, 98]

def nobodyStarted : World Bool := ⟨fun _ => ⟨false, fun _ => 0, 0, []⟩, [], none⟩

/-- The service works for one client while the other one prints. -/
def interleaved : List (Action Bool) :=
  [.main true true, .serve, .main false true, .rotate, .rotate, .reply true, .called true, .serve,
    .read true, .rotate, .read true, .rotate, .reply true, .printed true, .called false,
    .again true true, .serve, .read false, .rotate, .read false, .rotate, .printed false,
    .reply true, .called true, .read true, .read true, .printed true]

def interleavedPrints : List (Event Bool) :=
  [(true, .printed 2 [85, 118]), (false, .printed 2 [110, 111]), (true, .printed 2 [72, 105])]

theorem clients_alternate_two :
    ∃ es w, Run (Step twoTexts) nobodyStarted es w ∧
      es.filter (fun e => e.2.isPrinted) = interleavedPrints ∧
      Each (Alternates twoTexts) es ∧ Exclusive w := by
  have hplay : (play (exec twoTexts) nobodyStarted interleaved).any
      (fun r => r.2.filter (fun e => e.2.isPrinted) = interleavedPrints) = true := by
    decide +kernel
  obtain ⟨es, w, hrun, hes⟩ : ∃ es w, Run (Step twoTexts) nobodyStarted es w ∧
      decide (es.filter (fun e => e.2.isPrinted) = interleavedPrints) = true :=
    Run.of_play_any (fun _ _ _ _ h => h) interleaved hplay
  refine ⟨es, w, hrun, of_decide_eq_true hes,
    clients_alternate ?_ ⟨rfl, rfl, fun _ => ⟨rfl, rfl, rfl⟩⟩ hrun⟩
  intro c
  cases c with
  | true => exact ⟨by decide, by decide⟩
  | false => exact ⟨by decide, by decide⟩

end Ipc.Rot13
