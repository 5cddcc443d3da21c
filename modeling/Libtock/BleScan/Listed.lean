import Libtock.BleScan.World
import Mathlib.Data.List.DropRight

/-!
# Which devices are listed and printed

The list holds the first ten devices that were heard, newest first, each with its first
advertisement, in front of the ten default ones. For each of them the list is printed once, with what
has come before the loop of this print begins, and nothing that comes later. A device whose address is
zero is never listed, since the default advertisements have this address.
-/

namespace BleScan

open Core

def Differ (r r' : ScanResult) : Prop := r.address ≠ r'.address

instance : DecidableRel Differ := fun r r' => inferInstanceAs (Decidable (r.address ≠ r'.address))

/-- It has the address of the default advertisements. -/
def ScanResult.Blank (r : ScanResult) : Prop := r.address = Advertisement.zero.address

instance (r : ScanResult) : Decidable r.Blank := inferInstanceAs (Decidable (_ = _))

/-- The devices that were heard, newest first, each with its first scan result. -/
def devices (rs : List ScanResult) : List ScanResult :=
  (rs.reverse.filter fun r => ¬ r.Blank).pwFilter Differ

/-- The first ten of them. -/
def listed (rs : List ScanResult) : List ScanResult := (devices rs).rtake maxSize

/-- The entries of the list with these devices. -/
def entries (rs : List ScanResult) : List Advertisement :=
  rs.map ScanResult.advertisement ++ List.replicate maxSize .zero

variable {rs : List ScanResult} {r : ScanResult} {n : ℕ}

/-! ### The list -/

lemma rtake_cons_of_le {α : Type*} {l : List α} {a : α} (h : n ≤ l.length) :
    (a :: l).rtake n = l.rtake n := by
  rw [List.rtake, List.rtake, List.length_cons, Nat.succ_sub h, List.drop_succ_cons]

lemma rtake_of_length_le {α : Type*} {l : List α} (h : l.length ≤ n) : l.rtake n = l := by
  rw [List.rtake, Nat.sub_eq_zero_of_le h, List.drop_zero]

/-- The scan result is of a device that gets listed. -/
structure IsNew (rs : List ScanResult) (r : ScanResult) : Prop where
  not_blank : ¬ r.Blank
  room : (listed rs).length < maxSize
  differ : ∀ r' ∈ listed rs, Differ r r'

lemma devices_concat_of_blank (h : r.Blank) : devices (rs ++ [r]) = devices rs := by
  rw [devices, List.reverse_append, List.reverse_singleton, List.singleton_append,
    List.filter_cons_of_neg (by simpa using h), devices]

lemma devices_concat_of_differ (h : ¬ r.Blank) (hdiffer : ∀ r' ∈ devices rs, Differ r r') :
    devices (rs ++ [r]) = r :: devices rs := by
  rw [devices, List.reverse_append, List.reverse_singleton, List.singleton_append,
    List.filter_cons_of_pos (by simpa using h), List.pwFilter_cons_of_pos hdiffer, devices]

lemma devices_concat_of_not_differ (hdiffer : ¬ ∀ r' ∈ devices rs, Differ r r') :
    devices (rs ++ [r]) = devices rs := by
  by_cases h : r.Blank
  · exact devices_concat_of_blank h
  · rw [devices, List.reverse_append, List.reverse_singleton, List.singleton_append,
      List.filter_cons_of_pos (by simpa using h), List.pwFilter_cons_of_neg hdiffer, devices]

/-- As long as there is room, all devices are listed. -/
lemma listed_eq_devices (h : (listed rs).length < maxSize) : listed rs = devices rs := by
  apply rtake_of_length_le
  rw [listed, List.rtake, List.length_drop] at h
  omega

lemma listed_concat_of_isNew (h : IsNew rs r) : listed (rs ++ [r]) = r :: listed rs := by
  obtain ⟨hblank, hroom, hdiffer⟩ := h
  have heq := listed_eq_devices hroom
  rw [heq] at hroom hdiffer ⊢
  rw [listed, devices_concat_of_differ hblank hdiffer]
  exact rtake_of_length_le hroom

lemma listed_concat_of_not_isNew (h : ¬ IsNew rs r) : listed (rs ++ [r]) = listed rs := by
  by_cases hblank : r.Blank
  · rw [listed, devices_concat_of_blank hblank, listed]
  · by_cases hdiffer : ∀ r' ∈ devices rs, Differ r r'
    · rw [listed, devices_concat_of_differ hblank hdiffer, listed]
      refine rtake_cons_of_le (not_lt.mp fun hlt => h ⟨hblank, ?_, fun r' hr' => ?_⟩)
      · rwa [listed, rtake_of_length_le hlt.le]
      · exact hdiffer r' (List.mem_of_mem_drop hr')
    · rw [listed, devices_concat_of_not_differ hdiffer, listed]

/-- The list only grows, at its front. -/
lemma listed_suffix (rs rs' : List ScanResult) : listed rs <:+ listed (rs ++ rs') := by
  induction rs' using List.reverseRecOn with
  | nil => rw [List.append_nil]
  | append_singleton rs' r ih =>
    rw [← List.append_assoc]
    by_cases h : IsNew (rs ++ rs') r
    · rw [listed_concat_of_isNew h]
      exact ih.trans (List.suffix_cons r _)
    · rwa [listed_concat_of_not_isNew h]

lemma containsDevice_entries (l : AdvertisementList) (hlist : l.list = entries rs) :
    l.containsDevice r.advertisement = false ↔ ¬ r.Blank ∧ ∀ r' ∈ rs, Differ r r' := by
  have hzero : Advertisement.zero.deviceDetected r.advertisement = false ↔ ¬ r.Blank := by
    rw [Advertisement.deviceDetected, decide_eq_false_iff_not]
    exact not_congr eq_comm
  rw [AdvertisementList.containsDevice, hlist, entries, List.any_append, Bool.or_eq_false_iff,
    List.any_eq_false, List.any_eq_false]
  constructor
  · rintro ⟨hdevices, hzeros⟩
    refine ⟨hzero.mp (Bool.eq_false_of_not_eq_true (hzeros .zero (by simp [maxSize]))),
      fun r' hr' heq => ?_⟩
    exact hdevices _ (List.mem_map_of_mem hr') (decide_eq_true heq.symm)
  · rintro ⟨hblank, hdiffer⟩
    refine ⟨fun a ha hdet => ?_, fun a ha => ?_⟩
    · obtain ⟨r', hr', rfl⟩ := List.mem_map.mp ha
      exact hdiffer r' hr' (of_decide_eq_true hdet).symm
    · rw [List.eq_of_mem_replicate ha, hzero.mpr hblank]
      exact Bool.false_ne_true

lemma tryAdd_entries {l : AdvertisementList} (hlist : l.list = entries (listed rs))
    (hsize : l.currentSize = (listed rs).length) :
    (IsNew rs r ∧ l.tryAdd r.advertisement =
        (true, ⟨l.currentSize + 1, r.advertisement :: l.list⟩)) ∨
      ¬ IsNew rs r ∧ l.tryAdd r.advertisement = (false, l) := by
  have hiff : (l.currentSize < maxSize ∧ l.containsDevice r.advertisement = false) ↔
      IsNew rs r := by
    rw [containsDevice_entries l hlist, hsize]
    exact ⟨fun h => ⟨h.2.1, h.1, h.2.2⟩, fun h => ⟨h.room, h.not_blank, h.differ⟩⟩
  by_cases h : IsNew rs r
  · exact .inl ⟨h, if_pos (hiff.mpr h)⟩
  · exact .inr ⟨h, if_neg (mt hiff.mp h)⟩

/-! ### The lines -/

variable {tr es : List Event} {w w' : World} {a : Action} {p : Printing}

@[simp] lemma heard_append : heard (tr ++ es) = heard tr ++ heard es := by simp [heard]

lemma listed_before_suffix {tr tr₁ tr₂ : List Event} {e : Event} (h : tr = tr₁ ++ e :: tr₂) :
    listed (heard tr₁) <:+ listed (heard tr) := by
  rw [h, heard_append]
  exact listed_suffix _ _

@[simp] lemma printed_append : printed n (tr ++ es) = printed n tr ++ printed n es := by
  simp [printed]

@[simp] lemma printed_malformed {message : String} : printed n [.malformed message] = [] := rfl

@[simp] lemma printed_heard : printed n [.heard r] = [] := rfl

@[simp] lemma printed_line {m : ℕ} {l : Line} :
    printed n [.line m l] = if m = n then [l] else [] := by
  by_cases h : m = n <;> simp [printed, h]

lemma mem_printed {l : Line} : l ∈ printed n tr ↔ .line n l ∈ tr := by
  rw [printed, List.mem_filterMap]
  constructor
  · rintro ⟨e, he, heq⟩
    cases e with
    | line m l' =>
      obtain ⟨rfl, rfl⟩ : m = n ∧ l' = l := by simpa using heq
      exact he
    | _ => cases heq
  · intro h
    exact ⟨_, h, by simp⟩

/-- What a call of `printList` still writes if it goes on now. -/
def Printing.rest (l : List Advertisement) : Printing → List Line
  | .begins _ => l.flatMap Advertisement.print ++ [.listEnd]
  | .lists _ entries lines => lines ++ entries.flatMap Advertisement.print ++ [.listEnd]

@[simp] lemma Printing.id_begins (id : ℕ) : (Printing.begins id).id = id := rfl

@[simp] lemma Printing.id_lists (id : ℕ) (entries : List Advertisement) (lines : List Line) :
    (Printing.lists id entries lines).id = id := rfl

lemma Printing.advance_eq (id : ℕ) (entries : List Advertisement) (lines : List Line) :
    (∃ line entries' lines', advance id entries lines = (line, some (.lists id entries' lines')) ∧
        lines ++ entries.flatMap Advertisement.print ++ [.listEnd] =
          line :: (lines' ++ entries'.flatMap Advertisement.print ++ [.listEnd])) ∨
      advance id entries lines = (.listEnd, none) ∧
        lines ++ entries.flatMap Advertisement.print ++ [.listEnd] = [.listEnd] := by
  cases lines with
  | cons line lines => exact .inl ⟨line, _, _, rfl, rfl⟩
  | nil =>
    cases entries with
    | cons a entries =>
      refine .inl ⟨_, _, _, rfl, ?_⟩
      simp [Advertisement.print]
    | nil => exact .inr ⟨rfl, rfl⟩

lemma Printing.next_eq (l : List Advertisement) (p : Printing) :
    (∃ line entries lines, p.next l = (line, some (.lists p.id entries lines)) ∧
        p.rest l = line :: (Printing.lists p.id entries lines).rest l) ∨
      p.next l = (.listEnd, none) ∧ p.rest l = [.listEnd] := by
  cases p with
  | begins id => exact advance_eq id l []
  | lists id entries lines => exact advance_eq id entries lines

/-- The `n`-th call, while it has not returned. -/
def World.calls (w : World) (n : ℕ) : List Printing := w.stack.filter fun p => p.id = n

/-- What the `n`-th call still writes if it goes on now. -/
def World.remaining (w : World) (n : ℕ) : List Line :=
  (w.calls n).flatMap (Printing.rest w.list.list)

/-- Only the calls in their first `printf` look at the list again. -/
lemma World.remaining_congr (hcalls : w'.calls n = w.calls n) (h : .begins n ∉ w.calls n) :
    w'.remaining n = w.remaining n := by
  rw [remaining, remaining, hcalls]
  refine congrArg List.flatten (List.map_congr_left fun p hp => ?_)
  cases p with
  | begins id =>
    obtain rfl : id = n := of_decide_eq_true (List.mem_filter.mp hp).2
    exact absurd hp h
  | lists => rfl

/-- The innermost call writes a line. -/
structure Writes (w w' : World) (p : Printing) (line : Line) : Prop where
  list : w'.list = w.list
  remaining : ∀ n, printed n [.line p.id line] ++ w'.remaining n = w.remaining n
  others : ∀ n ≠ p.id, w'.calls n = w.calls n
  begins : .begins p.id ∈ w'.calls p.id → .begins p.id ∈ (w.calls p.id).tail
  length : (w.stack.flatMap (Printing.rest w.list.list)).length =
    (w'.stack.flatMap (Printing.rest w'.list.list)).length + 1

lemma World.print_step (h : w.Step .print w' es) :
    ∃ p stack line, w.stack = p :: stack ∧ es = [.line p.id line] ∧ Writes w w' p line := by
  cases hstack : w.stack with
  | nil => simp [Step, exec, hstack] at h
  | cons p stack =>
    rcases p.next_eq w.list.list with ⟨line, entries, lines, hnext, hrest⟩ | ⟨hnext, hrest⟩
    · simp only [Step, exec, hstack, hnext, Option.some.injEq, Prod.mk.injEq] at h
      obtain ⟨rfl, rfl⟩ := h
      refine ⟨p, stack, line, rfl, rfl, rfl, fun n => ?_, fun n hn => ?_, ?_, ?_⟩
      · by_cases hn : p.id = n
        · simp [remaining, calls, hstack, hn, hrest]
        · simp [remaining, calls, hstack, hn]
      · simp [calls, hstack, hn.symm]
      · simp [calls, hstack]
      · simp [hstack, hrest]
    · simp only [Step, exec, hstack, hnext, Option.some.injEq, Prod.mk.injEq] at h
      obtain ⟨rfl, rfl⟩ := h
      refine ⟨p, stack, .listEnd, rfl, rfl, rfl, fun n => ?_, fun n hn => ?_, ?_, ?_⟩
      · by_cases hn : p.id = n
        · simp [remaining, calls, hstack, hn, hrest]
        · simp [remaining, calls, hstack, hn]
      · simp [calls, hstack, hn.symm]
      · simp [calls, hstack]
      · simp [hstack, hrest]

/-! ### Over whole runs -/

/-- What the `n`-th call of `printList` has written, and what it still has to. -/
inductive Prints (tr : List Event) (w : World) (n : ℕ) : Prop
  /-- There is no such call yet. -/
  | uncalled (size : (listed (heard tr)).length ≤ n) (printed : printed n tr = [])
      (calls : w.calls n = [])
  /-- It waits in its first `printf`. -/
  | begins (size : n < (listed (heard tr)).length) (printed : printed n tr = [.listBegin])
      (calls : w.calls n = [.begins n])
  /-- It prints what was listed before its second line. -/
  | lists {tr₁ tr₂ : List Event} {line : Line} (before : tr = tr₁ ++ .line n line :: tr₂)
      (size : n < (listed (heard tr₁)).length) (first : BleScan.printed n tr₁ = [.listBegin])
      (text : BleScan.printed n tr ++ w.remaining n =
        AdvertisementList.printList (entries (listed (heard tr₁))))
      (calls : .begins n ∉ w.calls n)

/-- Nothing has happened to the `n`-th call. -/
lemma Prints.frame (h : Prints tr w n)
    (hsize : n < (listed (heard (tr ++ es))).length ↔ n < (listed (heard tr)).length)
    (hprinted : BleScan.printed n es = []) (hcalls : w'.calls n = w.calls n) :
    Prints (tr ++ es) w' n := by
  cases h with
  | uncalled size printed calls =>
    refine .uncalled (not_lt.mp (mt hsize.mp (not_lt.mpr size))) ?_ (hcalls.trans calls)
    rw [printed_append, printed, hprinted, List.append_nil]
  | begins size printed calls =>
    refine .begins (hsize.mpr size) ?_ (hcalls.trans calls)
    rw [printed_append, printed, hprinted, List.append_nil]
  | @lists tr₁ tr₂ line before size first text calls =>
    have hbefore : tr ++ es = tr₁ ++ .line n line :: (tr₂ ++ es) := by
      rw [before, List.append_assoc, List.cons_append]
    refine .lists hbefore size first ?_ (hcalls ▸ calls)
    rw [printed_append, hprinted, List.append_nil, World.remaining_congr hcalls calls, text]

/-- The call has not been made. -/
lemma Prints.of_length_le (h : Prints tr w n) (hsize : (listed (heard tr)).length ≤ n) :
    BleScan.printed n tr = [] ∧ w.calls n = [] := by
  cases h with
  | uncalled _ printed calls => exact ⟨printed, calls⟩
  | begins size => exact absurd size (not_lt.mpr hsize)
  | lists before size =>
    exact absurd (size.trans_le (listed_before_suffix before).length_le) (not_lt.mpr hsize)

/-- The call writes a line; its second one decides what it lists. -/
lemma Prints.writes {line : Line} (h : Prints tr w p.id)
    (hlist : w.list.list = entries (listed (heard tr))) (hmem : p ∈ w.calls p.id)
    (hwrites : Writes w w' p line) :
    Prints (tr ++ [.line p.id line]) w' p.id := by
  have hremaining := hwrites.remaining p.id
  rw [printed_line, if_pos rfl] at hremaining
  cases h with
  | uncalled size printed calls =>
    rw [calls] at hmem
    cases hmem
  | begins size printed calls =>
    have hbefore : tr ++ [.line p.id line] = tr ++ .line p.id line :: [] := rfl
    refine .lists hbefore size printed ?_ fun hin => ?_
    · rw [printed_append, printed_line, if_pos rfl, List.append_assoc, hremaining, World.remaining,
        calls, printed, hlist]
      simp [Printing.rest, AdvertisementList.printList]
    · have htail := hwrites.begins hin
      rw [calls] at htail
      cases htail
  | @lists tr₁ tr₂ line' before size first text calls =>
    have hbefore : tr ++ [.line p.id line] =
        tr₁ ++ .line p.id line' :: (tr₂ ++ [.line p.id line]) := by
      rw [before, List.append_assoc, List.cons_append]
    refine .lists hbefore size first ?_ fun hin => ?_
    · rw [printed_append, printed_line, if_pos rfl, List.append_assoc, hremaining, text]
    · exact calls (List.mem_of_mem_tail (hwrites.begins hin))

structure Inv (tr : List Event) (w : World) : Prop where
  list : w.list.list = entries (listed (heard tr))
  size : w.list.currentSize = (listed (heard tr)).length
  prints : ∀ n, Prints tr w n

lemma Inv.congr (h : Inv tr w) (hlist : w'.list = w.list) (hstack : w'.stack = w.stack) :
    Inv tr w' where
  list := by rw [hlist, h.list]
  size := by rw [hlist, h.size]
  prints n := by
    have hframe : Prints (tr ++ []) w' n :=
      (h.prints n).frame (by rw [List.append_nil]) rfl (by rw [World.calls, hstack, World.calls])
    rwa [List.append_nil] at hframe

lemma inv_boot : Inv [] World.boot where
  list := rfl
  size := rfl
  prints n := .uncalled (Nat.zero_le n) rfl rfl

lemma Inv.callback (h : Inv tr w) (result len : ℤ) :
    Inv (tr ++ (w.callback result len).2) (w.callback result len).1 := by
  rw [World.callback]
  split_ifs
  · cases checkScanResult (some w.scan) len with
    | error message =>
      have hheard : heard (tr ++ [.malformed message]) = heard tr := by simp [heard]
      exact ⟨by rw [hheard, h.list], by rw [hheard, h.size],
        fun n => (h.prints n).frame (by rw [hheard]) rfl rfl⟩
    | ok r =>
      rcases tryAdd_entries (r := r) h.list h.size with ⟨hnew, hadd⟩ | ⟨hold, hadd⟩
      · simp only [hadd]
        have hlisted : listed (heard (tr ++ [.heard r, .line w.list.currentSize .listBegin])) =
            r :: listed (heard tr) := by
          rw [heard_append]
          exact listed_concat_of_isNew hnew
        refine ⟨?_, ?_, fun n => ?_⟩
        · rw [hlisted, h.list]
          rfl
        · rw [hlisted, h.size]
          rfl
        · have hevents : printed n [.heard r, .line w.list.currentSize .listBegin] =
              if w.list.currentSize = n then [.listBegin] else [] := printed_line
          by_cases hn : w.list.currentSize = n
          · -- the call that begins
            obtain ⟨hprinted, hcalls⟩ := (h.prints n).of_length_le (by rw [← hn, h.size])
            refine .begins ?_ ?_ ?_
            · rw [hlisted, List.length_cons, ← hn, h.size]
              exact Nat.lt_succ_self _
            · rw [printed_append, hprinted, hevents, if_pos hn]
              rfl
            · have hfilter : (Printing.begins w.list.currentSize :: w.stack).filter
                  (fun p => p.id = n) = .begins w.list.currentSize :: w.calls n :=
                List.filter_cons_of_pos (decide_eq_true hn)
              exact hfilter.trans (by rw [hcalls, hn])
          · refine (h.prints n).frame ?_ (by rw [hevents, if_neg hn]) ?_
            · rw [hlisted, List.length_cons]
              rw [h.size] at hn
              omega
            · exact List.filter_cons_of_neg (mt of_decide_eq_true hn)
      · simp only [hadd]
        have hlisted : listed (heard (tr ++ [.heard r])) = listed (heard tr) := by
          rw [heard_append]
          exact listed_concat_of_not_isNew hold
        exact ⟨by rw [hlisted, h.list], by rw [hlisted, h.size],
          fun n => (h.prints n).frame (by rw [hlisted]) rfl rfl⟩
  · simpa using h

lemma Inv.step (h : Inv tr w) (hstep : w.Step a w' es) : Inv (tr ++ es) w' := by
  cases a with
  | receive buf result len =>
    simp only [World.Step, World.exec, Option.some.injEq, Prod.mk.injEq] at hstep
    obtain ⟨rfl, rfl⟩ := hstep
    rw [List.append_nil]
    exact h.congr rfl rfl
  | upcall =>
    cases hdue : w.due with
    | nil => simp [World.Step, World.exec, hdue] at hstep
    | cons u due =>
      simp only [World.Step, World.exec, hdue, Option.some.injEq] at hstep
      have hw : Inv tr { w with due } := h.congr rfl rfl
      have hcallback := hw.callback u.1 u.2
      rwa [hstep] at hcallback
  | print =>
    obtain ⟨p, stack, line, hstack, rfl, hwrites⟩ := World.print_step hstep
    have hsame : heard (tr ++ [.line p.id line]) = heard tr := by simp [heard]
    refine ⟨?_, ?_, fun n => ?_⟩
    · rw [hsame, hwrites.list, h.list]
    · rw [hsame, hwrites.list, h.size]
    · by_cases hn : n = p.id
      · subst hn
        exact (h.prints p.id).writes h.list (by simp [World.calls, hstack]) hwrites
      · exact (h.prints n).frame (by rw [hsame]) (by simp [Ne.symm hn]) (hwrites.others n hn)

/-- If no other upcall comes, the calls of `printList` end. -/
lemma World.exists_all_printed (w : World) :
    ∃ es w', Run (Guarded Step fun _ a => a = .print) w es w' ∧ w'.stack = [] := by
  induction hn : (w.stack.flatMap (Printing.rest w.list.list)).length generalizing w with
  | zero =>
    cases hstack : w.stack with
    | nil => exact ⟨[], w, .nil, hstack⟩
    | cons p stack => cases p <;> simp [hstack, Printing.rest] at hn
  | succ n ih =>
    obtain ⟨w₁, es, hstep⟩ : ∃ w₁ es, w.Step .print w₁ es := by
      cases hstack : w.stack with
      | nil => simp [hstack] at hn
      | cons p stack =>
        rcases p.next_eq w.list.list with ⟨line, entries, lines, hnext, -⟩ | ⟨hnext, -⟩
        · refine ⟨{ w with stack := .lists p.id entries lines :: stack }, [.line p.id line], ?_⟩
          simp only [Step, exec, hstack, hnext]
        · refine ⟨{ w with stack }, [.line p.id .listEnd], ?_⟩
          simp only [Step, exec, hstack, hnext]
    obtain ⟨p, stack, line, -, -, hwrites⟩ := print_step hstep
    have hlen := hwrites.length
    obtain ⟨es', w', hrun, hstack⟩ := ih w₁ (by omega)
    exact ⟨es ++ es', w', (Run.single ⟨rfl, hstep⟩).trans hrun, hstack⟩

lemma inv_of_run (h : Run World.Step World.boot tr w) : Inv tr w :=
  h.trace_invariant Inv (fun _ _ _ _ _ hI hstep => hI.step hstep) inv_boot

/-- A scan result of 11 bytes from the device with this byte as its address. -/
def scanned (device : U8) : Buffer := fun i =>
  if i = 1 then 9 else if 2 ≤ i ∧ i < 8 then device else 0

/-- All bytes of data in a print had been received if the advertisements in it are complete. -/
lemma printList_received_iff (rs : List ScanResult) :
    (∀ s, .shown s ∈ AdvertisementList.printList (entries rs) → ∃ b, s = .byte b) ↔
      ∀ r ∈ rs, r.Complete := by
  have hmem (s : Shown) : .shown s ∈ AdvertisementList.printList (entries rs) ↔
      (∃ r ∈ rs, .shown s ∈ r.advertisement.print) ∨ .shown s ∈ Advertisement.zero.print := by
    simp [AdvertisementList.printList, entries, maxSize]
  constructor
  · intro hall r hr
    exact (Advertisement.print_received_iff r).mp fun s hs => hall s ((hmem s).mpr (.inl ⟨r, hr, hs⟩))
  · intro hfits s hs
    rcases (hmem s).mp hs with ⟨r, hr, hs⟩ | hs
    · exact (Advertisement.print_received_iff r).mpr (hfits r hr) s hs
    · exact Advertisement.zero_print_received s hs

/-- With no print under way, the call has printed what was on the list then. -/
lemma Prints.of_idle (h : Prints tr w n) (hidle : w.stack = []) :
    (listed (heard tr)).length ≤ n ∧ BleScan.printed n tr = [] ∨
      ∃ rs, rs <:+ listed (heard tr) ∧ n < rs.length ∧
        BleScan.printed n tr = AdvertisementList.printList (entries rs) := by
  have hcalls : w.calls n = [] := by rw [World.calls, hidle, List.filter_nil]
  cases h with
  | uncalled size printed => exact .inl ⟨size, printed⟩
  | begins _ _ calls =>
    rw [hcalls] at calls
    cases calls
  | lists before size _ text =>
    rw [World.remaining, hcalls, List.flatMap_nil, List.append_nil] at text
    exact .inr ⟨_, listed_before_suffix before, size, text⟩

end BleScan
