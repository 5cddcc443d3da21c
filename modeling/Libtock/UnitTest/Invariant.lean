import Libtock.UnitTest.Effect

/-!
# The invariant of the world is kept

A run also keeps what it keeps of every single session: what the steps of a runner keep of its own
session, and those of the others leave alone.
-/

namespace UnitTest.World

open Core Tock

variable {c : Processes} {find : Search} {w w' : World} {l l' : List Ptr} {p q : Ptr} {a : Action}
  {es tr : List Note}

/-! ### The list and the handshake -/

lemma inv_initial (s : Supervisor) : (initial s).Inv c [] where
  pending := ⟨rfl, rfl⟩
  ok _ := Session.ok_of_away rfl nofun ⟨rfl, rfl, rfl⟩ (absurd rfl)
  active _ := iff_of_false nofun nofun
  queued _ := iff_of_false nofun nofun

/-- The turns when only one runner's may have changed. -/
lemma Inv.turns_of_others (h : w.Inv c l) (hothers : ∀ q ≠ p, w'.session c q = w.session c q)
    (hactive : (w'.session c p).turn = .active ↔ l'.head? = some p)
    (hqueued : (w'.session c p).turn = .queued ↔ p ∈ l'.tail)
    (hhead : ∀ q ≠ p, l'.head? = some q ↔ l.head? = some q)
    (htail : ∀ q ≠ p, q ∈ l'.tail ↔ q ∈ l.tail) (q : Ptr) :
    ((w'.session c q).turn = .active ↔ l'.head? = some q) ∧
      ((w'.session c q).turn = .queued ↔ q ∈ l'.tail) := by
  by_cases hq : q = p
  · subst hq
    exact ⟨hactive, hqueued⟩
  · rw [hothers q hq, hhead q hq, htail q hq]
    exact ⟨h.active q, h.queued q⟩

/-- A step of one runner. -/
lemma Inv.ok_of_others (h : w.Inv c l) (hothers : ∀ q ≠ p, w'.session c q = w.session c q)
    {label : Label} (hstep : (w.session c p).Step c p label (w'.session c p) es) (q : Ptr) :
    (w'.session c q).Ok c q := by
  by_cases hq : q = p
  · subst hq
    exact hstep.ok (h.ok q)
  · exact hothers q hq ▸ h.ok q

lemma Inv.own (h : w.Inv c l) (hpending : w'.supervisor.Pending l) {label : Label}
    (hstep : (w.session c p).Step c p label (w'.session c p) es)
    (hturn : (w'.session c p).turn = (w.session c p).turn)
    (hothers : ∀ q ≠ p, w'.session c q = w.session c q) : w'.Inv c l := by
  have hturns := h.turns_of_others hothers (hturn ▸ h.active p) (hturn ▸ h.queued p)
    (fun _ _ => Iff.rfl) fun _ _ => Iff.rfl
  exact ⟨hpending, h.ok_of_others hothers hstep, fun q => (hturns q).1, fun q => (hturns q).2⟩

lemma Inv.enlist (h : w.Inv c l) (hpending : w'.supervisor.Pending (l ++ [p])) (hp : p ∉ l)
    (hstep : (w.session c p).Step c p (.enlist (l = [])) (w'.session c p) es)
    (hothers : ∀ q ≠ p, w'.session c q = w.session c q) : w'.Inv c (l ++ [p]) := by
  obtain ⟨-, hturn⟩ := hstep.moves (h.ok p)
  have hturns (q : Ptr) : ((w'.session c q).turn = .active ↔ (l ++ [p]).head? = some q) ∧
      ((w'.session c q).turn = .queued ↔ q ∈ (l ++ [p]).tail) := by
    cases l with
    | nil =>
      refine h.turns_of_others hothers ?_ ?_ ?_ ?_ q
      · simp [hturn]
      · simp [hturn]
      · simp [eq_comm]
      · simp
    | cons first l =>
      have hne : first ≠ p := fun heq => hp (heq ▸ List.mem_cons_self)
      refine h.turns_of_others hothers ?_ ?_ ?_ ?_ q
      · simp [hturn, hne]
      · simp [hturn]
      · simp
      · simp +contextual
  exact ⟨hpending, h.ok_of_others hothers hstep, fun q => (hturns q).1, fun q => (hturns q).2⟩

lemma Inv.release (h : w.Inv c (p :: l)) (hpending : w'.supervisor.Pending l)
    (hstep : (w.session c p).Step c p .release (w'.session c p) es)
    (hnext : ∀ q ∈ l.head?, (w.session c q).Step c q .letIn (w'.session c q)
      [.does (.ipcNotifyClient (c.pid q))])
    (hothers : ∀ q ≠ p, q ∉ l.head? → w'.session c q = w.session c q) : w'.Inv c l := by
  obtain ⟨hp, hnodup⟩ := List.nodup_cons.mp h.pending.1.nodup
  have hturn : (w'.session c p).turn = .after := (hstep.moves (h.ok p)).2
  have hsession (q : Ptr) : (w'.session c q).Ok c q ∧
      ((w'.session c q).turn = .active ↔ l.head? = some q) ∧
      ((w'.session c q).turn = .queued ↔ q ∈ l.tail) := by
    by_cases hq : q = p
    · subst hq
      have hhead : l.head? ≠ some q := fun heq => hp (List.mem_of_mem_head? heq)
      have htail : q ∉ l.tail := fun hmem => hp (List.mem_of_mem_tail hmem)
      exact ⟨hstep.ok (h.ok q), iff_of_false (by simp [hturn]) hhead,
        iff_of_false (by simp [hturn]) htail⟩
    · by_cases hfirst : q ∈ l.head?
      · have hactive : (w'.session c q).turn = .active :=
          ((hnext q hfirst).moves (h.ok q)).2
        have htail : q ∉ l.tail := by
          cases l with
          | nil => exact List.not_mem_nil
          | cons first l =>
            cases hfirst
            exact (List.nodup_cons.mp hnodup).1
        exact ⟨(hnext q hfirst).ok (h.ok q), iff_of_true hactive hfirst,
          iff_of_false (by simp [hactive]) htail⟩
      · rw [hothers q hq hfirst]
        have hactive : (w.session c q).turn ≠ .active := by
          rw [ne_eq, h.active q]
          simpa using Ne.symm hq
        refine ⟨h.ok q, iff_of_false hactive hfirst, (h.queued q).trans ?_⟩
        cases l with
        | nil => rfl
        | cons first l =>
          have hne : q ≠ first := fun heq => hfirst (congrArg some heq.symm)
          simp [hne]
  exact ⟨hpending, fun q => (hsession q).1, fun q => (hsession q).2.1, fun q => (hsession q).2.2⟩

lemma Inv.effect (h : w.Inv c l) (heffect : Effect c w w' a l l' es)
    (hpending : w'.supervisor.Pending l') : w'.Inv c l' := by
  cases heffect with
  | idle hothers =>
    refine ⟨hpending, fun q => ?_, fun q => ?_, fun q => ?_⟩
    · exact hothers q ▸ h.ok q
    · exact hothers q ▸ h.active q
    · exact hothers q ▸ h.queued q
  | @own l p label es hlabel hstep hothers =>
    have hmoves := hstep.moves (h.ok p)
    have hturn : (w'.session c p).turn = (w.session c p).turn := by
      rcases hlabel with rfl | ⟨rfl, -⟩ <;> exact hmoves
    exact h.own hpending hstep hturn hothers
  | search _ _ hstep hothers => exact h.own hpending hstep (hstep.moves (h.ok _)) hothers
  | enlist hp _ hstep hothers => exact h.enlist hpending hp hstep hothers
  | release hstep hnext hothers => exact h.release hpending hstep hnext hothers

/-! ### Properties of every session -/

section

variable {I : Ptr → List Note → Session → Prop} {G : Ptr → Session → Prop}

/-- A step of one session, as part of a step of the world. -/
lemma forall_sessions_of_step
    (hown : ∀ p tr x label x' es, I p tr x → x.Ok c p →
      x.Step c p label x' es → (label = .timeout → G p x) → I p (tr ++ es) x')
    (hother : ∀ p q tr x y label y' es, p ≠ q → I p tr x → I q tr y → y.Ok c q →
      y.Step c q label y' es → I p (tr ++ es) x)
    (hok : (w.session c p).Ok c p) {label : Label} {x' : Session}
    (hstep : (w.session c p).Step c p label x' es) (hG : label = .timeout → G p (w.session c p))
    (hI : ∀ q, I q tr (w.session c q)) (q : Ptr) :
    I q (tr ++ es) (if q = p then x' else w.session c q) := by
  split_ifs with hq
  · subst hq
    exact hown _ _ _ _ _ _ (hI q) hok hstep hG
  · exact hother _ _ _ _ _ _ _ _ hq (hI q) (hI p) hok hstep

lemma Effect.forall_sessions (tr : List Note)
    (hown : ∀ p tr x label x' es, I p tr x → x.Ok c p →
      x.Step c p label x' es → (label = .timeout → G p x) → I p (tr ++ es) x')
    (hother : ∀ p q tr x y label y' es, p ≠ q → I p tr x → I q tr y → y.Ok c q →
      y.Step c q label y' es → I p (tr ++ es) x)
    (h : Effect c w w' a l l' es) (hinv : w.Inv c l)
    (hG : ∀ p, a = .timeout p → G p (w.session c p)) (hI : ∀ p, I p tr (w.session c p)) (q : Ptr) :
    I q (tr ++ es) (w'.session c q) := by
  have hone {p : Ptr} {label : Label}
      (hstep : (w.session c p).Step c p label (w'.session c p) es)
      (hlabel : label = .timeout → G p (w.session c p))
      (hothers : ∀ q ≠ p, w'.session c q = w.session c q) : I q (tr ++ es) (w'.session c q) := by
    have hq := forall_sessions_of_step hown hother (hinv.ok p) hstep hlabel hI q
    split_ifs at hq with heq
    · exact heq ▸ hq
    · rwa [hothers q heq]
  cases h with
  | idle hothers => simpa only [List.append_nil, hothers] using hI q
  | own hlabel hstep hothers =>
    refine hone hstep (fun hlate => ?_) hothers
    rcases hlabel with rfl | ⟨-, ha⟩
    · cases hlate
    · exact hG _ ha
  | search _ _ hstep hothers => exact hone hstep nofun hothers
  | enlist _ _ hstep hothers => exact hone hstep nofun hothers
  | @release _ p es hstep hnext hothers =>
    have hfirst := forall_sessions_of_step hown hother (hinv.ok p) hstep nofun hI
    have hp : p ∉ l' := (List.nodup_cons.mp hinv.pending.1.nodup).1
    cases l' with
    | nil =>
      have hq := hfirst q
      split_ifs at hq with heq
      · simpa [heq] using hq
      · simpa [hothers q heq nofun] using hq
    | cons next l' =>
      have hne : next ≠ p := fun heq => hp (heq ▸ List.mem_cons_self)
      have hadmitted := hnext next rfl
      have hnextI := hfirst next
      rw [if_neg hne] at hnextI
      rw [← List.append_assoc]
      by_cases hq : q = next
      · subst hq
        exact hown _ _ _ _ _ _ hnextI (hinv.ok q) hadmitted nofun
      · have hqI := hfirst q
        have hsession : (if q = p then w'.session c p else w.session c q) = w'.session c q := by
          split_ifs with heq
          · rw [heq]
          · exact (hothers q heq fun hhead => hq (Option.some.inj hhead).symm).symm
        rw [hsession] at hqI
        exact hother _ _ _ _ _ _ _ _ hq hqI hnextI (hinv.ok next) hadmitted

/-- What every session has at the start, and steps keep, holds in every run. -/
lemma forall_sessions_of_run {P : World → Action → Prop} {s : Supervisor}
    (hown : ∀ p tr x label x' es, I p tr x → x.Ok c p →
      x.Step c p label x' es → (label = .timeout → G p x) → I p (tr ++ es) x')
    (hother : ∀ p q tr x y label y' es, p ≠ q → I p tr x → I q tr y → y.Ok c q →
      y.Step c q label y' es → I p (tr ++ es) x)
    (hG : ∀ w p, P w (.timeout p) → G p (w.session c p))
    (hI : ∀ p, I p [] ((initial s).session c p))
    (h : Run (Guarded (Step c find) P) (initial s) tr w) :
    ∃ l, w.Inv c l ∧ ∀ p, I p tr (w.session c p) := by
  refine h.trace_invariant (fun tr w => ∃ l, w.Inv c l ∧ ∀ p, I p tr (w.session c p)) ?_
    ⟨[], inv_initial s, hI⟩
  rintro tr w a w' es ⟨l, hinv, hI⟩ ⟨hP, hstep⟩
  obtain ⟨l', heffect, hpending⟩ := effect_of_step hinv hstep
  refine ⟨l', hinv.effect heffect hpending, fun q => ?_⟩
  refine heffect.forall_sessions tr hown hother hinv (fun p ha => ?_) hI q
  subst ha
  exact hG w p hP

end

end UnitTest.World
