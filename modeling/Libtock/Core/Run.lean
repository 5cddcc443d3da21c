import Mathlib.Logic.Relation

/-!
# Runs of labelled systems

A system is a step relation on states `σ` whose steps are labelled by an action `α` and emit a
list of events `ε`. A run is a finite sequence of steps; its trace is the concatenation of what
the steps emitted. `Guarded` restricts a system to the steps that meet a side condition.
-/

namespace Core

variable {σ α ε : Type*}

/-- The steps of `step` whose action meets `P` in the state it starts from. -/
def Guarded (step : σ → α → σ → List ε → Prop) (P : σ → α → Prop) :
    σ → α → σ → List ε → Prop :=
  fun s a s' es => P s a ∧ step s a s' es

/-- `Run step s es s'`: some sequence of steps leads from `s` to `s'` and emits `es`. -/
inductive Run (step : σ → α → σ → List ε → Prop) (s : σ) : List ε → σ → Prop
  | nil : Run step s [] s
  | snoc {es es' : List ε} {s₁ s₂ : σ} (a : α) :
      Run step s es s₁ → step s₁ a s₂ es' → Run step s (es ++ es') s₂

variable {step step' : σ → α → σ → List ε → Prop}

lemma Run.single {s s' : σ} {a : α} {es : List ε} (h : step s a s' es) : Run step s es s' := by
  simpa using Run.snoc a .nil h

lemma Run.trans {s s₁ s₂ : σ} {es es' : List ε} (h : Run step s es s₁)
    (h' : Run step s₁ es' s₂) : Run step s (es ++ es') s₂ := by
  induction h' with
  | nil => simpa using h
  | snoc a _ hstep ih =>
    rw [← List.append_assoc]
    exact ih.snoc a hstep

lemma Run.mono (hsub : ∀ s a s' es, step s a s' es → step' s a s' es) {s s' : σ} {es : List ε}
    (h : Run step s es s') : Run step' s es s' := by
  induction h with
  | nil => exact .nil
  | snoc a _ hstep ih => exact ih.snoc a (hsub _ _ _ _ hstep)

/-- A run of the guarded system is a run of the system. -/
lemma Run.of_guarded {P : σ → α → Prop} {s s' : σ} {es : List ε}
    (h : Run (Guarded step P) s es s') : Run step s es s' :=
  h.mono fun _ _ _ _ hstep => hstep.2

/-- A property of the trace so far and the state that every step keeps holds of every run. -/
lemma Run.trace_invariant (I : List ε → σ → Prop)
    (hI : ∀ tr s a s' es, I tr s → step s a s' es → I (tr ++ es) s')
    {s s' : σ} {es : List ε} (h : Run step s es s') (h0 : I [] s) : I es s' := by
  induction h with
  | nil => exact h0
  | snoc a _ hstep ih => exact hI _ _ _ _ _ ih hstep

/-- Simulation: if related states answer every step by a run, related states answer every run. -/
lemma Run.simulate {τ β : Type*} {astep : τ → β → τ → List ε → Prop} (R : σ → τ → Prop)
    (hR : ∀ s a s' es t, R s t → step s a s' es → ∃ t', R s' t' ∧ Run astep t es t')
    {s s' : σ} {es : List ε} (h : Run step s es s') {t : τ} (h0 : R s t) :
    ∃ t', R s' t' ∧ Run astep t es t' := by
  induction h with
  | nil => exact ⟨t, h0, .nil⟩
  | snoc a _ hstep ih =>
    obtain ⟨t₁, hR₁, hrun⟩ := ih
    obtain ⟨t₂, hR₂, hrun'⟩ := hR _ _ _ _ _ hR₁ hstep
    exact ⟨t₂, hR₂, hrun.trans hrun'⟩

/-- A run is empty or has a first step. -/
lemma Run.head {s s' : σ} {es : List ε} (h : Run step s es s') :
    s = s' ∧ es = [] ∨
      ∃ a s₁ es₁ es₂, step s a s₁ es₁ ∧ Run step s₁ es₂ s' ∧ es = es₁ ++ es₂ := by
  induction h with
  | nil => exact .inl ⟨rfl, rfl⟩
  | @snoc es es' s₁ s₂ a hrun hstep ih =>
    right
    rcases ih with ⟨rfl, rfl⟩ | ⟨b, s₃, es₁, es₂, hfirst, hrest, rfl⟩
    · exact ⟨a, s₂, es', [], hstep, .nil, (List.append_nil _).symm⟩
    · exact ⟨b, s₃, es₁, es₂ ++ es', hfirst, hrest.snoc a hstep, List.append_assoc _ _ _⟩

/-- In a deterministic system each run is the beginning of one that ends in a state without
steps. -/
lemma Run.extend (hdet : ∀ s a s₁ es₁ b s₂ es₂, step s a s₁ es₁ → step s b s₂ es₂ →
      s₁ = s₂ ∧ es₁ = es₂) {s s₁ s' : σ} {es es' : List ε} (h : Run step s es s₁)
    (hend : Run step s es' s') (hfinal : ∀ a s'' es'', ¬ step s' a s'' es'') :
    ∃ rest, Run step s₁ rest s' ∧ es' = es ++ rest := by
  induction h with
  | nil => exact ⟨es', hend, rfl⟩
  | @snoc es es₁ s₂ s₃ a _ hstep ih =>
    obtain ⟨rest, hrest, rfl⟩ := ih
    rcases hrest.head with ⟨rfl, -⟩ | ⟨b, s₄, es₂, es₃, hfirst, htail, rfl⟩
    · exact absurd hstep (hfinal _ _ _)
    · obtain ⟨rfl, rfl⟩ := hdet _ _ _ _ _ _ _ hstep hfirst
      exact ⟨es₃, htail, (List.append_assoc _ _ _).symm⟩

/-! ### Systems given by a function -/

/-- Performs the actions one after the other; `none` as soon as one of them is impossible. -/
def play (f : σ → α → Option (σ × List ε)) (s : σ) : List α → Option (σ × List ε)
  | [] => some (s, [])
  | a :: as =>
    match f s a with
    | none => none
    | some (s₁, es) => (play f s₁ as).map fun r => (r.1, es ++ r.2)

lemma Run.of_play {f : σ → α → Option (σ × List ε)}
    (hf : ∀ s a s' es, f s a = some (s', es) → step s a s' es) {s s' : σ} (as : List α)
    {es : List ε} (h : play f s as = some (s', es)) : Run step s es s' := by
  induction as generalizing s es with
  | nil =>
    simp only [play, Option.some.injEq, Prod.mk.injEq] at h
    obtain ⟨rfl, rfl⟩ := h
    exact .nil
  | cons a as ih =>
    rw [play] at h
    split at h
    · cases h
    · next s₁ es₁ hstep =>
      obtain ⟨⟨s₂, es₂⟩, hplay, heq⟩ := Option.map_eq_some_iff.mp h
      simp only [Prod.mk.injEq] at heq
      obtain ⟨rfl, rfl⟩ := heq
      exact (Run.single (hf _ _ _ _ hstep)).trans (ih hplay)

/-- A run whose outcome passes a test. -/
lemma Run.of_play_any {f : σ → α → Option (σ × List ε)}
    (hf : ∀ s a s' es, f s a = some (s', es) → step s a s' es) {s : σ} (as : List α)
    {P : σ × List ε → Bool} (h : (play f s as).any P = true) :
    ∃ es s', Run step s es s' ∧ P (s', es) = true := by
  obtain ⟨⟨s', es⟩, hplay, hP⟩ := (Option.any_eq_true _ _).mp h
  exact ⟨es, s', .of_play hf as hplay, hP⟩

/-- `f`, for the actions that meet `P` only. -/
def restrict (f : σ → α → Option (σ × List ε)) (P : σ → α → Prop) [∀ s a, Decidable (P s a)]
    (s : σ) (a : α) : Option (σ × List ε) :=
  if P s a then f s a else none

lemma Run.of_play_restrict {f : σ → α → Option (σ × List ε)}
    (hf : ∀ s a s' es, f s a = some (s', es) → step s a s' es) {P : σ → α → Prop}
    [∀ s a, Decidable (P s a)] {s s' : σ} (as : List α) {es : List ε}
    (h : play (restrict f P) s as = some (s', es)) : Run (Guarded step P) s es s' := by
  apply Run.of_play _ as h
  intro s a s' es hstep
  rw [restrict] at hstep
  split at hstep
  · next hP => exact ⟨hP, hf s a s' es hstep⟩
  · cases hstep

lemma Run.of_play_restrict_any {f : σ → α → Option (σ × List ε)}
    (hf : ∀ s a s' es, f s a = some (s', es) → step s a s' es) {P : σ → α → Prop}
    [∀ s a, Decidable (P s a)] {s : σ} (as : List α) {Q : σ × List ε → Bool}
    (h : (play (restrict f P) s as).any Q = true) :
    ∃ es s', Run (Guarded step P) s es s' ∧ Q (s', es) = true := by
  obtain ⟨⟨s', es⟩, hplay, hQ⟩ := (Option.any_eq_true _ _).mp h
  exact ⟨es, s', .of_play_restrict hf as hplay, hQ⟩

end Core
