import Libtock.Core.Run
import Mathlib.Data.Nat.Notation
import Mathlib.Data.List.Basic

/-!
# Progress along runs

A path is a run together with the actions it takes. If no step increases a measure and the actions
of one kind decrease it, then a path that takes enough of them brings it to zero, whatever other
actions come in between: this is how a queue drains under every schedule that is fair to it.
-/

namespace Core

variable {σ α ε : Type*}

/-- `Path step s as es s'`: the actions `as` lead from `s` to `s'` and emit `es`. -/
inductive Path (step : σ → α → σ → List ε → Prop) (s : σ) : List α → List ε → σ → Prop
  | nil : Path step s [] [] s
  | snoc {as : List α} {es es' : List ε} {s₁ s₂ : σ} (a : α) :
      Path step s as es s₁ → step s₁ a s₂ es' → Path step s (as ++ [a]) (es ++ es') s₂

namespace Path

variable {step : σ → α → σ → List ε → Prop} {s s' : σ} {as : List α} {es : List ε}

lemma single {a : α} (h : step s a s' es) : Path step s [a] es s' := by
  simpa using Path.snoc a .nil h

lemma trans {s₁ : σ} {bs : List α} {es' : List ε} (h : Path step s as es s₁)
    (h' : Path step s₁ bs es' s') : Path step s (as ++ bs) (es ++ es') s' := by
  induction h' with
  | nil => simpa using h
  | snoc a _ hstep ih =>
    rw [← List.append_assoc, ← List.append_assoc]
    exact ih.snoc a hstep

/-- A path can be cut after any number of its actions. -/
lemma split {bs : List α} (h : Path step s (as ++ bs) es s') :
    ∃ s₁ es₁ es₂, Path step s as es₁ s₁ ∧ Path step s₁ bs es₂ s' ∧ es = es₁ ++ es₂ := by
  generalize hcs : as ++ bs = cs at h
  induction h generalizing bs with
  | nil =>
    obtain ⟨rfl, rfl⟩ := List.append_eq_nil_iff.mp hcs
    exact ⟨s, [], [], .nil, .nil, rfl⟩
  | @snoc cs es es' s₂ s₃ a h hstep ih =>
    rcases List.eq_nil_or_concat bs with rfl | ⟨bs', b, rfl⟩
    · rw [List.append_nil] at hcs
      subst hcs
      exact ⟨_, _, [], h.snoc a hstep, .nil, (List.append_nil _).symm⟩
    · rw [List.concat_eq_append, ← List.append_assoc] at hcs
      obtain ⟨hinit, hb⟩ := List.append_inj' hcs rfl
      obtain rfl : b = a := by simpa using hb
      obtain ⟨s₁, es₁, es₂, h₁, h₂, rfl⟩ := ih hinit
      rw [List.concat_eq_append]
      exact ⟨s₁, es₁, es₂ ++ es', h₁, h₂.snoc b hstep, List.append_assoc _ _ _⟩

/-- What every step of the path keeps; all its actions meet `Q`. -/
lemma invariant {Q : α → Prop} (I : List ε → σ → Prop)
    (hI : ∀ tr s a s' es, Q a → I tr s → step s a s' es → I (tr ++ es) s')
    (h : Path step s as es s') (hQ : ∀ a ∈ as, Q a) (h0 : I [] s) : I es s' := by
  induction h with
  | nil => exact h0
  | snoc a _ hstep ih =>
    exact hI _ _ _ _ _ (hQ a (by simp)) (ih fun b hb => hQ b (List.mem_append_left _ hb)) hstep

/-- `I s n` says that the measure of `s` is at most `n`; the actions that meet `K` decrease it. -/
lemma drain {Q : α → Prop} {K : α → Bool} (I : σ → ℕ → Prop)
    (hI : ∀ s n a s' es, Q a → I s n → step s a s' es → I s' (n - if K a then 1 else 0))
    (h : Path step s as es s') (hQ : ∀ a ∈ as, Q a) {n : ℕ} (h0 : I s n) :
    I s' (n - as.countP K) := by
  induction h with
  | nil => exact h0
  | snoc a _ hstep ih =>
    have ih := ih fun b hb => hQ b (List.mem_append_left _ hb)
    have h1 := hI _ _ _ _ _ (hQ a (by simp)) ih hstep
    rwa [Nat.sub_sub, ← List.countP_singleton, ← List.countP_append] at h1

/-- The path that a function on states takes. -/
lemma of_play {f : σ → α → Option (σ × List ε)}
    (hf : ∀ s a s' es, f s a = some (s', es) → step s a s' es) (as : List α)
    (h : play f s as = some (s', es)) : Path step s as es s' := by
  induction as generalizing s es with
  | nil =>
    simp only [play, Option.some.injEq, Prod.mk.injEq] at h
    obtain ⟨rfl, rfl⟩ := h
    exact .nil
  | cons a as ih =>
    rw [play] at h
    split at h
    · cases h
    · next s₁ es₁ hstep =>
      obtain ⟨⟨s₂, es₂⟩, hplay, heq⟩ := Option.map_eq_some_iff.mp h
      simp only [Prod.mk.injEq] at heq
      obtain ⟨rfl, rfl⟩ := heq
      exact (Path.single (hf _ _ _ _ hstep)).trans (ih hplay)

end Path

end Core
