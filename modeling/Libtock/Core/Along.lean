import Mathlib.Logic.Basic

/-!
# Conditions along a sequence of calls

`Along f P s as` says that `P` holds of every call of `as` in the state in which it is made, the
calls being made one after the other from `s`. If an invariant reduces what is asked of each call
to a local condition, it reduces what is asked of the sequence to that condition along it.
-/

namespace Core

variable {σ α : Type*}

/-- `P` holds at every call of a sequence that starts in `s`. -/
def Along (f : σ → α → σ) (P : σ → α → Prop) : σ → List α → Prop
  | _, [] => True
  | s, a :: as => P s a ∧ Along f P (f s a) as

instance (f : σ → α → σ) (P : σ → α → Prop) [∀ s a, Decidable (P s a)] :
    ∀ s as, Decidable (Along f P s as)
  | _, [] => inferInstanceAs (Decidable True)
  | s, a :: as =>
    have := instDecidableAlong f P (f s a) as
    inferInstanceAs (Decidable (P s a ∧ Along f P (f s a) as))

/-- Where `P` keeps the invariant `I`, and is `Q` under it, `Q` holds all along iff `P` does. -/
lemma along_congr {f : σ → α → σ} {P Q : σ → α → Prop} {I : σ → Prop}
    (hkeep : ∀ s a, I s → P s a → I (f s a)) (hiff : ∀ s a, I s → (Q s a ↔ P s a)) {s : σ}
    (hs : I s) (as : List α) : Along f Q s as ↔ Along f P s as := by
  induction as generalizing s with
  | nil => exact Iff.rfl
  | cons a as ih =>
    have hPQ := hiff s a hs
    constructor
    · rintro ⟨hQ, has⟩
      have hP := hPQ.mp hQ
      exact ⟨hP, (ih (hkeep s a hs hP)).mp has⟩
    · rintro ⟨hP, has⟩
      exact ⟨hPQ.mpr hP, (ih (hkeep s a hs hP)).mpr has⟩

end Core
