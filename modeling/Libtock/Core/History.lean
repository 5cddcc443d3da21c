import Mathlib.Data.List.Infix

/-!
# What the events of a trace owe to those before them

`Each P tr` says that `P` holds of every event of the trace together with the trace before it. A
proof goes along the trace: an event that is added has to meet `P` at the end of it.
-/

namespace Core

variable {ε : Type*} {P : List ε → ε → Prop} {tr es : List ε} {e : ε}

def Each (P : List ε → ε → Prop) (tr : List ε) : Prop := ∀ pre e, pre ++ [e] <+: tr → P pre e

lemma each_nil : Each P [] := by
  intro pre e h
  simp at h

lemma each_concat : Each P (tr ++ [e]) ↔ Each P tr ∧ P tr e := by
  constructor
  · intro h
    exact ⟨fun pre e' hpre => h pre e' (hpre.trans (List.prefix_append _ _)),
      h tr e (List.prefix_refl _)⟩
  · rintro ⟨h, he⟩ pre e' hpre
    rcases List.prefix_concat_iff.mp hpre with heq | hpre
    · obtain ⟨rfl, hsing⟩ := List.append_inj' heq rfl
      obtain rfl : e' = e := by simpa using hsing
      exact he
    · exact h pre e' hpre

lemma each_append (h : Each P tr) (hes : ∀ pre e, pre ++ [e] <+: es → P (tr ++ pre) e) :
    Each P (tr ++ es) := by
  induction es using List.reverseRecOn with
  | nil => rwa [List.append_nil]
  | append_singleton es e ih =>
    rw [← List.append_assoc, each_concat]
    exact ⟨ih fun pre e' hpre => hes pre e' (hpre.trans (List.prefix_append _ _)),
      hes es e (List.prefix_refl _)⟩

end Core
