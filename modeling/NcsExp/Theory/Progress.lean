/-
# NcsExp.Theory.Progress -- what one party's own steps lead to

`Leads step mine s t`: from `s` the actions in `mine` alone lead to `t`.  A rank that
every such action lowers leads to the goal (`Leads.exists_of_rank`).
-/
import Mathlib.Logic.Basic

namespace NcsExp.Theory

set_option autoImplicit false

universe u v

variable {σ : Type u} {α : Type v}

/-- From `s` the actions in `mine` lead to `t`. -/
inductive Leads (step : σ → α → Option σ) (mine : α → Prop) (s : σ) : σ → Prop
  | here : Leads step mine s s
  | next {t w : σ} {a : α} (before : Leads step mine s t) (own : mine a)
      (taken : step t a = some w) : Leads step mine s w

namespace Leads

variable {step : σ → α → Option σ} {mine : α → Prop}

theorem trans {s t w : σ} (first : Leads step mine s t) (second : Leads step mine t w) :
    Leads step mine s w := by
  induction second with
  | here => exact first
  | next _ own taken ih => exact .next ih own taken

/-- **The progress rule.**  Where every state of `P` has an action of one's own that
reaches the goal or stays in `P` with a lower rank, the goal is reached. -/
theorem exists_of_rank {P goal : σ → Prop} (rank : σ → Nat)
    (moves : ∀ s, P s → ∃ a t, mine a ∧ step s a = some t ∧ (goal t ∨ P t ∧ rank t < rank s))
    {s : σ} (start : P s) : ∃ t, Leads step mine s t ∧ goal t := by
  induction size : rank s using Nat.strongRecOn generalizing s with
  | ind n ih =>
      obtain ⟨a, t, own, taken, reached | ⟨again, lower⟩⟩ := moves s start
      · exact ⟨t, .next .here own taken, reached⟩
      · rw [size] at lower
        obtain ⟨w, rest, reached⟩ := ih (rank t) lower again rfl
        exact ⟨w, trans (.next .here own taken) rest, reached⟩

end Leads

end NcsExp.Theory
