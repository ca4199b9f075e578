/-
# NcsExp.Theory.Runs -- guarded runs of a partial labelled machine

A machine is a partial step function `step : σ → α → Option σ`: the action `a`
is possible in `s` exactly when `step s a` is `some _`.  `Reachable step Init ok`
is the set of states that runs reach from `Init` when every action taken meets
the guard `ok`, a condition on the state before the action.  Safety results are
proved by `Reachable.invariant`, or by `Reachable.strengthen` where an invariant
proved before may be used; a concrete run is given as its list of actions and
evaluated by `exec` (`reachable_of_exec`, `exists_reachable_of_exec`).
-/
import Mathlib.Logic.Basic

namespace NcsExp.Theory

set_option autoImplicit false

universe u v

variable {σ : Type u} {α : Type v}

/-- The states of the runs from `Init` whose actions all meet `ok`. -/
inductive Reachable (step : σ → α → Option σ) (Init : σ → Prop) (ok : σ → α → Bool) : σ → Prop
  | start {s : σ} (init : Init s) : Reachable step Init ok s
  | next {s t : σ} {a : α} (before : Reachable step Init ok s) (met : ok s a = true)
      (taken : step s a = some t) : Reachable step Init ok t

/-- The guard of a run nothing is asked of. -/
def unguarded (_ : σ) (_ : α) : Bool := true

namespace Reachable

variable {step : σ → α → Option σ} {Init : σ → Prop} {ok ok' : σ → α → Bool}

/-- **The invariant rule.** -/
theorem invariant {P : σ → Prop} (init : ∀ s, Init s → P s)
    (keeps : ∀ s a t, P s → ok s a = true → step s a = some t → P t) {s : σ}
    (run : Reachable step Init ok s) : P s := by
  induction run with
  | start started => exact init _ started
  | next _ met taken ih => exact keeps _ _ _ ih met taken

/-- The invariant rule, relative to an invariant already known of these runs. -/
theorem strengthen {P Q : σ → Prop} (known : ∀ s, Reachable step Init ok s → Q s)
    (init : ∀ s, Init s → P s)
    (keeps : ∀ s a t, Q s → P s → ok s a = true → step s a = some t → P t) {s : σ}
    (run : Reachable step Init ok s) : P s := by
  induction run with
  | start started => exact init _ started
  | next before met taken ih => exact keeps _ _ _ (known _ before) ih met taken

/-- A run under a guard is a run under a weaker one. -/
theorem mono (weaker : ∀ s a, ok s a = true → ok' s a = true) {s : σ}
    (run : Reachable step Init ok s) : Reachable step Init ok' s := by
  induction run with
  | start started => exact .start started
  | next _ met taken ih => exact .next ih (weaker _ _ met) taken

end Reachable

/-! ## Concrete runs -/

variable (step : σ → α → Option σ) (ok : σ → α → Bool)

/-- Take a list of actions, refusing the first one that is not possible or not met
by the guard. -/
def exec (s : σ) : List α → Option σ
  | [] => some s
  | a :: rest => if ok s a then (step s a).bind fun t => exec t rest else none

variable {step ok} {Init : σ → Prop}

theorem reachable_of_exec_from {s t : σ} {actions : List α}
    (before : Reachable step Init ok s) (taken : exec step ok s actions = some t) :
    Reachable step Init ok t := by
  induction actions generalizing s with
  | nil =>
      cases taken
      exact before
  | cons a rest ih =>
      simp only [exec, Option.ite_none_right_eq_some, Option.bind_eq_some_iff] at taken
      obtain ⟨met, middle, first, tail⟩ := taken
      exact ih (.next before met first) tail

/-- A list of actions that the machine and the guard accept is a run. -/
theorem reachable_of_exec {s t : σ} {actions : List α} (init : Init s)
    (taken : exec step ok s actions = some t) : Reachable step Init ok t :=
  reachable_of_exec_from (.start init) taken

/-- A list of actions that leads to a state of the kind looked for. -/
theorem exists_reachable_of_exec {s : σ} {actions : List α} {p : σ → Bool} (init : Init s)
    (found : (exec step ok s actions).any p = true) :
    ∃ t, Reachable step Init ok t ∧ p t = true := by
  obtain ⟨t, taken, holds⟩ := (Option.any_eq_true _ _).mp found
  exact ⟨t, reachable_of_exec init taken, holds⟩

end NcsExp.Theory
