/-
# NcsExp.Theory.Loops -- loops that may go on for ever

A loop is one turn, which goes again from a new state or leaves with a result.  `loop` runs
it with fuel; `Again` is the relation between a state and those that its turns lead to.

* `Again.invariant`: what every turn keeps holds as long as the loop goes on.
* `exists_loop_iff`: enough fuel gives a result exactly when some state is left with it.
* `idles_of_never`: a loop that never returns and never raises a rank idles from some state
  on, its rank the same for ever.
-/
import Mathlib.Data.Nat.Find

namespace NcsExp.Theory

set_option autoImplicit false

universe u v

/-- What a turn leads to. -/
inductive Turn (σ : Type u) (ρ : Type v)
  | again (s : σ)
  | leave (r : ρ)

variable {σ : Type u} {ρ : Type v}

/-- The loop, for at most so many turns. -/
def loop (turn : σ → Turn σ ρ) : Nat → σ → Option ρ
  | 0, _ => none
  | fuel + 1, s =>
      match turn s with
      | .again t => loop turn fuel t
      | .leave r => some r

/-- The loop goes on from `s` to `t`. -/
inductive Again (turn : σ → Turn σ ρ) (s : σ) : σ → Prop
  | here : Again turn s s
  | next {t u : σ} (before : Again turn s t) (goes : turn t = .again u) : Again turn s u

variable {turn : σ → Turn σ ρ} {s t u : σ} {r : ρ} {fuel : Nat}

theorem loop_succ_of_again (goes : turn s = .again t) :
    loop turn (fuel + 1) s = loop turn fuel t := by
  rw [loop, goes]

theorem loop_succ_of_leave (leaves : turn s = .leave r) : loop turn (fuel + 1) s = some r := by
  rw [loop, leaves]

namespace Again

theorem head (goes : turn s = .again t) (rest : Again turn t u) : Again turn s u := by
  induction rest with
  | here => exact .next .here goes
  | next _ last ih => exact .next ih last

theorem trans (first : Again turn s t) (second : Again turn t u) : Again turn s u := by
  induction second with
  | here => exact first
  | next _ last ih => exact .next ih last

/-- **The invariant rule.** -/
theorem invariant {P : σ → Prop} (start : P s) (keeps : ∀ t u, P t → turn t = .again u → P u)
    (goes : Again turn s t) : P t := by
  induction goes with
  | here => exact start
  | next _ last ih => exact keeps _ _ ih last

theorem loop_eq (goes : Again turn s t) (returns : loop turn fuel t = some r) :
    ∃ more, loop turn more s = some r := by
  induction goes generalizing fuel with
  | here => exact ⟨fuel, returns⟩
  | next _ last ih => exact ih ((loop_succ_of_again last).trans returns)

end Again

/-- The state from which a loop returned. -/
theorem exists_leave_of_loop (returns : loop turn fuel s = some r) :
    ∃ t, Again turn s t ∧ turn t = .leave r := by
  induction fuel generalizing s with
  | zero => cases returns
  | succ fuel ih =>
      cases here : turn s with
      | again t =>
          rw [loop_succ_of_again here] at returns
          obtain ⟨u, goes, leaves⟩ := ih returns
          exact ⟨u, .head here goes, leaves⟩
      | leave r' =>
          rw [loop_succ_of_leave here] at returns
          cases returns
          exact ⟨s, .here, here⟩

/-- **Enough fuel.** -/
theorem exists_loop_iff :
    (∃ fuel, loop turn fuel s = some r) ↔ ∃ t, Again turn s t ∧ turn t = .leave r := by
  constructor
  · rintro ⟨fuel, returns⟩
    exact exists_leave_of_loop returns
  · rintro ⟨t, goes, leaves⟩
    have one : loop turn 1 t = some r := loop_succ_of_leave leaves
    exact goes.loop_eq one

/-- A loop that never returns has another turn wherever it is. -/
theorem exists_again_of_never (never : ¬ ∃ fuel r, loop turn fuel s = some r)
    (goes : Again turn s t) : ∃ u, turn t = .again u := by
  cases here : turn t with
  | again u => exact ⟨u, rfl⟩
  | leave r =>
      obtain ⟨fuel, returns⟩ := exists_loop_iff.mpr ⟨t, goes, here⟩
      exact absurd ⟨fuel, r, returns⟩ never

/-- **A loop that never returns** and whose turns never raise the rank. -/
theorem idles_of_never (rank : σ → Nat)
    (falls : ∀ t u, Again turn s t → turn t = .again u → rank u ≤ rank t)
    (never : ¬ ∃ fuel r, loop turn fuel s = some r) :
    ∃ t, Again turn s t ∧ ∀ u, Again turn t u → ∃ v, turn u = .again v ∧ rank v = rank u := by
  classical
  have some_ : ∃ n t, Again turn s t ∧ rank t = n := ⟨rank s, s, .here, rfl⟩
  obtain ⟨t, goes, least⟩ := Nat.find_spec some_
  refine ⟨t, goes, fun u further => ?_⟩
  have there := goes.trans further
  obtain ⟨v, last⟩ := exists_again_of_never never there
  -- no rank is below that of `t`, and the turns from `t` on do not raise it
  have above : rank t ≤ rank v := least ▸ Nat.find_min' some_ ⟨v, there.next last, rfl⟩
  have below : Again turn s u ∧ rank u ≤ rank t :=
    further.invariant (P := fun u => Again turn s u ∧ rank u ≤ rank t) ⟨goes, Nat.le_refl _⟩
      fun u w before last =>
        ⟨before.1.next last, Nat.le_trans (falls u w before.1 last) before.2⟩
  exact ⟨v, last, Nat.le_antisymm (falls u v there last) (Nat.le_trans below.2 above)⟩

end NcsExp.Theory
