/-
# NcsExp.Theory.FloatOrder -- comparing single precision numbers

`<` on `Float32` is a strict order, and on what is not a NaN it is the order of a rank:
the infinities outside, the negative numbers below zero, and numbers of one sign by
exponent and then by mantissa (`lt_iff_rank`).  A comparison with a NaN is false.
-/
import Mathlib.Logic.Basic

namespace NcsExp.Theory.FloatOrder

open Float.Model

set_option autoImplicit false

/-- A place in the order: side of zero, exponent, mantissa. -/
structure Rank where
  side : Int
  exponent : Int
  mantissa : Int

def Rank.Below (a b : Rank) : Prop :=
  a.side < b.side ∨ a.side = b.side ∧
    (a.exponent < b.exponent ∨ a.exponent = b.exponent ∧ a.mantissa < b.mantissa)

/-- The place of a number; a NaN has none. -/
def rank : UnpackedFloat → Option Rank
  | .notANumber => none
  | .infinity .negative => some ⟨-2, 0, 0⟩
  | .finite .negative m e _ => some ⟨-1, -e, -m⟩
  | .zero _ => some ⟨0, 0, 0⟩
  | .finite .positive m e _ => some ⟨1, e, m⟩
  | .infinity .positive => some ⟨2, 0, 0⟩

theorem then_eq_lt (e f : Int) (m n : Nat) :
    (compare e f).then (compare m n) = .lt ↔ e < f ∨ e = f ∧ m < n := by
  rw [Ordering.then_eq_lt, Int.compare_eq_lt, Int.compare_eq_eq, Nat.compare_eq_lt]

theorem then_eq_gt (e f : Int) (m n : Nat) :
    (compare e f).then (compare m n) = .gt ↔ f < e ∨ e = f ∧ n < m := by
  rw [Ordering.then_eq_gt, Int.compare_eq_gt, Int.compare_eq_eq, Nat.compare_eq_gt]

/-- **The order of the rank.** -/
theorem compare_eq_lt (x y : UnpackedFloat) :
    x.compare y = some .lt ↔ ∃ a b, rank x = some a ∧ rank y = some b ∧ a.Below b := by
  cases x with
  | notANumber =>
      dsimp only [UnpackedFloat.compare, rank]
      simp
  | infinity s =>
      cases s <;> cases y with
      | notANumber =>
          dsimp only [UnpackedFloat.compare, rank]
          simp
      | infinity t =>
          cases t <;> dsimp only [UnpackedFloat.compare, rank] <;> simp [Rank.Below] <;> decide
      | zero t =>
          dsimp only [UnpackedFloat.compare, rank]
          simp [Rank.Below]
      | finite t n f _ => cases t <;> dsimp only [UnpackedFloat.compare, rank] <;> simp [Rank.Below]
  | zero s =>
      cases y with
      | notANumber =>
          dsimp only [UnpackedFloat.compare, rank]
          simp
      | infinity t => cases t <;> dsimp only [UnpackedFloat.compare, rank] <;> simp [Rank.Below]
      | zero t =>
          dsimp only [UnpackedFloat.compare, rank]
          simp [Rank.Below]
      | finite t n f _ => cases t <;> dsimp only [UnpackedFloat.compare, rank] <;> simp [Rank.Below]
  | finite s m e _ =>
      cases s <;> cases y with
      | notANumber =>
          dsimp only [UnpackedFloat.compare, rank]
          simp
      | infinity t => cases t <;> dsimp only [UnpackedFloat.compare, rank] <;> simp [Rank.Below]
      | zero t =>
          dsimp only [UnpackedFloat.compare, rank]
          simp [Rank.Below]
      | finite t n f _ =>
          cases t <;> dsimp only [UnpackedFloat.compare, rank] <;>
            simp [Rank.Below, Ordering.swap_eq_lt, then_eq_lt, then_eq_gt]

/-! ## On `Float32` -/

/-- The place of a number. -/
def place (x : Float32) : Option Rank := rank x.toModel.unpack

theorem lt_iff (x y : Float32) :
    x < y ↔ ∃ a b, place x = some a ∧ place y = some b ∧ a.Below b := by
  rw [place, place, ← compare_eq_lt]
  show Float32.lt x y = true ↔ _
  simp [Float32.lt, LT.lt, Float32.Model.lt, UnpackedFloat.lt]

theorem place_isSome (x : Float32) : (place x).isSome = !x.isNaN := by
  show (rank x.toModel.unpack).isSome = !x.toModel.unpack.isNaN
  cases x.toModel.unpack with
  | notANumber => rfl
  | zero s => rfl
  | infinity s => cases s <;> rfl
  | finite s m e _ => cases s <;> rfl

/-- What is below something is a number. -/
theorem isNaN_of_lt {x y : Float32} (below : x < y) : x.isNaN = false := by
  obtain ⟨a, _, atX, _, _⟩ := (lt_iff x y).mp below
  have number := place_isSome x
  rw [atX] at number
  simpa using number.symm

theorem lt_irrefl (x : Float32) : ¬ x < x := by
  rw [lt_iff]
  rintro ⟨a, b, atX, atX', below⟩
  rw [atX, Option.some.injEq] at atX'
  subst atX'
  unfold Rank.Below at below
  omega

theorem lt_trans {x y z : Float32} (first : x < y) (second : y < z) : x < z := by
  rw [lt_iff] at *
  obtain ⟨a, b, atX, atY, below⟩ := first
  obtain ⟨b', c, atY', atZ, below'⟩ := second
  rw [atY, Option.some.injEq] at atY'
  subst atY'
  refine ⟨a, c, atX, atZ, ?_⟩
  unfold Rank.Below at *
  omega

/-- Among numbers, not below is transitive. -/
theorem not_lt_trans {x y z : Float32} (num : y.isNaN = false) (first : ¬ y < x)
    (second : ¬ z < y) : ¬ z < x := by
  rw [lt_iff] at *
  rintro ⟨c, a, atZ, atX, below⟩
  have number := place_isSome y
  rw [num, Bool.not_false, Option.isSome_iff_exists] at number
  obtain ⟨b, atY⟩ := number
  have notFirst : ¬ b.Below a := fun below => first ⟨b, a, atY, atX, below⟩
  have notSecond : ¬ c.Below b := fun below => second ⟨c, b, atZ, atY, below⟩
  unfold Rank.Below at *
  omega

end NcsExp.Theory.FloatOrder
