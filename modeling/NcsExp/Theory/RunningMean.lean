/-
# NcsExp.Theory.RunningMean -- a mean that is computed from the mean before

A cumulative mean over natural numbers: the mean before counts for all numbers so far and
the new number for one, and the quotient is rounded down.  It never sees the sum, so that
what one rounding loses is lost to all later means.

`runningMean_eq_iff`: it is the mean of all numbers, rounded down once, after each number
exactly when the remainder that this rounding leaves never shrinks from one number to
the next.
-/
import Mathlib.Algebra.Ring.Nat
import Mathlib.Data.List.Induction

namespace NcsExp.Theory

set_option autoImplicit false

/-- The mean after one more number `d`, from the mean of `n` numbers. -/
def nextMean (n mean d : Nat) : Nat := (d + n * mean) / (n + 1)

/-- The cumulative mean, from nothing. -/
def runningMean (ds : List Nat) : Nat :=
  (ds.foldl (fun state d => (state.1 + 1, nextMean state.1 state.2 d)) (0, 0)).2

theorem foldl_length (ds : List Nat) :
    (ds.foldl (fun state d => (state.1 + 1, nextMean state.1 state.2 d)) (0, 0)).1 = ds.length := by
  induction ds using List.reverseRecOn with
  | nil => rfl
  | append_singleton ds d ih => rw [List.foldl_append, List.length_append, ← ih]; rfl

theorem runningMean_snoc (ds : List Nat) (d : Nat) :
    runningMean (ds ++ [d]) = nextMean ds.length (runningMean ds) d := by
  rw [runningMean, List.foldl_append, ← foldl_length ds]
  rfl

/-- The remainder of the sum of all numbers, by their number. -/
def remainder (ds : List Nat) : Nat := ds.sum % ds.length

/-- **One step**, from a mean that is right. -/
theorem nextMean_eq_iff (ds : List Nat) (d : Nat) :
    nextMean ds.length (ds.sum / ds.length) d = (ds ++ [d]).sum / (ds ++ [d]).length ↔
      remainder ds ≤ remainder (ds ++ [d]) := by
  have sum : (ds ++ [d]).sum = ds.sum + d := by simp
  have length : (ds ++ [d]).length = ds.length + 1 := by simp
  rw [nextMean, remainder, remainder, sum, length]
  have small : ds.sum % ds.length < ds.length + 1 := by
    cases ds with
    | nil => decide
    | cons x xs => exact Nat.lt_succ_of_lt (Nat.mod_lt _ (Nat.succ_pos _))
  -- what was rounded off is missing from the new sum
  have lost : d + ds.length * (ds.sum / ds.length) = ds.sum + d - ds.sum % ds.length := by
    have parts := Nat.div_add_mod ds.sum ds.length
    omega
  have part := Nat.mod_le ds.sum ds.length
  have positive : 0 < ds.length + 1 := Nat.succ_pos _
  have whole := Nat.div_add_mod (ds.sum + d) (ds.length + 1)
  have below := Nat.mod_lt (ds.sum + d) positive
  rw [lost, Nat.div_eq_iff positive, Nat.mul_comm]
  generalize (ds.length + 1) * ((ds.sum + d) / (ds.length + 1)) = product at *
  omega

/-- **The running mean is the mean** after each of the numbers exactly when the remainder
never shrinks. -/
theorem runningMean_eq_iff (ds : List Nat) :
    (∀ n ≤ ds.length, runningMean (ds.take n) = (ds.take n).sum / n) ↔
      ∀ n < ds.length, remainder (ds.take n) ≤ remainder (ds.take (n + 1)) := by
  induction ds using List.reverseRecOn with
  | nil =>
      refine iff_of_true (fun n empty => ?_) fun n below => absurd below (Nat.not_lt_zero n)
      rw [Nat.le_zero.mp empty]
      rfl
  | append_singleton ds d ih =>
      have length : (ds ++ [d]).length = ds.length + 1 := by simp
      have before {n : Nat} (within : n ≤ ds.length) : (ds ++ [d]).take n = ds.take n :=
        List.take_append_of_le_length within
      have all : (ds ++ [d]).take (ds.length + 1) = ds ++ [d] := List.take_of_length_le (by simp)
      have means : (∀ n ≤ (ds ++ [d]).length,
            runningMean ((ds ++ [d]).take n) = ((ds ++ [d]).take n).sum / n) ↔
          (∀ n ≤ ds.length, runningMean (ds.take n) = (ds.take n).sum / n) ∧
            runningMean (ds ++ [d]) = (ds ++ [d]).sum / (ds.length + 1) := by
        rw [length]
        refine ⟨fun every => ⟨fun n within => ?_, ?_⟩, fun both n within => ?_⟩
        · rw [← before within]
          exact every n (Nat.le_succ_of_le within)
        · have last := every (ds.length + 1) (Nat.le_refl _)
          rwa [all] at last
        · rcases Nat.le_succ_iff.mp within with inside | rfl
          · rw [before inside]
            exact both.1 n inside
          · rw [all]
            exact both.2
      have remainders : (∀ n < (ds ++ [d]).length,
            remainder ((ds ++ [d]).take n) ≤ remainder ((ds ++ [d]).take (n + 1))) ↔
          (∀ n < ds.length, remainder (ds.take n) ≤ remainder (ds.take (n + 1))) ∧
            remainder ds ≤ remainder (ds ++ [d]) := by
        rw [length]
        refine ⟨fun every => ⟨fun n below => ?_, ?_⟩, fun both n below => ?_⟩
        · rw [← before (Nat.le_of_lt below), ← before below]
          exact every n (Nat.lt_succ_of_lt below)
        · have last := every ds.length (Nat.lt_succ_self _)
          rwa [all, before (Nat.le_refl _), List.take_length] at last
        · rcases Nat.lt_succ_iff_lt_or_eq.mp below with inside | rfl
          · rw [before (Nat.le_of_lt inside), before inside]
            exact both.1 n inside
          · rw [all, before (Nat.le_refl _), List.take_length]
            exact both.2
      rw [means, remainders, ← ih]
      refine and_congr_right fun right => ?_
      have mean := right ds.length (Nat.le_refl _)
      rw [List.take_length] at mean
      rw [runningMean_snoc, mean, ← nextMean_eq_iff, length]

end NcsExp.Theory
