/-
# NcsExp.Theory.OrderStatistics -- what a few outliers cannot move

Of `n` values all but at most `k` are between `lo` and `hi`.  Then so is each value of the
sorted list that has `k` values on either side (`trimmed_between`).
-/
import Mathlib.Data.List.Basic
import Mathlib.Order.Lattice

namespace NcsExp.Theory

set_option autoImplicit false

universe u

variable {α : Type u} [LinearOrder α]

/-- The values that are between the bounds. -/
def within (lo hi : α) (values : List α) : Nat :=
  values.countP fun a => decide (lo ≤ a ∧ a ≤ hi)

theorem within_append (lo hi : α) (left right : List α) :
    within lo hi (left ++ right) = within lo hi left + within lo hi right :=
  List.countP_append

theorem within_perm {lo hi : α} {values values' : List α} (perm : values.Perm values') :
    within lo hi values = within lo hi values' :=
  perm.countP_eq _

theorem within_le_length (lo hi : α) (values : List α) : within lo hi values ≤ values.length :=
  List.countP_le_length

theorem within_eq_zero {lo hi : α} {values : List α} (outside : ∀ a ∈ values, a < lo ∨ hi < a) :
    within lo hi values = 0 := by
  refine List.countP_eq_zero.mpr fun a mem => ?_
  rw [decide_eq_true_eq, not_and_or, not_le, not_le]
  exact outside a mem

variable {lo hi : α} {sorted : List α} {i k : Nat}

/-- A value below the bounds has only such values in front of it. -/
theorem within_of_below (hi : α) (order : sorted.Pairwise (· ≤ ·)) (inside : i < sorted.length)
    (below : sorted[i] < lo) : within lo hi sorted + i < sorted.length := by
  have outside : ∀ a ∈ sorted.take (i + 1), a < lo ∨ hi < a := by
    intro a mem
    obtain ⟨j, jIn, rfl⟩ := List.getElem_of_mem mem
    rw [List.length_take] at jIn
    rw [List.getElem_take]
    refine Or.inl (lt_of_le_of_lt ?_ below)
    rcases Nat.lt_or_ge j i with before | after
    · exact List.pairwise_iff_getElem.mp order j i _ inside before
    · have same : j = i := by omega
      subst same
      exact le_refl _
  have split := within_append lo hi (sorted.take (i + 1)) (sorted.drop (i + 1))
  have most := within_le_length lo hi (sorted.drop (i + 1))
  rw [List.take_append_drop, within_eq_zero outside] at split
  rw [List.length_drop] at most
  omega

/-- A value above the bounds has only such values behind it. -/
theorem within_of_above (lo : α) (order : sorted.Pairwise (· ≤ ·)) (inside : i < sorted.length)
    (above : hi < sorted[i]) : within lo hi sorted ≤ i := by
  have outside : ∀ a ∈ sorted.drop i, a < lo ∨ hi < a := by
    intro a mem
    obtain ⟨j, jIn, rfl⟩ := List.getElem_of_mem mem
    rw [List.getElem_drop]
    refine Or.inr (lt_of_lt_of_le above ?_)
    rcases Nat.eq_zero_or_pos j with rfl | after
    · exact le_refl _
    · exact List.pairwise_iff_getElem.mp order i (i + j) inside _ (by omega)
  have split := within_append lo hi (sorted.take i) (sorted.drop i)
  have most := within_le_length lo hi (sorted.take i)
  rw [List.take_append_drop, within_eq_zero outside] at split
  rw [List.length_take] at most
  omega

/-- **Outliers are at the ends.** -/
theorem trimmed_between (order : sorted.Pairwise (· ≤ ·))
    (few : sorted.length ≤ within lo hi sorted + k) (left : k ≤ i)
    (right : i + k < sorted.length) (inside : i < sorted.length) :
    lo ≤ sorted[i] ∧ sorted[i] ≤ hi := by
  constructor
  · by_contra below
    have many := within_of_below hi order inside (not_le.mp below)
    omega
  · by_contra above
    have many := within_of_above lo order inside (not_le.mp above)
    omega

end NcsExp.Theory
