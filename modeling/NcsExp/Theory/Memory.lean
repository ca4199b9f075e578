/-
# NcsExp.Theory.Memory -- a flat memory of cells

`load` reads a range of cells and `store` writes one.  A range that grows at the
end by what is stored there reads as the old range and the new cells
(`load_store_append`).
-/
import Mathlib.Logic.Basic

namespace NcsExp.Theory

set_option autoImplicit false

universe u

/-- A memory of cells of type `β`, at addresses `0, 1, ..`. -/
abbrev Memory (β : Type u) := Nat → β

namespace Memory

variable {β : Type u}

/-- The `n` cells from `p` on. -/
def load (m : Memory β) (p n : Nat) : List β := (List.range n).map fun i => m (p + i)

/-- Write `cells` from `p` on. -/
def store (m : Memory β) (p : Nat) (cells : List β) : Memory β := fun a =>
  if a < p then m a else (cells[a - p]?).getD (m a)

@[simp] theorem load_zero (m : Memory β) (p : Nat) : m.load p 0 = [] := rfl

@[simp] theorem length_load (m : Memory β) (p n : Nat) : (m.load p n).length = n := by
  simp [load]

/-- A range read in two pieces. -/
theorem load_add (m : Memory β) (p n k : Nat) :
    m.load p (n + k) = m.load p n ++ m.load (p + n) k := by
  simp [load, List.range_add, List.map_append, Function.comp_def, Nat.add_assoc]

/-- The beginning of a range. -/
theorem take_load (m : Memory β) (p : Nat) {k n : Nat} (within : k ≤ n) :
    (m.load p n).take k = m.load p k := by
  obtain ⟨rest, rfl⟩ := Nat.exists_eq_add_of_le within
  rw [load_add, List.take_left' (length_load m p k)]

/-- A range and one more cell. -/
theorem load_succ (m : Memory β) (p n : Nat) : m.load p (n + 1) = m.load p n ++ [m (p + n)] :=
  load_add m p n 1

/-- The last cell of a range. -/
theorem getLast?_load (m : Memory β) (p : Nat) {n : Nat} (some_ : 0 < n) :
    (m.load p n).getLast? = some (m (p + (n - 1))) := by
  obtain ⟨k, rfl⟩ := Nat.exists_eq_add_of_le' some_
  rw [load_succ, List.getLast?_concat, Nat.add_sub_cancel]

theorem store_one (m : Memory β) (p a : Nat) (cell : β) :
    m.store p [cell] a = if a = p then cell else m a := by
  unfold store
  by_cases below : a < p
  · rw [if_pos below, if_neg (by omega)]
  · by_cases same : a = p
    · subst same
      simp
    · rw [if_neg below, if_neg same, List.getElem?_eq_none (by simp; omega), Option.getD_none]

theorem store_below (m : Memory β) {p a : Nat} (cells : List β) (below : a < p) :
    m.store p cells a = m a := by
  simp [store, below]

theorem load_store_below (m : Memory β) {p q n : Nat} (cells : List β) (below : q + n ≤ p) :
    (m.store p cells).load q n = m.load q n := by
  refine List.map_congr_left fun i member => store_below m cells ?_
  have bound := List.mem_range.mp member
  omega

theorem load_store_above (m : Memory β) {p q n : Nat} (cells : List β)
    (above : p + cells.length ≤ q) : (m.store p cells).load q n = m.load q n := by
  refine List.map_congr_left fun i _ => ?_
  have notBelow : ¬ q + i < p := by omega
  have outside : cells.length ≤ q + i - p := by omega
  simp [store, notBelow, List.getElem?_eq_none outside]

theorem load_store_same (m : Memory β) (p : Nat) (cells : List β) :
    (m.store p cells).load p cells.length = cells := by
  refine List.ext_getElem (by simp) fun i inLoad inCells => ?_
  have above : ¬ p + i < p := by omega
  simp only [load, store, List.getElem_map, List.getElem_range, if_neg above,
    Nat.add_sub_cancel_left, List.getElem?_eq_getElem inCells, Option.getD_some]

/-- A part of what was stored. -/
theorem load_store_part (m : Memory β) (p : Nat) (before cells after : List β) :
    (m.store p (before ++ (cells ++ after))).load (p + before.length) cells.length = cells := by
  have whole := load_store_same m p (before ++ (cells ++ after))
  rw [List.length_append, List.length_append, load_add, load_add] at whole
  have rest := (List.append_inj whole (length_load ..)).2
  exact (List.append_inj rest (length_load ..)).1

/-- Cells stored at the end of a range extend what the range reads. -/
theorem load_store_append (m : Memory β) (q n : Nat) (cells : List β) :
    (m.store (q + n) cells).load q (n + cells.length) = m.load q n ++ cells := by
  rw [load_add, load_store_below m cells (Nat.le_refl _), load_store_same]

end Memory

end NcsExp.Theory
