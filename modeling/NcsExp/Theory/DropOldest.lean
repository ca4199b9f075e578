/-
# NcsExp.Theory.DropOldest -- a bounded queue that makes room by dropping its oldest element

`dropOldest cap q x` appends `x` to `q`; a queue that holds `cap` elements loses its
first one.  A queue that represents another one, element by element, still does when both
take one more (`forall₂_dropOldest`), and so it does when both lose their first
(`forall₂_tail`).  A queue that everything went through holds the `newest` elements.
-/
import Mathlib.Data.List.Forall2

namespace NcsExp.Theory

set_option autoImplicit false

universe u v

variable {α : Type u} {β : Type v} {R : α → β → Prop} {cap : Nat} {q : List α} {x : α}

/-- Append, dropping the oldest element of a full queue. -/
def dropOldest (cap : Nat) (q : List α) (x : α) : List α :=
  if q.length = cap then q.tail ++ [x] else q ++ [x]

theorem dropOldest_full (full : q.length = cap) : dropOldest cap q x = q.tail ++ [x] :=
  if_pos full

theorem dropOldest_room (room : q.length ≠ cap) : dropOldest cap q x = q ++ [x] :=
  if_neg room

theorem forall₂_tail {p : List β} (same : List.Forall₂ R q p) :
    List.Forall₂ R q.tail p.tail := by
  cases same with
  | nil => exact .nil
  | cons _ rest => exact rest

theorem forall₂_dropOldest {p : List β} {y : β} (same : List.Forall₂ R q p) (new : R x y)
    (cap : Nat) : List.Forall₂ R (dropOldest cap q x) (dropOldest cap p y) := by
  have last : List.Forall₂ R [x] [y] := .cons new .nil
  by_cases full : q.length = cap
  · rw [dropOldest_full full, dropOldest_full (same.length_eq ▸ full)]
    exact List.rel_append (forall₂_tail same) last
  · rw [dropOldest_room full, dropOldest_room (same.length_eq ▸ full)]
    exact List.rel_append same last

/-! ## Everything went through the queue -/

/-- The last `cap` elements of a history, or all of a shorter one. -/
def newest (cap : Nat) (history : List α) : List α := history.drop (history.length - cap)

theorem length_newest (cap : Nat) (history : List α) :
    (newest cap history).length = min cap history.length := by
  rw [newest, List.length_drop]
  omega

theorem newest_snoc (positive : 0 < cap) (history : List α) (x : α) :
    newest cap (history ++ [x]) = dropOldest cap (newest cap history) x := by
  have length := length_newest cap history
  have sizes : (history ++ [x]).length = history.length + 1 := by simp
  by_cases full : (newest cap history).length = cap
  · rw [dropOldest_full full, newest, newest, sizes, List.tail_drop,
      List.drop_append_of_le_length (by omega)]
    congr 2
    omega
  · rw [dropOldest_room full, newest, newest, sizes, show history.length + 1 - cap = 0 by omega,
      show history.length - cap = 0 by omega, List.drop_zero, List.drop_zero]

end NcsExp.Theory
