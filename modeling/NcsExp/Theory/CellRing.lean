/-
# NcsExp.Theory.CellRing -- a ring of cells that keeps the newest elements

A ring writes each element at a position that goes round.  It represents the bounded
queue that drops its oldest element: `Holds cap r q` says where in the cells of `r` the
elements of `q` are, and `Holds.push` that both take one more.  Which cell comes first
does not matter to a reader who counts: the cells that were written are the queue, in
some order (`Holds.perm`).
-/
import NcsExp.Theory.DropOldest
import NcsExp.Theory.Memory
import Mathlib.Data.List.Basic

namespace NcsExp.Theory

set_option autoImplicit false

universe u

/-- Cells, and the position that is written next. -/
structure CellRing (β : Type u) where
  cells : Memory β
  pos : Nat

variable {β : Type u}

/-- Write the next of `cap` cells. -/
def CellRing.push (cap : Nat) (r : CellRing β) (x : β) : CellRing β where
  cells := r.cells.store r.pos [x]
  pos := if r.pos + 1 = cap then 0 else r.pos + 1

/-- The ring of `cap` cells holds the queue: from its first cell on while there is room, and
from the next position round to it when it is full. -/
structure Holds (cap : Nat) (r : CellRing β) (q : List β) : Prop where
  pos_lt : r.pos < cap
  length_le : q.length ≤ cap
  room : q.length ≠ cap → r.pos = q.length ∧ r.cells.load 0 r.pos = q
  full : q.length = cap → r.cells.load r.pos (cap - r.pos) ++ r.cells.load 0 r.pos = q

namespace Holds

variable {cap : Nat} {r : CellRing β} {q : List β} {x : β}

theorem empty (positive : 0 < cap) (cells : Memory β) : Holds cap ⟨cells, 0⟩ [] where
  pos_lt := positive
  length_le := Nat.zero_le _
  room _ := ⟨rfl, rfl⟩
  full none_ := absurd none_ (Nat.ne_of_lt positive)

/-- What the cells read as after a write, from the position behind it round to the first one
and on to the position itself. -/
theorem load_push (r : CellRing β) (x : β) (after : Nat) :
    (r.cells.store r.pos [x]).load (r.pos + 1) after ++
        (r.cells.store r.pos [x]).load 0 (r.pos + 1) =
      (r.cells.load r.pos (after + 1)).tail ++ r.cells.load 0 r.pos ++ [x] := by
  have behind : (r.cells.store r.pos [x]).load (r.pos + 1) after =
      r.cells.load (r.pos + 1) after :=
    Memory.load_store_above r.cells [x] (Nat.le_refl _)
  have before : (r.cells.store r.pos [x]).load 0 (r.pos + 1) = r.cells.load 0 r.pos ++ [x] := by
    have appended := Memory.load_store_append r.cells 0 r.pos [x]
    rwa [Nat.zero_add] at appended
  have first :
      r.cells.load r.pos (after + 1) = r.cells r.pos :: r.cells.load (r.pos + 1) after := by
    rw [Nat.add_comm after 1, Memory.load_add]
    rfl
  rw [behind, before, first, List.tail_cons, List.append_assoc]

/-- **Both take one more.** -/
theorem push (holds : Holds cap r q) (x : β) : Holds cap (r.push cap x) (dropOldest cap q x) := by
  have room := holds.pos_lt
  have written := load_push r x (cap - r.pos - 1)
  rw [show cap - r.pos - 1 + 1 = cap - r.pos by omega] at written
  by_cases full : q.length = cap
  · rw [dropOldest_full full]
    have queue := holds.full full
    have nonempty : r.cells.load r.pos (cap - r.pos) ≠ [] := by
      rw [← List.length_pos_iff, Memory.length_load]
      omega
    have same : (r.cells.store r.pos [x]).load (r.pos + 1) (cap - r.pos - 1) ++
        (r.cells.store r.pos [x]).load 0 (r.pos + 1) = q.tail ++ [x] := by
      rw [written, ← queue, List.tail_append_of_ne_nil nonempty]
    have length : (q.tail ++ [x]).length = cap := by
      rw [List.length_append, List.length_tail, List.length_singleton]
      omega
    refine ⟨?_, Nat.le_of_eq length, fun short => absurd length short, fun _ => ?_⟩
    · unfold CellRing.push
      dsimp only
      split <;> omega
    · unfold CellRing.push
      dsimp only
      split
      · rename_i last
        rw [show cap - r.pos - 1 = 0 by omega, Memory.load_zero, List.nil_append, last] at same
        rw [Memory.load_zero, List.append_nil, Nat.sub_zero, same]
      · rw [← Nat.sub_sub] at *
        exact same
  · rw [dropOldest_room full]
    obtain ⟨at_, queue⟩ := holds.room full
    have short : q.length < cap := Nat.lt_of_le_of_ne holds.length_le full
    have length : (q ++ [x]).length = q.length + 1 := by simp
    have same : (r.cells.store r.pos [x]).load 0 (r.pos + 1) = q ++ [x] := by
      have appended := Memory.load_store_append r.cells 0 r.pos [x]
      rwa [Nat.zero_add, queue] at appended
    refine ⟨?_, by omega, fun notFull => ?_, fun nowFull => ?_⟩
    · unfold CellRing.push
      dsimp only
      split <;> omega
    · unfold CellRing.push
      dsimp only
      rw [if_neg (by omega)]
      exact ⟨by omega, same⟩
    · unfold CellRing.push
      dsimp only
      rw [if_pos (by omega), Memory.load_zero, List.append_nil, Nat.sub_zero,
        show cap = r.pos + 1 by omega]
      exact same

/-- **The cells that were written are the queue**, in some order. -/
theorem perm (holds : Holds cap r q) : (r.cells.load 0 q.length).Perm q := by
  by_cases full : q.length = cap
  · have pieces := Memory.load_add r.cells 0 r.pos (cap - r.pos)
    rw [Nat.add_sub_cancel' (Nat.le_of_lt holds.pos_lt), Nat.zero_add] at pieces
    have turned : (r.cells.load 0 cap).Perm q := by
      rw [pieces, ← holds.full full]
      exact List.perm_append_comm
    rwa [full]
  · obtain ⟨at_, queue⟩ := holds.room full
    rw [← at_, queue]

end Holds

end NcsExp.Theory
