/-
# NcsExp.Theory.Semaphore -- counting semaphores with a limit

`K_SEM_DEFINE(sem, initial, limit)`: `k_sem_give` raises the count unless it is at
the limit, and `k_sem_take` lowers it or does not succeed.  The bound is carried
by the type.  A give that finds the count at the limit is lost.
-/
import Mathlib.Logic.Basic

namespace NcsExp.Theory

set_option autoImplicit false

/-- A semaphore whose count never passes `limit`. -/
structure Semaphore (limit : Nat) where
  count : Nat
  bounded : count ≤ limit
  deriving DecidableEq

namespace Semaphore

variable {limit : Nat}

@[ext] theorem ext {s t : Semaphore limit} (same : s.count = t.count) : s = t := by
  cases s; cases t; cases same; rfl

/-- The semaphore nobody has given yet. -/
def empty : Semaphore limit := ⟨0, Nat.zero_le _⟩

/-- `k_sem_give`. -/
def give (s : Semaphore limit) : Semaphore limit := ⟨min (s.count + 1) limit, Nat.min_le_right ..⟩

/-- `k_sem_take`, when it succeeds. -/
def take (s : Semaphore limit) : Option (Semaphore limit) :=
  if s.count = 0 then none else some ⟨s.count - 1, Nat.le_trans (Nat.sub_le ..) s.bounded⟩

theorem count_give_of_room (s : Semaphore limit) (room : s.count < limit) :
    s.give.count = s.count + 1 := by
  simp only [give]
  omega

theorem take_eq_some {s t : Semaphore limit} :
    s.take = some t ↔ s.count = t.count + 1 := by
  unfold take
  split
  · rename_i none_
    simp only [reduceCtorEq, false_iff]
    omega
  · rename_i some_
    rw [Option.some.injEq, Semaphore.ext_iff]
    constructor
    · intro same
      simp only at same
      omega
    · intro same
      simp only
      omega

/-- A give puts something there to take. -/
theorem give_pos (s : Semaphore limit) (room : 0 < limit) : 0 < s.give.count := by
  simp only [give]
  omega

end Semaphore

end NcsExp.Theory
