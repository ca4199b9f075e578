/-
# NcsExp.Theory.References -- references taken, used and dropped

A program that holds references to objects (connections, descriptors) leaves a log
of the references it took, used and dropped.  `held log k` is the number held of
`k` after the log.  A use or a drop is legal when a reference is held then, and in
a legal log every reference taken is dropped or still held (`count_take_eq`): where
none is held any more, each was dropped exactly once (`count_take_eq_of_released`).
-/
import NcsExp.Theory.History
import Mathlib.Data.List.Induction

namespace NcsExp.Theory

set_option autoImplicit false

universe u v

/-- One operation on the references to the objects of `κ`. -/
inductive RefOp (κ : Type u)
  | take (k : κ)
  | use (k : κ)
  | drop (k : κ)
  deriving DecidableEq

variable {κ : Type u} [DecidableEq κ]

/-- The references to `k` after one more operation. -/
def RefOp.hold (k : κ) (n : Nat) : RefOp κ → Nat
  | .take j => if j = k then n + 1 else n
  | .use _ => n
  | .drop j => if j = k then n - 1 else n

/-- The references to `k` held after the log. -/
def held (log : List (RefOp κ)) (k : κ) : Nat := present (RefOp.hold k) 0 log

/-- A reference is held of what is used or dropped. -/
def LegalRef (past : List (RefOp κ)) : RefOp κ → Prop
  | .take _ => True
  | .use k => 0 < held past k
  | .drop k => 0 < held past k

variable {log : List (RefOp κ)} {j k : κ}

@[simp] theorem held_take :
    held (log ++ [.take j]) k = if j = k then held log k + 1 else held log k := present_snoc

@[simp] theorem held_use : held (log ++ [.use j]) k = held log k := present_snoc

@[simp] theorem held_drop :
    held (log ++ [.drop j]) k = if j = k then held log k - 1 else held log k := present_snoc

/-- **In a legal log** every reference taken was dropped or is held. -/
theorem count_take_eq (legal : Always LegalRef log) (k : κ) :
    log.count (.take k) = log.count (.drop k) + held log k := by
  induction log using List.reverseRecOn with
  | nil => rfl
  | append_singleton log op ih =>
      obtain ⟨before, now⟩ := always_snoc.mp legal
      have counted := ih before
      cases op with
      | take j => by_cases same : j = k <;> simp [List.count_append, same] <;> omega
      | use j => simp [List.count_append]; omega
      | drop j =>
          have owned : 0 < held log j := now
          by_cases same : j = k
          · subst same
            simp [List.count_append]
            omega
          · simp [List.count_append, same]
            omega

/-- Where none is held any more, as many references were dropped as taken. -/
theorem count_take_eq_of_released (legal : Always LegalRef log) (released : held log k = 0) :
    log.count (.take k) = log.count (.drop k) := by
  rw [count_take_eq legal, released, Nat.add_zero]

/-! ## Logs of which some observations stand for an operation -/

section

variable {ω : Type v} (op : ω → Option (RefOp κ)) {seen : List ω} {r : RefOp κ}

theorem held_means (o : ω) (means : op o = some r) (k : κ) :
    held ((seen ++ [o]).filterMap op) k = r.hold k (held (seen.filterMap op) k) := by
  rw [List.filterMap_append, List.filterMap_cons_some means, List.filterMap_nil]
  exact present_snoc

theorem held_means_nothing (o : ω) (quiet : op o = none) (k : κ) :
    held ((seen ++ [o]).filterMap op) k = held (seen.filterMap op) k := by
  rw [List.filterMap_append, List.filterMap_cons_none quiet, List.filterMap_nil, List.append_nil]

/-- The only observation that stands for `r` is made as often as `r`. -/
theorem count_means [DecidableEq ω] {o : ω} (only : ∀ x, op x = some r ↔ x = o) (seen : List ω) :
    (seen.filterMap op).count r = seen.count o := by
  rw [List.count_filterMap, List.count_eq_countP]
  exact List.countP_congr fun x _ => by simp [only]

end

end NcsExp.Theory
