/-
# NcsExp.Theory.Insertion -- what is inserted behind some elements

`Inserted a b xs ys`: `ys` is `xs` with `b` inserted behind some of the `a`.  Insertions
compose piece by piece (`append`, `flatMap`), and a part of one, from its beginning, is one of a
part of what it was made of (`of_prefix`).
-/
import Mathlib.Data.List.Basic

namespace NcsExp.Theory

set_option autoImplicit false

universe u

inductive Inserted {α : Type u} (a b : α) : List α → List α → Prop
  | nil : Inserted a b [] []
  | keep {xs ys : List α} (x : α) (rest : Inserted a b xs ys) : Inserted a b (x :: xs) (x :: ys)
  | insert {xs ys : List α} (rest : Inserted a b xs ys) : Inserted a b (a :: xs) (a :: b :: ys)

namespace Inserted

variable {α : Type u} {a b : α} {xs ys zs ws : List α}

theorem refl (a b : α) (xs : List α) : Inserted a b xs xs := by
  induction xs with
  | nil => exact .nil
  | cons x xs ih => exact .keep x ih

theorem append (first : Inserted a b xs ys) (second : Inserted a b zs ws) :
    Inserted a b (xs ++ zs) (ys ++ ws) := by
  induction first with
  | nil => exact second
  | keep x _ ih => exact .keep x ih
  | insert _ ih => exact .insert ih

theorem flatMap {f : List α → List α} (each : ∀ xs, Inserted a b xs (f xs))
    (list : List (List α)) : Inserted a b list.flatten (list.flatMap f) := by
  induction list with
  | nil => exact .nil
  | cons xs rest ih =>
      rw [List.flatten_cons, List.flatMap_cons]
      exact (each xs).append ih

/-- An insertion that is not complete. -/
theorem of_prefix (inserted : Inserted a b xs ys) (part : zs <+: ys) :
    ∃ ws, ws <+: xs ∧ Inserted a b ws zs := by
  induction inserted generalizing zs with
  | nil =>
      obtain rfl := List.prefix_nil.mp part
      exact ⟨[], List.prefix_refl [], .nil⟩
  | keep x _ ih =>
      cases zs with
      | nil => exact ⟨[], List.nil_prefix, .nil⟩
      | cons z zs =>
          obtain ⟨rfl, tail⟩ := List.cons_prefix_cons.mp part
          obtain ⟨ws, source, inserted⟩ := ih tail
          exact ⟨z :: ws, List.cons_prefix_cons.mpr ⟨rfl, source⟩, .keep z inserted⟩
  | insert _ ih =>
      cases zs with
      | nil => exact ⟨[], List.nil_prefix, .nil⟩
      | cons z zs =>
          obtain ⟨rfl, tail⟩ := List.cons_prefix_cons.mp part
          cases zs with
          | nil => exact ⟨[z], List.cons_prefix_cons.mpr ⟨rfl, List.nil_prefix⟩, .keep z .nil⟩
          | cons y zs =>
              obtain ⟨rfl, behind⟩ := List.cons_prefix_cons.mp tail
              obtain ⟨ws, source, inserted⟩ := ih behind
              exact ⟨z :: ws, List.cons_prefix_cons.mpr ⟨rfl, source⟩, .insert inserted⟩

end Inserted

end NcsExp.Theory
