/-
# NcsExp.Theory.Slots -- a table of pointers searched by value

A fixed array of pointers in which `none` is a free slot: an object enters the first
free slot and leaves the slot it is found in.  A table is `Distinct` when no object
stands in two slots; storing an object that is in no slot and clearing a slot keep
that, and say which objects the table has afterwards (`has_store`, `has_clear`).
-/
import Mathlib.Data.Fintype.Basic

namespace NcsExp.Theory

set_option autoImplicit false

universe u

/-- `n` slots for objects of `κ`. -/
abbrev Slots (n : Nat) (κ : Type u) : Type u := Fin n → Option κ

namespace Slots

variable {n : Nat} {κ : Type u} {t : Slots n κ} {i : Fin n} {j k : κ}

/-- Every slot free. -/
def empty : Slots n κ := fun _ => none

/-- The first slot with this content. -/
def find [DecidableEq κ] (t : Slots n κ) (content : Option κ) : Option (Fin n) :=
  (List.finRange n).find? fun i => t i = content

/-- Another content for one slot. -/
def store (t : Slots n κ) (i : Fin n) (content : Option κ) : Slots n κ :=
  fun x => if x = i then content else t x

/-- The object is in the table. -/
def Has (t : Slots n κ) (k : κ) : Prop := ∃ i, t i = some k

instance [DecidableEq κ] (t : Slots n κ) (k : κ) : Decidable (t.Has k) :=
  inferInstanceAs (Decidable (∃ i, t i = some k))

/-- No object is in two slots. -/
def Distinct (t : Slots n κ) : Prop := ∀ i j k, t i = some k → t j = some k → i = j

/-! ## Searching -/

section

variable [DecidableEq κ]

theorem find_eq_some {content : Option κ} (found : t.find content = some i) : t i = content := by
  simpa using List.find?_some found

theorem find_eq_none {content : Option κ} : t.find content = none ↔ ∀ i, t i ≠ content := by
  simp [find, List.find?_eq_none]

/-- What a slot contains is found. -/
theorem exists_find {content : Option κ} (here : t i = content) : ∃ j, t.find content = some j := by
  apply Option.ne_none_iff_exists'.mp
  intro missing
  exact find_eq_none.mp missing i here

theorem not_has_of_find_eq_none (missing : t.find (some k) = none) : ¬ t.Has k :=
  fun ⟨i, here⟩ => find_eq_none.mp missing i here

end

/-! ## Storing and clearing -/

@[simp] theorem store_same (content : Option κ) : t.store i content i = content := if_pos rfl

theorem store_other {x : Fin n} (other : x ≠ i) (content : Option κ) :
    t.store i content x = t x := if_neg other

theorem distinct_empty : (empty : Slots n κ).Distinct := fun _ _ _ here => by cases here

theorem not_has_empty : ¬ (empty : Slots n κ).Has k := fun ⟨_, here⟩ => by cases here

/-- An object enters a free slot. -/
theorem has_store (free : t i = none) : (t.store i (some k)).Has j ↔ j = k ∨ t.Has j := by
  constructor
  · rintro ⟨x, here⟩
    by_cases same : x = i
    · subst same
      rw [store_same, Option.some.injEq] at here
      exact Or.inl here.symm
    · rw [store_other same] at here
      exact Or.inr ⟨x, here⟩
  · rintro (rfl | ⟨x, here⟩)
    · exact ⟨i, store_same _⟩
    · have other : x ≠ i := by
        rintro rfl
        rw [free] at here
        cases here
      exact ⟨x, by rwa [store_other other]⟩

theorem Distinct.store (distinct : t.Distinct) (fresh : ¬ t.Has k) :
    (t.store i (some k)).Distinct := by
  intro x y l hereX hereY
  by_cases atX : x = i <;> by_cases atY : y = i
  · rw [atX, atY]
  · rw [atX, store_same] at hereX
    rw [store_other atY, ← hereX] at hereY
    exact absurd ⟨y, hereY⟩ fresh
  · rw [atY, store_same] at hereY
    rw [store_other atX, ← hereY] at hereX
    exact absurd ⟨x, hereX⟩ fresh
  · rw [store_other atX] at hereX
    rw [store_other atY] at hereY
    exact distinct x y l hereX hereY

/-- An object leaves its slot. -/
theorem has_clear (distinct : t.Distinct) (here : t i = some k) :
    (t.store i none).Has j ↔ j ≠ k ∧ t.Has j := by
  constructor
  · rintro ⟨x, there⟩
    have other : x ≠ i := by
      rintro rfl
      rw [store_same] at there
      cases there
    rw [store_other other] at there
    refine ⟨?_, x, there⟩
    rintro rfl
    exact other (distinct x i j there here)
  · rintro ⟨differs, x, there⟩
    have other : x ≠ i := by
      rintro rfl
      rw [here, Option.some.injEq] at there
      exact differs there.symm
    exact ⟨x, by rwa [store_other other]⟩

theorem Distinct.clear (distinct : t.Distinct) : (t.store i none).Distinct := by
  intro x y l hereX hereY
  have other {z : Fin n} (there : t.store i none z = some l) : z ≠ i := by
    rintro rfl
    rw [store_same] at there
    cases there
  rw [store_other (other hereX)] at hereX
  rw [store_other (other hereY)] at hereY
  exact distinct x y l hereX hereY

/-! ## One change of a table -/

/-- The table is as it was, or an object of the first kind entered a free slot, or one
of the second kind left its slot. -/
inductive Change (t : Slots n κ) (enters leaves : κ → Prop) : Slots n κ → Prop
  | same : Change t enters leaves t
  | enter {x : Fin n} {l : κ} (free : t x = none) (kind : enters l) :
      Change t enters leaves (t.store x (some l))
  | leave {x : Fin n} {l : κ} (here : t x = some l) (kind : leaves l) :
      Change t enters leaves (t.store x none)

namespace Change

variable {enters leaves : κ → Prop} {t' : Slots n κ}

theorem of_eq (same : t' = t) : Change t enters leaves t' := same ▸ .same

theorem mono {enters' leaves' : κ → Prop} (change : Change t enters leaves t')
    (wider : ∀ k, enters k → enters' k) (wider' : ∀ k, leaves k → leaves' k) :
    Change t enters' leaves' t' := by
  cases change with
  | same => exact .same
  | enter free kind => exact .enter free (wider _ kind)
  | leave here kind => exact .leave here (wider' _ kind)

/-- What does not leave stays in its slot. -/
theorem stays (change : Change t enters leaves t') (here : t i = some k) (kept : ¬ leaves k) :
    t' i = some k := by
  cases change with
  | same => exact here
  | @enter x _ free _ =>
      have other : i ≠ x := by
        rintro rfl
        rw [free] at here
        cases here
      rwa [store_other other]
  | @leave x l there kind =>
      have other : i ≠ x := by
        rintro rfl
        rw [there, Option.some.injEq] at here
        exact kept (here ▸ kind)
      rwa [store_other other]

/-- What is there was there or has entered. -/
theorem entered (change : Change t enters leaves t') (here : t'.Has k) : t.Has k ∨ enters k := by
  cases change with
  | same => exact Or.inl here
  | enter free kind =>
      rcases (has_store free).mp here with rfl | before
      · exact Or.inr kind
      · exact Or.inl before
  | @leave x _ _ _ =>
      obtain ⟨y, there⟩ := here
      have other : y ≠ x := by
        rintro rfl
        rw [store_same] at there
        cases there
      rw [store_other other] at there
      exact Or.inl ⟨y, there⟩

end Change

end Slots

end NcsExp.Theory
