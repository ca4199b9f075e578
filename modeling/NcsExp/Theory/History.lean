/-
# NcsExp.Theory.History -- properties of every moment of a log

A log is the list of what was observed so far, oldest first.  `Always P log`
says that at every moment of the log, `P` holds of what had been observed before
and of the observation made then.  A log only ever grows at its end, so a step
lemma about `Always` is `always_snoc`.
-/
import Mathlib.Data.List.Basic

namespace NcsExp.Theory

set_option autoImplicit false

universe u v

variable {ω : Type u} {τ : Type v}

/-- At every moment of `log`, `P` holds of the past and of what is observed then. -/
def Always (P : List ω → ω → Prop) (log : List ω) : Prop :=
  ∀ past now future, log = past ++ now :: future → P past now

variable {P : List ω → ω → Prop} {log : List ω} {o : ω}

theorem always_nil : Always P [] := by
  intro past now future split
  simp at split

/-- A log and one more observation. -/
@[simp] theorem always_snoc : Always P (log ++ [o]) ↔ Always P log ∧ P log o := by
  constructor
  · intro always
    refine ⟨fun past now future split => ?_, always log o [] rfl⟩
    exact always past now (future ++ [o]) (by simp [split])
  · rintro ⟨always, last⟩ past now future split
    rcases List.eq_nil_or_concat future with rfl | ⟨front, final, rfl⟩
    · obtain ⟨rfl, same⟩ := List.append_inj' split rfl
      cases same
      exact last
    · rw [List.concat_eq_append, ← List.cons_append, ← List.append_assoc] at split
      exact always past now front (List.append_inj' split rfl).1

/-- Observations of which `P` holds whatever the past. -/
theorem Always.append (always : Always P log) {new : List ω}
    (fresh : ∀ o ∈ new, ∀ past, P past o) : Always P (log ++ new) := by
  induction new generalizing log with
  | nil => simpa using always
  | cons o rest ih =>
      rw [List.append_cons]
      refine ih (always_snoc.mpr ⟨always, fresh o (by simp) log⟩) fun p member => ?_
      exact fresh p (by simp [member])

/-- The moment at which something was observed. -/
theorem Always.of_mem (always : Always P log) (seen : o ∈ log) :
    ∃ past, past <+: log ∧ P past o := by
  obtain ⟨past, future, split⟩ := List.append_of_mem seen
  exact ⟨past, ⟨o :: future, split.symm⟩, always past o future split⟩

/-- The last moment of a log. -/
theorem Always.last (always : Always P log) (last : log.getLast? = some o) : P log.dropLast o :=
  always log.dropLast o [] (List.dropLast_append_getLast? o last).symm

theorem Always.and {Q : List ω → ω → Prop} (first : Always P log) (second : Always Q log) :
    Always (fun past now => P past now ∧ Q past now) log :=
  fun past now future split => ⟨first past now future split, second past now future split⟩

/-- Two properties that are the same at every moment. -/
theorem Always.congr {Q : List ω → ω → Prop}
    (same : Always (fun past now => P past now ↔ Q past now) log) :
    Always P log ↔ Always Q log := by
  constructor
  · intro always past now future split
    exact (same past now future split).mp (always past now future split)
  · intro always past now future split
    exact (same past now future split).mpr (always past now future split)

/-- The moments before one of them. -/
theorem Always.before (always : Always P log) {past future : List ω} {now : ω}
    (split : log = past ++ now :: future) : Always P past := by
  intro earlier then_ later eq
  exact always earlier then_ (later ++ now :: future) (by simp [split, eq])

/-- A property of what some observations of a log stand for. -/
theorem Always.filterMap {ω' : Type u} {f : ω → Option ω'} {Q : List ω' → ω' → Prop}
    (always : Always P log)
    (means : ∀ past now o, P past now → f now = some o → Q (past.filterMap f) o) :
    Always Q (log.filterMap f) := by
  intro past now future split
  obtain ⟨front, tail, whole, rfl, rest⟩ := List.filterMap_eq_append_iff.mp split
  obtain ⟨skipped, o, later, rfl, none_, found, -⟩ := List.filterMap_eq_cons_iff.mp rest
  have moment := always (front ++ skipped) o later (by simp [whole])
  have meant := means (front ++ skipped) o now moment found
  rwa [List.filterMap_append, List.filterMap_eq_nil_iff.mpr none_, List.append_nil] at meant

/-- A property of what every observation of a log stands for. -/
theorem Always.map {ω' : Type u} {f : ω → ω'} {Q : List ω' → ω' → Prop}
    (always : Always P log) (means : ∀ past now, P past now → Q (past.map f) (f now)) :
    Always Q (log.map f) := by
  rw [← List.filterMap_eq_map]
  refine always.filterMap fun past now o moment same => ?_
  cases same
  rw [List.filterMap_eq_map]
  exact means past now moment

/-! ## Folding a log

What a log says about the present (the transmission in progress, the buffer in
use) is a fold over its observations. -/

/-- The present after a log, by an observer that sees one observation at a time. -/
def present (observe : τ → ω → τ) (initial : τ) (log : List ω) : τ := log.foldl observe initial

variable {observe : τ → ω → τ} {initial : τ}

@[simp] theorem present_nil : present observe initial [] = initial := rfl

@[simp] theorem present_snoc :
    present observe initial (log ++ [o]) = observe (present observe initial log) o := by
  simp [present]

/-- Observations the observer does not react to. -/
theorem present_append_of_quiet {new : List ω}
    (quiet : ∀ o ∈ new, ∀ now, observe now o = now) :
    present observe initial (log ++ new) = present observe initial log := by
  induction new generalizing log with
  | nil => simp
  | cons o rest ih =>
      rw [List.append_cons, ih fun p member => quiet p (by simp [member]), present_snoc]
      exact quiet o (by simp) _

end NcsExp.Theory
