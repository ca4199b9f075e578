/-
# NcsExp.Theory.WordExpr -- unsigned expressions

An expression over words of `w` bits has two values: `eval`, where every operation wraps
as unsigned arithmetic does in C, and `exact`, in the natural numbers.  It is `Safe` if
no operation in it wraps and no divisor is 0; then both values are one number
(`toNat_eval`).
-/
import Mathlib.Algebra.Group.Nat.Defs
import Mathlib.Logic.Basic

namespace NcsExp.Theory

set_option autoImplicit false

inductive WordExpr (w : Nat)
  | word (a : BitVec w)
  | add (e f : WordExpr w)
  | sub (e f : WordExpr w)
  | mul (e f : WordExpr w)
  | div (e f : WordExpr w)
  | shl (e : WordExpr w) (k : Nat)
  deriving DecidableEq

namespace WordExpr

variable {w : Nat}

/-- The value in C; a division by 0 has none, and 0 here. -/
def eval : WordExpr w → BitVec w
  | .word a => a
  | .add e f => e.eval + f.eval
  | .sub e f => e.eval - f.eval
  | .mul e f => e.eval * f.eval
  | .div e f => e.eval / f.eval
  | .shl e k => e.eval <<< k

/-- The value in the natural numbers. -/
def exact : WordExpr w → Nat
  | .word a => a.toNat
  | .add e f => e.exact + f.exact
  | .sub e f => e.exact - f.exact
  | .mul e f => e.exact * f.exact
  | .div e f => e.exact / f.exact
  | .shl e k => e.exact * 2 ^ k

/-- Nothing wraps, and nothing is divided by 0. -/
def Safe : WordExpr w → Prop
  | .word _ => True
  | .add e f => e.Safe ∧ f.Safe ∧ e.exact + f.exact < 2 ^ w
  | .sub e f => e.Safe ∧ f.Safe ∧ f.exact ≤ e.exact
  | .mul e f => e.Safe ∧ f.Safe ∧ e.exact * f.exact < 2 ^ w
  | .div e f => e.Safe ∧ f.Safe ∧ f.exact ≠ 0
  | .shl e k => e.Safe ∧ e.exact * 2 ^ k < 2 ^ w

/-- **No wrap, no difference.** -/
theorem toNat_eval {e : WordExpr w} (safe : e.Safe) : e.eval.toNat = e.exact := by
  induction e with
  | word a => rfl
  | add e f ihE ihF =>
      obtain ⟨safeE, safeF, fits⟩ := safe
      rw [eval, exact, BitVec.toNat_add, ihE safeE, ihF safeF, Nat.mod_eq_of_lt fits]
  | sub e f ihE ihF =>
      obtain ⟨safeE, safeF, above⟩ := safe
      have le : f.eval ≤ e.eval := by
        rw [BitVec.le_def, ihE safeE, ihF safeF]
        exact above
      rw [eval, exact, BitVec.toNat_sub_of_le le, ihE safeE, ihF safeF]
  | mul e f ihE ihF =>
      obtain ⟨safeE, safeF, fits⟩ := safe
      rw [eval, exact, BitVec.toNat_mul, ihE safeE, ihF safeF, Nat.mod_eq_of_lt fits]
  | div e f ihE ihF =>
      obtain ⟨safeE, safeF, _⟩ := safe
      rw [eval, exact, BitVec.toNat_udiv, ihE safeE, ihF safeF]
  | shl e k ih =>
      obtain ⟨safe, fits⟩ := safe
      rw [eval, exact, BitVec.toNat_shiftLeft, ih safe, Nat.shiftLeft_eq, Nat.mod_eq_of_lt fits]

end WordExpr

end NcsExp.Theory
