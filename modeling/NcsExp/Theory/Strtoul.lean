/-
# NcsExp.Theory.Strtoul -- what a C string denotes as a number

`strtoul(s, NULL, 0)` where `unsigned long` has 32 bits: white space, a sign, a prefix
that says the base, and the longest run of digits of that base.  A string is the list of
its bytes; what follows the digits does not matter, so that a terminating NUL need not
be there.
-/
import Mathlib.Algebra.Group.Int.Defs
import Mathlib.Algebra.Group.Nat.Defs
import Mathlib.Data.List.Basic

namespace NcsExp.Theory

set_option autoImplicit false

namespace Strtoul

/-- `isspace`. -/
def isSpace (c : UInt8) : Bool := c == 32 || (decide (9 ≤ c) && decide (c ≤ 13))

/-- The value of a digit or of a letter. -/
def digit? (c : UInt8) : Option Nat :=
  if 48 ≤ c ∧ c ≤ 57 then some (c.toNat - 48)
  else if 97 ≤ c ∧ c ≤ 122 then some (c.toNat - 87)
  else if 65 ≤ c ∧ c ≤ 90 then some (c.toNat - 55)
  else none

def isDigit (base : Nat) (c : UInt8) : Bool := (digit? c).any (· < base)

/-- The sign, and what follows it. -/
def signed : List UInt8 → Bool × List UInt8
  | 45 :: s => (true, s)
  | 43 :: s => (false, s)
  | s => (false, s)

/-- The base, and the digits and what follows them. -/
def based : List UInt8 → Nat × List UInt8
  | 48 :: x :: c :: s =>
      if (x = 120 ∨ x = 88) ∧ isDigit 16 c then (16, c :: s) else (8, 48 :: x :: c :: s)
  | 48 :: s => (8, 48 :: s)
  | s => (10, s)

def ofDigits (base : Nat) (ds : List Nat) : Nat := ds.foldl (fun n d => n * base + d) 0

/-- The number that the digits at the beginning are. -/
def magnitude (base : Nat) (s : List UInt8) : Nat :=
  ofDigits base ((s.takeWhile (isDigit base)).filterMap digit?)

end Strtoul

open Strtoul in
/-- `strtoul(s, NULL, 0)`: the largest value where the number is too large, and the negated
number after a minus sign, modulo 2³². -/
def strtoul (s : List UInt8) : Nat :=
  let sign := signed (s.dropWhile isSpace)
  let base := based sign.2
  let n := magnitude base.1 base.2
  if 2 ^ 32 ≤ n then 2 ^ 32 - 1
  else if sign.1 then (2 ^ 32 - n) % 2 ^ 32
  else n

example : strtoul [48, 120, 49, 102] = 31 := by decide

example : strtoul [45, 49] = 4294967295 := by decide

end NcsExp.Theory
