/-
# NcsExp.Theory.Numerals -- strings that are numbers

What a string means as a whole, and what C makes of its beginning.

* `Decimal s n`: `s` is a decimal representation of the integer `n`.
* `strtol`: `strtol(s, NULL, 10)` where `long` has 32 bits; it is right on a decimal
  representation (`strtol_decimal`), and has a value for every other string too.
* `Constant s n`: `s` is an unsigned constant of C, and denotes `n`; `strtoul` reads it,
  in lower case or not (`strtoul_constant`).
-/
import NcsExp.Theory.Strtoul
import Mathlib.Data.List.TakeWhile

namespace NcsExp.Theory

set_option autoImplicit false

namespace Strtoul

variable {base : Nat} {c : UInt8} {ds : List UInt8}

/-- A digit or a letter. -/
theorem isDigit_range (digit : isDigit base c) :
    48 ≤ c ∧ c ≤ 57 ∨ 97 ≤ c ∧ c ≤ 122 ∨ 65 ≤ c ∧ c ≤ 90 := by
  by_contra none
  rw [not_or, not_or] at none
  rw [isDigit, digit?, if_neg none.1, if_neg none.2.1, if_neg none.2.2] at digit
  cases digit

theorem not_isSpace_of_isDigit (digit : isDigit base c) : isSpace c = false := by
  have range := isDigit_range digit
  simp only [UInt8.le_iff_toNat_le] at range
  simp only [isSpace, Bool.or_eq_false_iff, beq_eq_false_iff_ne, ne_eq, Bool.and_eq_false_iff,
    decide_eq_false_iff_not, UInt8.le_iff_toNat_le, ← UInt8.toNat_inj]
  have names : (48 : UInt8).toNat = 48 ∧ (57 : UInt8).toNat = 57 ∧ (97 : UInt8).toNat = 97 ∧
    (122 : UInt8).toNat = 122 ∧ (65 : UInt8).toNat = 65 ∧ (90 : UInt8).toNat = 90 ∧
    (32 : UInt8).toNat = 32 ∧ (9 : UInt8).toNat = 9 ∧ (13 : UInt8).toNat = 13 := by decide
  omega

/-- A digit is no sign. -/
theorem signed_of_isDigit (digit : isDigit base c) : signed (c :: ds) = (false, c :: ds) := by
  have range := isDigit_range digit
  have minus : c ≠ 45 := by
    rintro rfl
    exact absurd range (by decide)
  have plus : c ≠ 43 := by
    rintro rfl
    exact absurd range (by decide)
  rw [signed]
  · intro rest same
    exact minus (List.cons.inj same).1
  · intro rest same
    exact plus (List.cons.inj same).1

/-- The number that a string of digits is. -/
def number (base : Nat) (ds : List UInt8) : Nat := ofDigits base (ds.filterMap digit?)

theorem magnitude_digits (digits : ∀ c ∈ ds, isDigit base c) :
    magnitude base ds = number base ds := by
  rw [magnitude, List.takeWhile_eq_self_iff.mpr digits, number]

end Strtoul

open Strtoul

/-! ## Integers -/

/-- `s` is a decimal representation of `n`: a sign or none, and digits. -/
inductive Decimal : List UInt8 → Int → Prop
  | unsigned {ds : List UInt8} (some : ds ≠ []) (digits : ∀ c ∈ ds, isDigit 10 c) :
      Decimal ds (number 10 ds)
  | plus {ds : List UInt8} (some : ds ≠ []) (digits : ∀ c ∈ ds, isDigit 10 c) :
      Decimal (43 :: ds) (number 10 ds)
  | minus {ds : List UInt8} (some : ds ≠ []) (digits : ∀ c ∈ ds, isDigit 10 c) :
      Decimal (45 :: ds) (-number 10 ds)

/-- The value of type `long` that is closest to `n`. -/
def toLong (n : Int) : Int := max (-2 ^ 31) (min n (2 ^ 31 - 1))

/-- `strtol(s, NULL, 10)`: the number at the beginning of the string, after white space, and 0
where there is none. -/
def strtol (s : List UInt8) : Int :=
  let sign := signed (s.dropWhile isSpace)
  let n := magnitude 10 sign.2
  toLong (if sign.1 then -n else n)

/-- **A decimal representation** is read as the number that it represents. -/
theorem strtol_decimal {s : List UInt8} {n : Int} (decimal : Decimal s n) :
    strtol s = toLong n := by
  cases decimal with
  | unsigned some digits =>
      obtain ⟨c, ds, rfl⟩ := List.exists_cons_of_ne_nil some
      have first := digits c List.mem_cons_self
      have space : List.dropWhile isSpace (c :: ds) = c :: ds := by
        rw [List.dropWhile_cons, not_isSpace_of_isDigit first]
        rfl
      simp only [strtol, space, signed_of_isDigit first, magnitude_digits digits,
        Bool.false_eq_true, if_false]
  | @plus ds some digits =>
      have sign : signed (List.dropWhile isSpace (43 :: ds)) = (false, ds) := rfl
      simp only [strtol, sign, magnitude_digits digits, Bool.false_eq_true, if_false]
  | @minus ds some digits =>
      have sign : signed (List.dropWhile isSpace (45 :: ds)) = (true, ds) := rfl
      simp only [strtol, sign, magnitude_digits digits, if_true]

example : strtol [32, 45, 49, 55, 120] = -17 := by decide

/-! ## Unsigned constants -/

/-- `s` is a decimal, octal or hexadecimal constant for `n`. -/
inductive Constant : List UInt8 → Nat → Prop
  | decimal {c : UInt8} {ds : List UInt8} (nonzero : c ≠ 48)
      (digits : ∀ d ∈ c :: ds, isDigit 10 d) : Constant (c :: ds) (number 10 (c :: ds))
  | octal {ds : List UInt8} (digits : ∀ d ∈ ds, isDigit 8 d) : Constant (48 :: ds) (number 8 ds)
  | hexadecimal {x c : UInt8} {ds : List UInt8} (hex : x = 120 ∨ x = 88)
      (digits : ∀ d ∈ c :: ds, isDigit 16 d) :
      Constant (48 :: x :: c :: ds) (number 16 (c :: ds))

/-- A zero in front does not count. -/
theorem number_zero {base : Nat} {ds : List UInt8} : number base (48 :: ds) = number base ds := by
  have zero : digit? 48 = some 0 := rfl
  rw [number, List.filterMap_cons_some zero, ofDigits, List.foldl_cons, Nat.zero_mul]
  rfl

theorem based_decimal {c : UInt8} {ds : List UInt8} (nonzero : c ≠ 48) :
    based (c :: ds) = (10, c :: ds) := by
  rw [based]
  · intro x d rest same
    exact nonzero (List.cons.inj same).1
  · intro rest same
    exact nonzero (List.cons.inj same).1

theorem based_octal {ds : List UInt8} (digits : ∀ d ∈ ds, isDigit 8 d) :
    based (48 :: ds) = (8, 48 :: ds) := by
  rcases ds with _ | ⟨x, _ | ⟨c, ds⟩⟩
  · rfl
  · rfl
  · have letter : ¬ (x = 120 ∨ x = 88) := by
      have digit := digits x List.mem_cons_self
      rintro (rfl | rfl)
      · exact absurd digit (by decide)
      · exact absurd digit (by decide)
    exact if_neg fun hex => letter hex.1

theorem based_hexadecimal {x c : UInt8} {ds : List UInt8} (hex : x = 120 ∨ x = 88)
    (digit : isDigit 16 c) : based (48 :: x :: c :: ds) = (16, c :: ds) :=
  if_pos ⟨hex, digit⟩

theorem strtoul_unsigned {base : Nat} {c : UInt8} {s ds : List UInt8} {b : Nat}
    (digit : isDigit b c) (prefixed : based (c :: s) = (base, ds))
    (digits : ∀ d ∈ ds, isDigit base d) (fits : number base ds < 2 ^ 32) :
    strtoul (c :: s) = number base ds := by
  have space : List.dropWhile isSpace (c :: s) = c :: s := by
    rw [List.dropWhile_cons, not_isSpace_of_isDigit digit]
    rfl
  simp only [strtoul, space, signed_of_isDigit digit, prefixed, magnitude_digits digits,
    if_neg (Nat.not_le.mpr fits), Bool.false_eq_true, if_false]

/-- **A constant** is read as the number that it denotes. -/
theorem strtoul_constant {s : List UInt8} {n : Nat} (constant : Constant s n)
    (fits : n < 2 ^ 32) : strtoul s = n := by
  cases constant with
  | decimal nonzero digits =>
      exact strtoul_unsigned (digits _ List.mem_cons_self) (based_decimal nonzero) digits fits
  | octal digits =>
      have zero : isDigit 8 48 := rfl
      rw [← number_zero] at fits ⊢
      exact strtoul_unsigned zero (based_octal digits)
        (List.forall_mem_cons.mpr ⟨zero, digits⟩) fits
  | hexadecimal hex digits =>
      have zero : isDigit 10 48 := rfl
      exact strtoul_unsigned zero (based_hexadecimal hex (digits _ List.mem_cons_self)) digits fits

/-- A function that keeps digits and letters what they are, as `tolower` does, keeps constants. -/
theorem Constant.map {s : List UInt8} {n : Nat} {f : UInt8 → UInt8}
    (keeps : ∀ c, digit? (f c) = digit? c) (zero : ∀ c, f c = 48 ↔ c = 48)
    (hexes : ∀ c, c = 120 ∨ c = 88 → f c = 120 ∨ f c = 88) (constant : Constant s n) :
    Constant (s.map f) n := by
  have number_map (base : Nat) (ds : List UInt8) : number base (ds.map f) = number base ds := by
    have same : digit? ∘ f = digit? := funext keeps
    rw [number, List.filterMap_map, same, number]
  have digits_map {base : Nat} {ds : List UInt8} (digits : ∀ d ∈ ds, isDigit base d) :
      ∀ d ∈ ds.map f, isDigit base d := by
    intro d mapped
    obtain ⟨c, mem, rfl⟩ := List.mem_map.mp mapped
    rw [isDigit, keeps]
    exact digits c mem
  cases constant with
  | decimal nonzero digits =>
      rw [← number_map]
      exact .decimal (fun same => nonzero ((zero _).mp same)) (digits_map digits)
  | octal digits =>
      rw [← number_map, List.map_cons, (zero 48).mpr rfl]
      exact .octal (digits_map digits)
  | hexadecimal hex digits =>
      rw [← number_map, List.map_cons, (zero 48).mpr rfl]
      exact .hexadecimal (hexes _ hex) (digits_map digits)

end NcsExp.Theory
