/-
# NcsExp.Theory.Cbor -- CBOR integers and byte strings

The data items of RFC 8949 that are integers or byte strings of definite length.  An item
starts with a head: a major type, and an argument in the initial byte or in 1, 2, 4 or 8
bytes after it.

* `encodeInt` and `encodeBytes` write the shortest head; `item?` reads any of the five.
* `item?_encodeInt` and `item?_encodeBytes`: what is written is read back, whatever
  follows it.
* `length_encodeInt_le` and `length_encodeBytes_le` bound what is written.
-/
import Mathlib.Algebra.Group.Int.Defs
import Mathlib.Algebra.Group.Nat.Defs
import Mathlib.Data.List.Basic

namespace NcsExp.Theory

set_option autoImplicit false

namespace Cbor

/-! ## Big-endian numbers -/

/-- The `k` bytes of `n`, the most significant one first. -/
def beBytes : Nat → Nat → List UInt8
  | 0, _ => []
  | k + 1, n => beBytes k (n / 2 ^ 8) ++ [n.toUInt8]

def beValue (bytes : List UInt8) : Nat := bytes.foldl (fun n b => n * 2 ^ 8 + b.toNat) 0

@[simp] theorem length_beBytes (k n : Nat) : (beBytes k n).length = k := by
  induction k generalizing n with
  | zero => rfl
  | succ k ih => rw [beBytes, List.length_append, ih, List.length_singleton]

theorem beValue_beBytes {k n : Nat} (fits : n < 2 ^ (8 * k)) : beValue (beBytes k n) = n := by
  induction k generalizing n with
  | zero =>
      rw [Nat.mul_zero] at fits
      exact (Nat.lt_one_iff.mp fits).symm
  | succ k ih =>
      have split : 2 ^ (8 * (k + 1)) = 2 ^ (8 * k) * 2 ^ 8 := by
        rw [← Nat.pow_add, Nat.mul_succ]
      have high : n / 2 ^ 8 < 2 ^ (8 * k) := by
        rw [split] at fits
        exact Nat.div_lt_of_lt_mul (by rwa [Nat.mul_comm] at fits)
      have tail := ih high
      rw [beValue] at tail ⊢
      rw [beBytes, List.foldl_append, tail, List.foldl_cons, List.foldl_nil]
      simp only [Nat.toUInt8_eq, UInt8.toNat_ofNat']
      omega

/-! ## Heads -/

/-- A head of major type `major` with argument `n`. -/
def head (major n : Nat) : List UInt8 :=
  let initial (info : Nat) : UInt8 := (major * 32 + info).toUInt8
  if n < 24 then [initial n]
  else if n < 2 ^ 8 then initial 24 :: beBytes 1 n
  else if n < 2 ^ 16 then initial 25 :: beBytes 2 n
  else if n < 2 ^ 32 then initial 26 :: beBytes 4 n
  else initial 27 :: beBytes 8 n

/-- The number of bytes of the argument, by the low five bits of the initial byte. -/
def argumentSize (info : Nat) : Option Nat :=
  if info = 24 then some 1
  else if info = 25 then some 2
  else if info = 26 then some 4
  else if info = 27 then some 8
  else none

/-- The first `n` bytes and the others, if there are that many. -/
def split? (n : Nat) (bytes : List UInt8) : Option (List UInt8 × List UInt8) :=
  if n ≤ bytes.length then some (bytes.take n, bytes.drop n) else none

/-- The major type and the argument of a head, and what follows it. -/
def head? : List UInt8 → Option (Nat × Nat × List UInt8)
  | [] => none
  | b :: bytes =>
      let major := b.toNat / 32
      let info := b.toNat % 32
      if info < 24 then some (major, info, bytes)
      else
        (argumentSize info).bind fun k =>
          (split? k bytes).map fun r => (major, beValue r.1, r.2)

theorem split?_append (bytes rest : List UInt8) :
    split? bytes.length (bytes ++ rest) = some (bytes, rest) := by
  rw [split?, if_pos (by simp), List.take_left, List.drop_left]

theorem head?_long {major info k n : Nat} (major_lt : major < 8) (info_lt : info < 32)
    (size : argumentSize info = some k) (fits : n < 2 ^ (8 * k)) (rest : List UInt8) :
    head? (((major * 32 + info).toUInt8 :: beBytes k n) ++ rest) = some (major, n, rest) := by
  have byte : (major * 32 + info).toUInt8.toNat = major * 32 + info := by
    simp only [Nat.toUInt8_eq, UInt8.toNat_ofNat']
    omega
  have high : (major * 32 + info) / 32 = major := by omega
  have low : (major * 32 + info) % 32 = info := by omega
  have long : ¬ info < 24 := by
    intro short
    rw [argumentSize, if_neg (by omega), if_neg (by omega), if_neg (by omega),
      if_neg (by omega)] at size
    cases size
  have argument := split?_append (beBytes k n) rest
  rw [length_beBytes] at argument
  rw [List.cons_append, head?]
  simp only [byte, high, low, if_neg long, size, Option.bind_some, argument, Option.map_some,
    beValue_beBytes fits]

/-- **A head is read back.** -/
theorem head?_head {major n : Nat} (major_lt : major < 8) (n_lt : n < 2 ^ 64)
    (rest : List UInt8) : head? (head major n ++ rest) = some (major, n, rest) := by
  rw [head]
  dsimp only
  split
  · rename_i short
    have byte : (major * 32 + n).toUInt8.toNat = major * 32 + n := by
      simp only [Nat.toUInt8_eq, UInt8.toNat_ofNat']
      omega
    have high : (major * 32 + n) / 32 = major := by omega
    have low : (major * 32 + n) % 32 = n := by omega
    rw [List.cons_append, List.nil_append, head?]
    simp only [byte, high, low, if_pos short]
  · split
    · exact head?_long major_lt (by decide) rfl (by omega) rest
    · split
      · exact head?_long major_lt (by decide) rfl (by omega) rest
      · split
        · exact head?_long major_lt (by decide) rfl (by omega) rest
        · exact head?_long major_lt (by decide) rfl (by omega) rest

theorem length_head_le {major n : Nat} (n_lt : n < 2 ^ 32) : (head major n).length ≤ 5 := by
  rw [head]
  dsimp only
  split
  · simp
  · split
    · simp
    · split
      · simp
      · simp

theorem length_head_le_three (major : Nat) {n : Nat} (n_lt : n < 2 ^ 16) :
    (head major n).length ≤ 3 := by
  rw [head]
  dsimp only
  split
  · simp
  · split
    · simp
    · simp

/-! ## Items -/

inductive Item
  | int (value : Int)
  | bytes (value : List UInt8)
  deriving DecidableEq

/-- An integer or a byte string, and what follows it. -/
def item? (input : List UInt8) : Option (Item × List UInt8) :=
  match head? input with
  | some (0, n, rest) => some (.int n, rest)
  | some (1, n, rest) => some (.int (-1 - n), rest)
  | some (2, n, rest) => (split? n rest).map fun r => (.bytes r.1, r.2)
  | _ => none

def encodeInt (value : Int) : List UInt8 :=
  if 0 ≤ value then head 0 value.toNat else head 1 (-1 - value).toNat

def encodeBytes (value : List UInt8) : List UInt8 := head 2 value.length ++ value

/-- **An integer is read back.** -/
theorem item?_encodeInt {value : Int} (low : -2 ^ 64 ≤ value) (high : value < 2 ^ 64)
    (rest : List UInt8) : item? (encodeInt value ++ rest) = some (.int value, rest) := by
  rw [encodeInt, item?]
  by_cases positive : 0 ≤ value
  · rw [if_pos positive, head?_head (by decide) (by omega)]
    simp only [Int.toNat_of_nonneg positive]
  · have negative : 0 ≤ -1 - value := by omega
    have same : -1 - (-1 - value) = value := by omega
    rw [if_neg positive, head?_head (by decide) (by omega)]
    simp only [Int.toNat_of_nonneg negative, same]

/-- **A byte string is read back.** -/
theorem item?_encodeBytes {value : List UInt8} (short : value.length < 2 ^ 64)
    (rest : List UInt8) : item? (encodeBytes value ++ rest) = some (.bytes value, rest) := by
  rw [encodeBytes, List.append_assoc, item?, head?_head (by decide) short]
  simp only [split?_append, Option.map_some]

theorem length_encodeInt_le {value : Int} (low : -2 ^ 32 ≤ value) (high : value < 2 ^ 32) :
    (encodeInt value).length ≤ 5 := by
  rw [encodeInt]
  split
  · exact length_head_le (by omega)
  · exact length_head_le (by omega)

theorem length_encodeBytes_le {value : List UInt8} (short : value.length < 2 ^ 16) :
    (encodeBytes value).length ≤ 3 + value.length := by
  have bound := length_head_le_three 2 short
  rw [encodeBytes, List.length_append]
  omega

end Cbor

end NcsExp.Theory
