/-
# NcsExp.Theory.LittleEndian -- numbers as bytes, the lowest first

`bytes n v` is a number `v` in `n` bytes, as a little-endian memory holds it, and `value` reads
bytes back: what was written, if it is below `256 ^ n` (`value_bytes`).
-/
import Mathlib.Algebra.Order.Ring.Nat

namespace NcsExp.Theory.LittleEndian

set_option autoImplicit false

def bytes : Nat → Nat → List UInt8
  | 0, _ => []
  | n + 1, v => v.toUInt8 :: bytes n (v / 256)

def value : List UInt8 → Nat
  | [] => 0
  | b :: rest => b.toNat + 256 * value rest

@[simp] theorem length_bytes (n v : Nat) : (bytes n v).length = n := by
  induction n generalizing v with
  | zero => rfl
  | succ n ih => rw [bytes, List.length_cons, ih]

/-- **Reading back what was written.** -/
theorem value_bytes {n v : Nat} (fits : v < 256 ^ n) : value (bytes n v) = v := by
  induction n generalizing v with
  | zero =>
      rw [pow_zero] at fits
      exact (Nat.lt_one_iff.mp fits).symm
  | succ n ih =>
      have rest : v / 256 < 256 ^ n := Nat.div_lt_of_lt_mul (by rwa [pow_succ'] at fits)
      have low : v.toUInt8.toNat = v % 256 := by rw [Nat.toUInt8_eq, UInt8.toNat_ofNat']
      rw [bytes, value, ih rest, low]
      exact Nat.mod_add_div v 256

end NcsExp.Theory.LittleEndian
