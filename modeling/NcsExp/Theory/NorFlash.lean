/-
# NcsExp.Theory.NorFlash -- cells that are erased in ranges and programmed one way

Erasing sets every bit of a range, and programming can only clear bits, so that a range holds what
was programmed into it if it was blank before (`load_program`).  An operation that power is taken
from leaves anything in its range and nothing outside of it (`spoil`).
-/
import NcsExp.Theory.Memory

namespace NcsExp.Theory.NorFlash

set_option autoImplicit false

/-- Erase `len` cells from `off` on. -/
def erase (m : Memory UInt8) (off len : Nat) : Memory UInt8 := fun a =>
  if off ≤ a ∧ a < off + len then 0xff else m a

/-- Program `bytes` from `off` on. -/
def program (m : Memory UInt8) (off : Nat) (bytes : List UInt8) : Memory UInt8 := fun a =>
  if off ≤ a ∧ a < off + bytes.length then m a &&& bytes.getD (a - off) 0xff else m a

/-- An operation on `len` cells from `off` on is cut off. -/
def spoil (m : Memory UInt8) (off len : Nat) (noise : Memory UInt8) : Memory UInt8 := fun a =>
  if off ≤ a ∧ a < off + len then noise a else m a

/-- `len` cells from `off` on are erased. -/
def Blank (m : Memory UInt8) (off len : Nat) : Prop := ∀ a, off ≤ a → a < off + len → m a = 0xff

variable {m : Memory UInt8}

theorem load_congr {m' : Memory UInt8} {off len : Nat}
    (same : ∀ a, off ≤ a → a < off + len → m a = m' a) : m.load off len = m'.load off len := by
  refine List.map_congr_left fun i member => same _ (by omega) ?_
  have bound := List.mem_range.mp member
  omega

/-- The next range behind an erased one. -/
theorem Blank.erase {off len n : Nat} (blank : Blank m off len) :
    Blank (erase m (off + len) n) off (len + n) := by
  intro a above below
  unfold NorFlash.erase
  split
  · rfl
  · exact blank a above (by omega)

theorem Blank.drop {off len n : Nat} (blank : Blank m off (n + len)) : Blank m (off + n) len :=
  fun a above below => blank a (by omega) (by omega)

theorem Blank.program {off len n : Nat} {bytes : List UInt8} (blank : Blank m off (n + len))
    (short : bytes.length ≤ n) : Blank (program m off bytes) (off + n) len := by
  intro a above below
  unfold NorFlash.program
  rw [if_neg (by omega)]
  exact blank a (by omega) (by omega)

/-- A blank range holds what is programmed into it. -/
theorem load_program {off : Nat} {bytes : List UInt8} (blank : Blank m off bytes.length) :
    (program m off bytes).load off bytes.length = bytes := by
  refine List.ext_getElem (by simp) fun i inLoad inBytes => ?_
  have inside : ¬ bytes.length ≤ i := by omega
  have cell : m (off + i) = -1 := blank _ (by omega) (by omega)
  simp [Memory.load, NorFlash.program, inside, cell, List.getElem?_eq_getElem inBytes]

theorem load_program_below {off p n : Nat} {bytes : List UInt8} (below : p + n ≤ off) :
    (program m off bytes).load p n = m.load p n :=
  load_congr fun a _ bound => if_neg (by omega)

end NcsExp.Theory.NorFlash
