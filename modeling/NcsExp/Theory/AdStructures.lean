/-
# NcsExp.Theory.AdStructures -- the format of advertising data

Advertising data is a sequence of AD structures: a length byte, which counts the type and
the data, a type byte, and the data.  A length of 0 ends the sequence, and so does a length
that goes past the end.

`parse` finds the structures from the front.  It finds what was encoded
(`parse_encode_append`) and nothing else (`mem_parse_iff`).
-/
import Mathlib.Data.List.Basic

namespace NcsExp.Theory

set_option autoImplicit false

/-- An AD structure, whose length fits its byte. -/
structure AdStructure where
  type : UInt8
  data : List UInt8
  short : data.length < 255
  deriving DecidableEq

namespace AdStructure

def encode (s : AdStructure) : List UInt8 := .ofNat (s.data.length + 1) :: s.type :: s.data

def encodeAll (structures : List AdStructure) : List UInt8 := structures.flatMap encode

theorem toNat_length_byte (s : AdStructure) :
    (UInt8.ofNat (s.data.length + 1)).toNat = s.data.length + 1 := by
  have short := s.short
  exact UInt8.toNat_ofNat_of_lt' (Nat.succ_lt_succ short)

theorem length_encode (s : AdStructure) : s.encode.length = s.data.length + 2 := rfl

theorem short_take (len : UInt8) (rest : List UInt8) (some_ : 0 < len.toNat) :
    (rest.take (len.toNat - 1)).length < 255 := by
  have byte := len.toNat_lt
  have taken := List.length_take_le (len.toNat - 1) rest
  omega

/-- The structures that are found from the front. -/
def parse : List UInt8 → List AdStructure
  | len :: type :: rest =>
      if fits : 0 < len.toNat ∧ len.toNat ≤ rest.length + 1 then
        ⟨type, rest.take (len.toNat - 1), short_take len rest fits.1⟩ ::
          parse (rest.drop (len.toNat - 1))
      else []
  | _ => []
termination_by payload => payload.length
decreasing_by
  rw [List.length_drop, List.length_cons, List.length_cons]
  omega

variable {s : AdStructure} {payload rest : List UInt8} {structures : List AdStructure}

/-- What was encoded is found. -/
theorem parse_encode_append (s : AdStructure) (rest : List UInt8) :
    parse (s.encode ++ rest) = s :: parse rest := by
  have len := s.toNat_length_byte
  have fits : 0 < (UInt8.ofNat (s.data.length + 1)).toNat ∧
      (UInt8.ofNat (s.data.length + 1)).toNat ≤ (s.data ++ rest).length + 1 := by
    rw [len, List.length_append]
    omega
  rw [encode, List.cons_append, List.cons_append, parse, dif_pos fits]
  congr 1
  · cases s
    simp only [mk.injEq, true_and]
    rw [len, Nat.add_sub_cancel]
    exact List.take_left
  · rw [len, Nat.add_sub_cancel, List.drop_left]

theorem parse_encodeAll_append (structures : List AdStructure) (rest : List UInt8) :
    parse (encodeAll structures ++ rest) = structures ++ parse rest := by
  induction structures with
  | nil => rfl
  | cons s more ih =>
      rw [encodeAll, List.flatMap_cons, List.append_assoc, parse_encode_append, List.cons_append]
      exact congrArg _ ih

/-- The first structure that is found was encoded in front. -/
theorem parse_eq_cons (found : parse payload = s :: structures) :
    ∃ rest, payload = s.encode ++ rest ∧ parse rest = structures := by
  unfold parse at found
  split at found
  · rename_i len type rest
    split at found
    · rename_i fits
      obtain ⟨rfl, rfl⟩ := List.cons.inj found
      refine ⟨rest.drop (len.toNat - 1), ?_, rfl⟩
      have taken : (rest.take (len.toNat - 1)).length + 1 = len.toNat := by
        rw [List.length_take_of_le (by omega)]
        omega
      rw [encode, List.cons_append, List.cons_append, List.take_append_drop, taken,
        UInt8.ofNat_toNat]
    · cases found
  · cases found

/-- **What is found was encoded**, after other structures. -/
theorem mem_parse_iff :
    s ∈ parse payload ↔ ∃ before rest, payload = encodeAll before ++ s.encode ++ rest := by
  constructor
  · intro found
    generalize same : parse payload = structures at found
    induction structures generalizing payload with
    | nil => cases found
    | cons first more ih =>
        obtain ⟨rest, rfl, left⟩ := parse_eq_cons same
        rcases List.mem_cons.mp found with rfl | later
        · exact ⟨[], rest, rfl⟩
        · obtain ⟨before, rest', rfl⟩ := ih left later
          refine ⟨first :: before, rest', ?_⟩
          rw [encodeAll, encodeAll, List.flatMap_cons]
          simp only [List.append_assoc]
  · rintro ⟨before, rest, rfl⟩
    rw [List.append_assoc, parse_encodeAll_append, parse_encode_append]
    exact List.mem_append_right before List.mem_cons_self

/-- Where a structure is found, there is one in front. -/
theorem exists_encode_of_mem (found : s ∈ parse payload) :
    ∃ (first : AdStructure) (rest : List UInt8), payload = first.encode ++ rest := by
  obtain ⟨first, more, same⟩ := List.exists_cons_of_ne_nil (List.ne_nil_of_mem found)
  obtain ⟨rest, split, -⟩ := parse_eq_cons same
  exact ⟨first, rest, split⟩

end AdStructure

end NcsExp.Theory
