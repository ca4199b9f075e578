/-
# NcsExp.Theory.SList -- singly linked lists with a tail pointer

`sys_slist_t`: a head, a tail, and in each node the next one.  `Linked s nodes` says
that following `next` from the head meets exactly `nodes`, and that the tail is the
last of them.

* `append` and `remove` are the two operations, with a NULL previous node where
  `remove` is given none: it makes the successor the head.
* `walk` is the order in which a loop over the list meets the nodes (`Linked.walk`).
* `Linked.append` and `Linked.remove_head`: what the operations do to a linked list.
  `remove` without a previous node drops every node in front of the one removed.
-/
import Mathlib.Data.List.Nodup

namespace NcsExp.Theory

set_option autoImplicit false

universe u

structure SList (ν : Type u) where
  head : Option ν
  tail : Option ν
  next : ν → Option ν

namespace SList

variable {ν : Type u}

/-- `SYS_SLIST_STATIC_INIT`. -/
def empty : SList ν where
  head := none
  tail := none
  next := fun _ => none

/-! ## Linked lists -/

/-- From `first` the nodes are `nodes`. -/
def Chain (next : ν → Option ν) : Option ν → List ν → Prop
  | first, [] => first = none
  | first, node :: rest => first = some node ∧ Chain next (next node) rest

structure Linked (s : SList ν) (nodes : List ν) : Prop where
  chain : Chain s.next s.head nodes
  tail : s.tail = nodes.getLast?
  once : nodes.Nodup

/-- The nodes met from `first` on, at most `fuel` of them. -/
def walk (next : ν → Option ν) : Nat → Option ν → List ν
  | 0, _ => []
  | _ + 1, none => []
  | fuel + 1, some node => node :: walk next fuel (next node)

theorem Chain.walk {next : ν → Option ν} {first : Option ν} {nodes : List ν} {fuel : Nat}
    (chain : Chain next first nodes) (enough : nodes.length ≤ fuel) :
    SList.walk next fuel first = nodes := by
  induction nodes generalizing first fuel with
  | nil =>
      cases chain
      cases fuel <;> rfl
  | cons node rest ih =>
      obtain ⟨rfl, tail⟩ := chain
      cases fuel with
      | zero => simp at enough
      | succ fuel => rw [SList.walk, ih tail (by simpa using enough)]

/-- **A loop meets every node.** -/
theorem Linked.walk {s : SList ν} {nodes : List ν} (linked : Linked s nodes) {fuel : Nat}
    (enough : nodes.length ≤ fuel) : SList.walk s.next fuel s.head = nodes :=
  linked.chain.walk enough

theorem Chain.congr {next next' : ν → Option ν} {first : Option ν} {nodes : List ν}
    (chain : Chain next first nodes) (same : ∀ node ∈ nodes, next' node = next node) :
    Chain next' first nodes := by
  induction nodes generalizing first with
  | nil => exact chain
  | cons node rest ih =>
      obtain ⟨first_, tail⟩ := chain
      refine ⟨first_, ?_⟩
      rw [same node List.mem_cons_self]
      exact ih tail fun n member => same n (List.mem_cons_of_mem _ member)

/-- The chain from a node in the middle. -/
theorem Chain.after {next : ν → Option ν} {first : Option ν} {front rest : List ν} {node : ν}
    (chain : Chain next first (front ++ node :: rest)) : Chain next (next node) rest := by
  induction front generalizing first with
  | nil => exact chain.2
  | cons n front ih => exact ih chain.2

theorem Chain.first_eq {next : ν → Option ν} {first : Option ν} {nodes : List ν}
    (chain : Chain next first nodes) : first = nodes.head? := by
  cases nodes with
  | nil => exact chain
  | cons node rest => exact chain.1

theorem Linked.next_eq {s : SList ν} {front rest : List ν} {node : ν}
    (linked : Linked s (front ++ node :: rest)) : s.next node = rest.head? :=
  linked.chain.after.first_eq

theorem Chain.extend {next : ν → Option ν} {first : Option ν} {front : List ν} {last node : ν}
    (chain : Chain next first (front ++ [last])) (ends : next node = none) {next' : ν → Option ν}
    (goes : next' last = some node) (same : ∀ n, n ≠ last → next' n = next n)
    (once : (front ++ [last, node]).Nodup) : Chain next' first (front ++ [last, node]) := by
  induction front generalizing first with
  | nil =>
      have other : node ≠ last := by
        rintro rfl
        simp at once
      exact ⟨chain.1, goes, by rw [same node other, ends]; rfl⟩
  | cons n front ih =>
      have other : n ≠ last := by
        rintro rfl
        simp at once
      refine ⟨chain.1, ?_⟩
      rw [same n other]
      exact ih chain.2 (List.nodup_cons.mp once).2

theorem linked_empty : Linked (empty : SList ν) [] :=
  ⟨rfl, rfl, List.nodup_nil⟩

/-! ## The operations -/

variable [DecidableEq ν]

def setNext (s : SList ν) (node : ν) (next : Option ν) : SList ν :=
  { s with next := fun n => if n = node then next else s.next n }

/-- `sys_slist_append`. -/
def append (s : SList ν) (node : ν) : SList ν :=
  let s := s.setNext node none
  match s.tail with
  | none => { s with head := some node, tail := some node }
  | some last => { s.setNext last (some node) with tail := some node }

/-- `sys_slist_remove`. -/
def remove (s : SList ν) (prev : Option ν) (node : ν) : SList ν :=
  let s :=
    match prev with
    | none =>
        { s with
          head := s.next node
          tail := if s.tail = some node then s.next node else s.tail }
    | some p =>
        { s.setNext p (s.next node) with tail := if s.tail = some node then some p else s.tail }
  s.setNext node none

@[simp] theorem setNext_next (s : SList ν) (node n : ν) (next : Option ν) :
    (s.setNext node next).next n = if n = node then next else s.next n := rfl

@[simp] theorem setNext_head (s : SList ν) (node : ν) (next : Option ν) :
    (s.setNext node next).head = s.head := rfl

@[simp] theorem setNext_tail (s : SList ν) (node : ν) (next : Option ν) :
    (s.setNext node next).tail = s.tail := rfl

/-- **Append.** -/
theorem Linked.append {s : SList ν} {nodes : List ν} (linked : Linked s nodes) {node : ν}
    (new : node ∉ nodes) : Linked (s.append node) (nodes ++ [node]) := by
  have once : (nodes ++ [node]).Nodup := by
    rw [List.nodup_append]
    refine ⟨linked.once, List.nodup_singleton _, ?_⟩
    rintro a member b isNode rfl
    exact new (by rwa [List.mem_singleton.mp isNode] at member)
  have cut : Chain (s.setNext node none).next s.head nodes := by
    apply linked.chain.congr
    intro n member
    refine if_neg ?_
    rintro rfl
    exact new member
  rcases List.eq_nil_or_concat nodes with rfl | ⟨front, last, rfl⟩
  · have tail : s.tail = none := linked.tail
    refine ⟨?_, ?_, once⟩
    · simp [SList.append, tail, Chain]
    · simp [SList.append, tail]
  · rw [List.concat_eq_append] at *
    have tail : s.tail = some last := by simpa using linked.tail
    refine ⟨?_, ?_, once⟩
    · simp only [SList.append, setNext_tail, tail, List.append_assoc, List.cons_append,
        List.nil_append]
      refine Chain.extend cut (if_pos rfl) (if_pos rfl) (fun n other => if_neg other) ?_
      simpa using once
    · simp [SList.append, tail]

/-- **Removal without a previous node.**  What is left starts after the node. -/
theorem Linked.remove_head {s : SList ν} {front rest : List ν} {node : ν}
    (linked : Linked s (front ++ node :: rest)) : Linked (s.remove none node) rest := by
  have once := (List.nodup_append.mp linked.once).2.1
  have tail := linked.tail
  refine ⟨?_, ?_, (List.nodup_cons.mp once).2⟩
  · apply linked.chain.after.congr
    intro n member
    refine if_neg ?_
    rintro rfl
    exact (List.nodup_cons.mp once).1 member
  · show (if s.tail = some node then s.next node else s.tail) = rest.getLast?
    rw [tail, linked.next_eq]
    rcases List.eq_nil_or_concat rest with rfl | ⟨front', last, rfl⟩
    · simp
    · rw [List.concat_eq_append] at *
      have other : last ≠ node := by
        rintro rfl
        simp at once
      have same : (front ++ node :: (front' ++ [last])).getLast? = some last := by
        rw [← List.cons_append, ← List.append_assoc, List.getLast?_append]
        rfl
      rw [same, if_neg (by simpa using other)]
      simp

end SList

end NcsExp.Theory
