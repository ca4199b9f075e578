/-
# NcsExp.Peers.FindClosest -- which peer `peer_find_closest` finds

The search, with the distances in any order; at `Float32` it is the one of the model
(`findClosest_eq`).  `mcpd_min_peer_result` keeps the larger of two distances.

`finds_closest_iff`: on entries by RTT and MCPD it finds a closest peer if and only if
all distances by MCPD are the same.
-/
import NcsExp.Peers.Model
import Mathlib.Data.Nat.Basic
import Mathlib.Order.Lattice

namespace NcsExp.Peers.Search

set_option autoImplicit false

universe u v

variable {ι : Type u} {α : Type v}

/-- What the search reads of an entry. -/
structure Peer (α : Type v) where
  rangingMode : RangingMode
  best : α

section Source

variable [LT α] [DecidableLT α]

/-- Lines 86-109. -/
def mcpdMinPeerResult (peer : ι → Peer α) : Option ι → Option ι → Option ι
  | none, none => none
  | none, some b => if (peer b).rangingMode = .mcpd then some b else none
  | some a, none => if (peer a).rangingMode = .mcpd then some a else none
  | some a, some b =>
      if (peer a).rangingMode = .rtt ∧ (peer b).rangingMode = .rtt then none
      else if (peer a).rangingMode = .rtt ∧ (peer b).rangingMode = .mcpd then some b
      else if (peer a).rangingMode = .mcpd ∧ (peer b).rangingMode = .rtt then some a
      else if (peer a).best > (peer b).best then some a
      else some b

/-- Lines 111-127. -/
def peerFindClosest (peer : ι → Peer α) : List ι → Option ι
  | [] => none
  | head :: rest =>
      (head :: rest).foldl (fun closest item => mcpdMinPeerResult peer closest (some item))
        (some head)

end Source

/-- The search of the model. -/
theorem findClosest_eq (entry : Ptr → PeerEntry) (nodes : List Ptr) :
    findClosest entry nodes =
      peerFindClosest (fun n => ⟨(entry n).result.rangingMode, (entry n).result.best⟩) nodes := by
  have one : Peers.mcpdMinPeerResult entry = mcpdMinPeerResult
      fun n => (⟨(entry n).result.rangingMode, (entry n).result.best⟩ : Peer Float32) := by
    funext a b
    rcases a with _ | a <;> rcases b with _ | b <;> rfl
  cases nodes with
  | nil => rfl
  | cons head rest => rw [findClosest, peerFindClosest, one]

/-! ## What it finds -/

variable [LinearOrder α] {peer : ι → Peer α} {nodes : List ι}

/-- NULL if no entry is by MCPD, and otherwise an entry that none is nearer than. -/
def FindsClosest (peer : ι → Peer α) (nodes : List ι) : Prop :=
  (peerFindClosest peer nodes = none ↔ ∀ n ∈ nodes, (peer n).rangingMode ≠ .mcpd) ∧
    ∀ c, peerFindClosest peer nodes = some c → c ∈ nodes ∧ (peer c).rangingMode = .mcpd ∧
      ∀ n ∈ nodes, (peer n).rangingMode = .mcpd → (peer c).best ≤ (peer n).best

/-- `c` is the best of the entries met: NULL if none is by MCPD, and otherwise one that no
other is further away than. -/
def Furthest (peer : ι → Peer α) (met : List ι) : Option ι → Prop
  | none => ∀ n ∈ met, (peer n).rangingMode ≠ .mcpd
  | some c => c ∈ met ∧ (peer c).rangingMode = .mcpd ∧
      ∀ n ∈ met, (peer n).rangingMode = .mcpd → (peer n).best ≤ (peer c).best

/-- By one of the two modes. -/
def Ranged (peer : ι → Peer α) (n : ι) : Prop :=
  (peer n).rangingMode = .rtt ∨ (peer n).rangingMode = .mcpd

/-- **One comparison.** -/
theorem furthest_step {met : List ι} {c : Option ι} {item : ι} (furthest : Furthest peer met c)
    (ranged : Ranged peer item) :
    Furthest peer (met ++ [item]) (mcpdMinPeerResult peer c (some item)) := by
  have mem {n : ι} : n ∈ met ++ [item] ↔ n ∈ met ∨ n = item := by
    rw [List.mem_append, List.mem_singleton]
  cases c with
  | none =>
      rcases ranged with rtt | mcpd
      · simp only [mcpdMinPeerResult, rtt, reduceCtorEq, if_false]
        intro n isMet isMcpd
        rcases mem.mp isMet with before | rfl
        · exact furthest n before isMcpd
        · rw [rtt] at isMcpd
          cases isMcpd
      · simp only [mcpdMinPeerResult, mcpd, if_true]
        refine ⟨mem.mpr (Or.inr rfl), mcpd, fun n isMet isMcpd => ?_⟩
        rcases mem.mp isMet with before | rfl
        · exact absurd isMcpd (furthest n before)
        · exact le_refl _
  | some c =>
      obtain ⟨isIn, mode, above⟩ := furthest
      rcases ranged with rtt | mcpd
      · simp only [mcpdMinPeerResult, mode, rtt, reduceCtorEq, false_and, and_self, if_false,
          if_true]
        refine ⟨mem.mpr (Or.inl isIn), mode, fun n isMet isMcpd => ?_⟩
        rcases mem.mp isMet with before | rfl
        · exact above n before isMcpd
        · rw [rtt] at isMcpd
          cases isMcpd
      · simp only [mcpdMinPeerResult, mode, mcpd, reduceCtorEq, and_false, false_and, if_false]
        split
        · rename_i further
          refine ⟨mem.mpr (Or.inl isIn), mode, fun n isMet isMcpd => ?_⟩
          rcases mem.mp isMet with before | rfl
          · exact above n before isMcpd
          · exact le_of_lt further
        · rename_i notFurther
          refine ⟨mem.mpr (Or.inr rfl), mcpd, fun n isMet isMcpd => ?_⟩
          rcases mem.mp isMet with before | rfl
          · exact le_trans (above n before isMcpd) (not_lt.mp notFurther)
          · exact le_refl _

theorem furthest_fold {met rest : List ι} {c : Option ι} (furthest : Furthest peer met c)
    (ranged : ∀ n ∈ rest, Ranged peer n) :
    Furthest peer (met ++ rest)
      (rest.foldl (fun closest item => mcpdMinPeerResult peer closest (some item)) c) := by
  induction rest generalizing met c with
  | nil =>
      rw [List.append_nil]
      exact furthest
  | cons item rest ih =>
      have one := furthest_step furthest (ranged item List.mem_cons_self)
      have all := ih one fun n mem => ranged n (List.mem_cons_of_mem _ mem)
      rw [List.append_assoc] at all
      exact all

/-- The head is compared with itself: whatever its mode, what is left is right for it. -/
theorem furthest_head {head : ι} (ranged : Ranged peer head) :
    Furthest peer [head] (mcpdMinPeerResult peer (some head) (some head)) := by
  rcases ranged with rtt | mcpd
  · simp only [mcpdMinPeerResult, rtt, and_self, if_true]
    intro n isHead isMcpd
    rw [List.mem_singleton.mp isHead, rtt] at isMcpd
    cases isMcpd
  · simp only [mcpdMinPeerResult, mcpd, reduceCtorEq, false_and, and_false, if_false, ite_self]
    refine ⟨List.mem_singleton_self _, mcpd, fun n isHead _ => ?_⟩
    rw [List.mem_singleton.mp isHead]

/-- **The search finds a furthest peer.** -/
theorem peerFindClosest_furthest (ranged : ∀ n ∈ nodes, Ranged peer n) :
    Furthest peer nodes (peerFindClosest peer nodes) := by
  cases nodes with
  | nil =>
      intro n mem
      cases mem
  | cons head rest =>
      obtain ⟨first, others⟩ := List.forall_mem_cons.mp ranged
      exact furthest_fold (furthest_head first) others

/-- **The closest peer** is found if and only if all distances by MCPD are the same. -/
theorem finds_closest_iff (peer : ι → Peer α) (nodes : List ι)
    (ranged : ∀ n ∈ nodes, Ranged peer n) :
    FindsClosest peer nodes ↔
      ∀ a ∈ nodes, ∀ b ∈ nodes, (peer a).rangingMode = .mcpd → (peer b).rangingMode = .mcpd →
        (peer a).best = (peer b).best := by
  have furthest := peerFindClosest_furthest ranged
  rw [FindsClosest]
  cases found : peerFindClosest peer nodes with
  | none =>
      rw [found] at furthest
      refine ⟨fun _ a isIn _ _ isMcpd => absurd isMcpd (furthest a isIn), fun _ => ⟨?_, ?_⟩⟩
      · exact ⟨fun _ => furthest, fun _ => rfl⟩
      · intro c isSome
        cases isSome
  | some c =>
      rw [found] at furthest
      obtain ⟨isIn, mode, above⟩ := furthest
      constructor
      · rintro ⟨-, closest⟩ a aIn b bIn aMcpd bMcpd
        have below := (closest c rfl).2.2
        have same {n : ι} (nIn : n ∈ nodes) (isMcpd : (peer n).rangingMode = .mcpd) :
            (peer n).best = (peer c).best :=
          le_antisymm (above n nIn isMcpd) (below n nIn isMcpd)
        rw [same aIn aMcpd, same bIn bMcpd]
      · intro same
        refine ⟨⟨fun isNone => ?_, fun noMcpd => absurd mode (noMcpd c isIn)⟩, ?_⟩
        · cases isNone
        rintro _ ⟨⟩
        exact ⟨isIn, mode, fun n nIn isMcpd => le_of_eq (same c isIn n nIn mode isMcpd)⟩

/-- Peers by RTT and at one distance. -/
def level : Nat → Peer Nat
  | 0 => ⟨.rtt, 1⟩
  | _ => ⟨.mcpd, 7⟩

theorem finds_closest_level : FindsClosest level [0, 1, 2] :=
  (finds_closest_iff level [0, 1, 2] (by simp [Ranged, level])).mpr (by simp [level])

/-- **The further one of two** is found. -/
theorem finds_further :
    ¬ ∀ (peer : Nat → Peer Nat) (nodes : List Nat), (∀ n ∈ nodes, Ranged peer n) →
      FindsClosest peer nodes := by
  intro always
  have closest := always (fun n => ⟨.mcpd, n⟩) [1, 2] fun _ _ => Or.inr rfl
  have below := (closest.2 2 (by decide)).2.2 1 (by decide) rfl
  exact absurd below (by decide)

end NcsExp.Peers.Search
