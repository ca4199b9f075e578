/-
# NcsExp.Peers.Retention -- how long a peer is kept

`kept` is what the list of peers is for, read off the log: a peer is kept from when it
is added until it has seen twenty ticks without a result.  `retained` says that the list
is that, and the memory too, in the runs in which peers expire from the front of the
list only: `sys_slist_remove` is called without the previous node, so the removal of a
node drops the nodes in front of it (`inner_expiry_breaks`).
-/
import NcsExp.Theory.History
import NcsExp.Peers.Structure
import Mathlib.Data.List.Induction

namespace NcsExp.Peers

open NcsExp.Theory

set_option autoImplicit false

/-! ## What is to be kept -/

/-- A peer that is kept, with the ticks since it was added or last measured. -/
structure Kept where
  node : Ptr
  peer : BtAddr
  ticks : Nat
  deriving DecidableEq

/-- The ticks after which a peer is dropped. -/
def lifetime : Nat := 20

def Kept.observe (kept : List Kept) : Entry → List Kept
  | .added node peer => kept ++ [⟨node, peer, 0⟩]
  | .processed r => kept.map fun k => if k.peer = r.btAddr then { k with ticks := 0 } else k
  | .ticked => (kept.map fun k => { k with ticks := k.ticks + 1 }).filter fun k =>
      k.ticks < lifetime
  | _ => kept

/-- The peers to be kept after what the log says. -/
def kept (log : List Entry) : List Kept := present Kept.observe [] log

/-- The list holds the peers to be kept, in their order, and nothing else is
allocated. -/
structure Retained (m : Machine) : Prop where
  linked : m.peerList.Linked ((kept m.log).map (·.node))
  peers : ∀ k ∈ kept m.log, (m.entry k.node).btAddr = k.peer
  memory : ∀ node, node ∈ m.allocated ↔ node ∈ (kept m.log).map (·.node)

/-- No node expires behind one that does not. -/
def expiresInFront (up : Ptr → Bool) : List Ptr → Bool
  | [] => true
  | node :: rest => if up node then expiresInFront up rest else rest.all fun n => !up n

/-- Peers expire from the front of the list only. -/
def inOrder (m : Machine) : Act → Bool
  | .tick => expiresInFront (expiring m) m.nodes
  | _ => true

/-! ## Expiry from the front -/

theorem survivors_cons_up {up : Ptr → Bool} {node : Ptr} (isUp : up node = true)
    (rest : List Ptr) : survivors up (node :: rest) = survivors up rest := by
  simp [survivors, isUp]

/-- Then exactly the nodes whose time is up go. -/
theorem survivors_eq_filter {up : Ptr → Bool} {nodes : List Ptr}
    (front : expiresInFront up nodes = true) :
    survivors up nodes = nodes.filter fun n => !up n := by
  induction nodes with
  | nil => rfl
  | cons node rest ih =>
      unfold expiresInFront at front
      cases isUp : up node with
      | true =>
          rw [isUp, if_pos rfl] at front
          rw [survivors_cons_up isUp, ih front, List.filter_cons_of_neg (by simp [isUp])]
      | false =>
          rw [isUp, if_neg Bool.false_ne_true, List.all_eq_true] at front
          have none_ : ∀ n ∈ node :: rest, up n = false := by
            intro n member
            rcases List.mem_cons.mp member with rfl | inRest
            · exact isUp
            · simpa using front n inRest
          rw [survivors_of_none none_, List.filter_eq_self.mpr]
          intro n member
          rw [none_ n member]
          rfl

/-! ## Every run -/

/-- The list and the ages of its peers. -/
structure RetentionInv (m : Machine) : Prop where
  structured : Structured m ((kept m.log).map (·.node))
  peers : ∀ k ∈ kept m.log, (m.entry k.node).btAddr = k.peer
  ages : ∀ k ∈ kept m.log, (m.entry k.node).timeoutMs + 500 * k.ticks = 10000
  memory : ∀ node, node ∈ m.allocated ↔ node ∈ (kept m.log).map (·.node)

theorem RetentionInv.toRetained {m : Machine} (inv : RetentionInv m) : Retained m :=
  ⟨inv.structured.linked, inv.peers, inv.memory⟩

theorem kept_snoc (log : List Entry) (e : Entry) : kept (log ++ [e]) = Kept.observe (kept log) e :=
  present_snoc

/-- What the filter and a tick write says nothing about the peers to be kept. -/
theorem kept_of_ofTick {log new : List Entry} (tick : ∀ e ∈ new, e.ofTick = true) :
    kept (log ++ new) = kept log := by
  apply present_append_of_quiet
  intro e member now
  have written := tick e member
  cases e with
  | added => cases written
  | processed => cases written
  | ticked => cases written
  | notified => rfl
  | freed => rfl
  | pushed => rfl
  | averaged => rfl

theorem SamePeers.kept_eq {m t : Machine} (same : SamePeers m t) : kept t.log = kept m.log := by
  obtain ⟨new, log, filter⟩ := same.log
  rw [log]
  exact kept_of_ofTick fun e member => ofTick_of_ofFilter (filter e member)

theorem SamePeers.retentionInv {m t : Machine} (same : SamePeers m t) (inv : RetentionInv m) :
    RetentionInv t where
  structured := by
    rw [same.kept_eq]
    exact same.toStructured inv.structured
  peers := by
    rw [same.kept_eq, same.entry]
    exact inv.peers
  ages := by
    rw [same.kept_eq, same.entry]
    exact inv.ages
  memory := by
    rw [same.kept_eq, same.allocated]
    exact inv.memory

theorem notified_inv {m : Machine} (inv : RetentionInv m) (node : Ptr) :
    RetentionInv (m.note (.notified node)) := by
  have same : kept (m.note (.notified node)).log = kept m.log := kept_snoc ..
  obtain ⟨structured, peers, ages, memory⟩ := inv
  refine ⟨?_, ?_, ?_, ?_⟩ <;> rw [same]
  · exact ⟨structured.linked, structured.live, structured.heap, structured.distinct,
      structured.timeout, structured.closest⟩
  · exact peers
  · exact ages
  · exact memory

/-- Distinct addresses tell the nodes apart. -/
theorem node_eq_of_peer {m : Machine} {nodes : List Ptr} (s : Structured m nodes) {a b : Ptr}
    (inA : a ∈ nodes) (inB : b ∈ nodes) (same : (m.entry a).btAddr = (m.entry b).btAddr) : a = b :=
  List.inj_on_of_nodup_map s.distinct inA inB same

theorem choose_inv {m : Machine} (inv : RetentionInv m) {result : DmResult} {peer : Ptr}
    (found : peerFind m result.btAddr = some peer) : RetentionInv (m.choose peer result) := by
  obtain ⟨member, address⟩ := peerFind_some inv.structured found
  have log : kept (m.choose peer result).log =
      (kept m.log).map fun k => if k.peer = result.btAddr then { k with ticks := 0 } else k :=
    kept_snoc ..
  have nodes : (kept (m.choose peer result).log).map (·.node) = (kept m.log).map (·.node) := by
    rw [log, List.map_map]
    apply List.map_congr_left
    intro k _
    show (if k.peer = result.btAddr then { k with ticks := 0 } else k).node = k.node
    split <;> rfl
  -- the entry written is the one of the peer that was measured
  have own : ∀ k ∈ kept m.log, k.node = peer ↔ k.peer = result.btAddr := by
    intro k inKept
    have peerOf := inv.peers k inKept
    constructor
    · rintro rfl
      rw [← peerOf, address]
    · intro same
      apply node_eq_of_peer inv.structured (List.mem_map_of_mem inKept) member
      rw [peerOf, same, address]
  refine ⟨?_, ?_, ?_, ?_⟩
  · rw [nodes]
    exact choose_structured inv.structured found
  · rw [log]
    intro k' inMap
    obtain ⟨k, inKept, rfl⟩ := List.mem_map.mp inMap
    have peerOf := inv.peers k inKept
    show (if _ = peer then _ else m.entry _).btAddr = _
    by_cases measured : k.peer = result.btAddr
    · simp [measured, (own k inKept).mpr measured, address]
    · have other : ¬ k.node = peer := fun same => measured ((own k inKept).mp same)
      simp [measured, other, peerOf]
  · rw [log]
    intro k' inMap
    obtain ⟨k, inKept, rfl⟩ := List.mem_map.mp inMap
    have age := inv.ages k inKept
    show (if _ = peer then _ else m.entry _).timeoutMs + _ = _
    by_cases measured : k.peer = result.btAddr
    · simp [measured, (own k inKept).mpr measured, timeoutInitMs]
    · have other : ¬ k.node = peer := fun same => measured ((own k inKept).mp same)
      simp [measured, other, age]
  · rw [nodes]
    exact inv.memory

theorem peerThread_inv {m : Machine} (inv : RetentionInv m) (result : DmResult) :
    RetentionInv (peerThread m result) := by
  cases found : peerFind m result.btAddr with
  | none =>
      rw [peerThread_unknown found]
      exact inv
  | some peer =>
      obtain ⟨t, same, after⟩ := peerThread_found found
      rw [after]
      exact notified_inv (same.retentionInv (choose_inv inv found)) peer

theorem add_inv {m t : Machine} (inv : RetentionInv m) {peer : BtAddr}
    {alloc : Option (Ptr × DmResult)} (taken : peerSupportedAdd m peer alloc = some t) :
    RetentionInv t := by
  rcases add_cases taken with rfl | ⟨node, left, new, free, rfl⟩
  · exact inv
  have log : kept (m.newEntry node peer left).log = kept m.log ++ [⟨node, peer, 0⟩] :=
    kept_snoc ..
  have others : ∀ k ∈ kept m.log, (m.newEntry node peer left).entry k.node = m.entry k.node := by
    intro k member
    refine if_neg ?_
    rintro rfl
    exact free (inv.structured.live k.node (List.mem_map_of_mem member))
  have own : (m.newEntry node peer left).entry node = ⟨peer, left, timeoutInitMs, none⟩ :=
    if_pos rfl
  refine ⟨?_, ?_, ?_, ?_⟩
  · show Structured _ ((kept (m.newEntry node peer left).log).map _)
    rw [log, List.map_append]
    exact newEntry_structured inv.structured new free
  · show ∀ k ∈ kept (m.newEntry node peer left).log,
      ((m.newEntry node peer left).entry k.node).btAddr = k.peer
    rw [log]
    intro k member
    rcases List.mem_append.mp member with before | now
    · rw [others k before]
      exact inv.peers k before
    · rw [List.mem_singleton.mp now, own]
  · show ∀ k ∈ kept (m.newEntry node peer left).log,
      ((m.newEntry node peer left).entry k.node).timeoutMs + 500 * k.ticks = 10000
    rw [log]
    intro k member
    rcases List.mem_append.mp member with before | now
    · rw [others k before]
      exact inv.ages k before
    · rw [List.mem_singleton.mp now, own]
      rfl
  · intro n
    show n ∈ node :: m.allocated ↔ n ∈ (kept (m.newEntry node peer left).log).map _
    rw [log, List.map_append, List.mem_append, ← inv.memory n, List.mem_cons, List.map_singleton,
      List.mem_singleton]
    exact Or.comm

/-! ### The tick -/

/-- A kept peer expires at its twentieth tick. -/
theorem expiring_iff {m : Machine} (inv : RetentionInv m) {k : Kept} (member : k ∈ kept m.log) :
    expiring m k.node = false ↔ k.ticks + 1 < lifetime := by
  have age := inv.ages k member
  have time : expiring m k.node = false ↔ 500 < (m.entry k.node).timeoutMs := by
    simp [expiring, timeoutStepMs]
  rw [time, lifetime]
  omega

theorem filter_nodes {m : Machine} (inv : RetentionInv m) :
    ((kept m.log).map (·.node)).filter (fun n => !expiring m n) =
      (Kept.observe (kept m.log) .ticked).map (·.node) := by
  have each : ∀ l : List Kept, (∀ k ∈ l, k ∈ kept m.log) →
      (l.map (·.node)).filter (fun n => !expiring m n) = (Kept.observe l .ticked).map (·.node) := by
    intro l
    induction l with
    | nil => exact fun _ => rfl
    | cons k rest ih =>
        intro inKept
        have tail := ih fun k' member => inKept k' (List.mem_cons_of_mem _ member)
        have time := expiring_iff inv (inKept k List.mem_cons_self)
        unfold Kept.observe at tail ⊢
        rw [List.map_cons, List.map_cons]
        by_cases stays : k.ticks + 1 < lifetime
        · rw [List.filter_cons_of_pos (by rw [time.mpr stays]; rfl),
            List.filter_cons_of_pos (by simpa using stays), List.map_cons, tail]
        · have up : expiring m k.node = true := by
            cases isUp : expiring m k.node with
            | true => rfl
            | false => exact absurd (time.mp isUp) stays
          rw [List.filter_cons_of_neg (by simp [up]),
            List.filter_cons_of_neg (by simpa using stays), tail]
  exact each _ fun k member => member

theorem tick_inv {m : Machine} (inv : RetentionInv m) (met : inOrder m .tick = true) :
    RetentionInv (timeoutHandler m) := by
  have ticked := timeoutHandler_ticked inv.structured
  have front : expiresInFront (expiring m) ((kept m.log).map (·.node)) = true := by
    rw [← inv.structured.nodes_eq]
    exact met
  rw [survivors_eq_filter front, filter_nodes inv] at ticked
  have log : kept (timeoutHandler m).log = Kept.observe (kept m.log) .ticked := by
    obtain ⟨new, log, tick⟩ := ticked.log
    rw [log, List.append_cons, kept_of_ofTick tick, kept_snoc]
  have stays : ∀ k ∈ kept (timeoutHandler m).log, ∃ k' ∈ kept m.log,
      k = { k' with ticks := k'.ticks + 1 } ∧ k'.ticks + 1 < lifetime := by
    rw [log]
    intro k member
    obtain ⟨inMap, young⟩ := List.mem_filter.mp member
    obtain ⟨k', inKept, rfl⟩ := List.mem_map.mp inMap
    exact ⟨k', inKept, rfl, by simpa using young⟩
  have entry : ∀ k ∈ kept (timeoutHandler m).log,
      (timeoutHandler m).entry k.node = (m.entry k.node).aged := by
    intro k member
    exact ticked.aged k.node (by rw [← log]; exact List.mem_map_of_mem member)
  refine ⟨?_, ?_, ?_, ?_⟩
  · rw [log]
    simpa using ticked.structured
  · intro k member
    rw [entry k member, PeerEntry.aged_btAddr]
    obtain ⟨k', inKept, rfl, _⟩ := stays k member
    exact inv.peers k' inKept
  · intro k member
    rw [entry k member, PeerEntry.aged_timeoutMs]
    obtain ⟨k', inKept, rfl, young⟩ := stays k member
    have age := inv.ages k' inKept
    unfold lifetime at young
    dsimp only
    omega
  · intro n
    rw [ticked.heap n, log, ← filter_nodes inv, List.mem_filter, inv.memory n, Bool.not_eq_true']
    constructor
    · rintro ⟨member, stays⟩
      exact ⟨member, Bool.eq_false_iff.mpr fun up => stays ⟨member, up⟩⟩
    · rintro ⟨member, stays⟩
      exact ⟨member, fun both => absurd both.2 (by simp [stays])⟩

theorem step_retentionInv {m t : Machine} {a : Act} (inv : RetentionInv m)
    (met : inOrder m a = true) (taken : step m a = some t) : RetentionInv t := by
  cases a with
  | add peer alloc => exact add_inv inv taken
  | result r =>
      simp only [step] at taken
      split at taken
      · cases taken
        exact peerThread_inv inv r
      · cases taken
  | tick =>
      cases taken
      exact tick_inv inv met

theorem init_retentionInv {m : Machine} (init : Init m) : RetentionInv m := by
  have none_ : kept m.log = [] := by
    rw [init.log]
    rfl
  refine ⟨?_, ?_, ?_, ?_⟩ <;> rw [none_]
  · exact init_structured init
  · simp
  · simp
  · simp [init.allocated]

theorem reachable_retentionInv {m : Machine} (run : Reachable step Init inOrder m) :
    RetentionInv m := by
  apply run.invariant
  · intro s init
    exact init_retentionInv init
  · intro s a t inv met taken
    exact step_retentionInv inv met taken

/-- **Retention.**  In every run in which peers expire from the front of the list only,
the list holds each peer until it has seen twenty ticks without a result, and what is
allocated is what is linked. -/
theorem retained {m : Machine} (run : Reachable step Init inOrder m) : Retained m :=
  (reachable_retentionInv run).toRetained

theorem retained_twoPeersRun : ∃ m : Machine, Retained m ∧ m.nodes = [2] ∧ m.allocated = [2] := by
  have found : (exec step inOrder booted twoPeersRun).any
      (fun m => m.nodes == [2] && m.allocated == [2]) = true := by decide +kernel
  obtain ⟨m, run, shown⟩ := exists_reachable_of_exec booted_init found
  rw [Bool.and_eq_true, beq_iff_eq, beq_iff_eq] at shown
  exact ⟨m, retained run, shown⟩

/-! ### The condition is needed -/

/-- What was met before a removal does not matter. -/
theorem fold_of_any {up : Ptr → Bool} {rest : List Ptr} (any : rest.any up = true)
    (met met' : List Ptr) :
    rest.foldl (fun met n => if up n then [] else met ++ [n]) met =
      rest.foldl (fun met n => if up n then [] else met ++ [n]) met' := by
  induction rest generalizing met met' with
  | nil => cases any
  | cons n rest ih =>
      simp only [List.foldl_cons]
      by_cases isUp : up n = true
      · rw [if_pos isUp, if_pos isUp]
      · rw [if_neg isUp, if_neg isUp]
        exact ih (by simpa [isUp] using any) _ _

theorem expiresInFront_of_filter {up : Ptr → Bool} {nodes : List Ptr}
    (same : survivors up nodes = nodes.filter fun n => !up n) : expiresInFront up nodes = true := by
  induction nodes with
  | nil => rfl
  | cons node rest ih =>
      unfold expiresInFront
      by_cases isUp : up node = true
      · rw [if_pos isUp]
        apply ih
        rwa [survivors_cons_up isUp, List.filter_cons_of_neg (by simp [isUp])] at same
      · rw [if_neg isUp]
        cases any : rest.any up with
        | false =>
            rw [List.any_eq_false] at any
            rw [List.all_eq_true]
            exact fun n member => by simpa using any n member
        | true =>
            have lost : survivors up (node :: rest) = survivors up rest := fold_of_any any _ _
            have fewer := (survivors_sublist up rest).length_le
            rw [lost, List.filter_cons_of_pos (by simpa using isUp)] at same
            rw [same, List.length_cons] at fewer
            omega

theorem Retained.nodes_eq {m : Machine} (retained : Retained m) :
    m.nodes = (kept m.log).map (·.node) :=
  Peers.nodes_eq retained.linked fun node member => (retained.memory node).mpr member

/-- **The condition is needed.**  A tick at which a node expires behind one that does not
loses the one in front. -/
theorem inner_expiry_breaks {m : Machine} (run : Reachable step Init inOrder m)
    (inner : inOrder m .tick = false) : ¬ Retained (timeoutHandler m) := by
  intro retained
  have inv := reachable_retentionInv run
  have ticked := timeoutHandler_ticked inv.structured
  have log : kept (timeoutHandler m).log = Kept.observe (kept m.log) .ticked := by
    obtain ⟨new, log, tick⟩ := ticked.log
    rw [log, List.append_cons, kept_of_ofTick tick, kept_snoc]
  have nodes := retained.nodes_eq
  rw [ticked.structured.nodes_eq, log, ← filter_nodes inv, List.append_nil] at nodes
  have front := expiresInFront_of_filter nodes
  rw [inOrder, inv.structured.nodes_eq, front] at inner
  cases inner

/-- The first peer is measured, the second expires. -/
def innerExpiryRun : List Act :=
  [addAt 1 peerA, addAt 2 peerB, .tick, measured peerA 3] ++ List.replicate 19 .tick

/-- **A peer is lost, and its memory leaks.**  The first peer has a tick left; the list
is empty, and its entry is still allocated. -/
theorem inner_expiry_leaks : ¬ ∀ m, Reachable step Init unguarded m → Retained m := by
  intro always
  have found : (exec step unguarded booted innerExpiryRun).any
      (fun m => m.nodes == [] && m.allocated == [1]) = true := by decide +kernel
  obtain ⟨m, run, shown⟩ := exists_reachable_of_exec booted_init found
  rw [Bool.and_eq_true, beq_iff_eq, beq_iff_eq] at shown
  have retained := always m run
  have linked : 1 ∈ m.nodes := by
    rw [retained.nodes_eq]
    exact (retained.memory 1).mp (by simp [shown.2])
  rw [shown.1] at linked
  cases linked

end NcsExp.Peers
