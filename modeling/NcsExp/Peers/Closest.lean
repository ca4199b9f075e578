/-
# NcsExp.Peers.Closest -- the cached closest peer

`peer_thread` compares the cached entry with the one it has just written;
`timeout_handler` looks through the whole list.  `agrees` says that the cache ranks as
the choice among all measured peers would, in the runs in which

* a result for the cached peer itself leaves no other measured peer above it, and
  no MCPD result is a NaN;
* when a peer expires, none of those left that was never measured holds an MCPD result
  as high as the measured ones: the full search reads the results of new entries,
  which were never written.

`result_outranked` is a run in which the cached peer moves away and stays cached.
-/
import NcsExp.Peers.Structure
import Mathlib.Tactic.Tauto

namespace NcsExp.Peers

open NcsExp.Theory

set_option autoImplicit false

/-! ## The choice among the measured peers -/

def PeerEntry.measured (e : PeerEntry) : Bool := e.origin.isSome

/-- What `peer_find_closest` would return on the peers with a result. -/
def reference (m : Machine) : Option Ptr :=
  findClosest m.entry (m.nodes.filter fun n => (m.entry n).measured)

/-- Both NULL, or entries of one mode of which neither is above the other. -/
def SameRank (entry : Ptr → PeerEntry) : Option Ptr → Option Ptr → Prop
  | none, none => True
  | some a, some b =>
      (entry a).result.rangingMode = (entry b).result.rangingMode ∧
        ¬ (entry a).result.best < (entry b).result.best ∧
        ¬ (entry b).result.best < (entry a).result.best
  | _, _ => False

def Agrees (m : Machine) : Prop := SameRank m.entry m.closestPeer (reference m)

/-- No other measured peer is above `r`. -/
def notOutranked (m : Machine) (peer : Ptr) (r : DmResult) : Bool :=
  m.nodes.all fun n =>
    n == peer || !(m.entry n).measured || (m.entry n).result.rangingMode != .mcpd ||
      (r.rangingMode == .mcpd && !decide (r.best < (m.entry n).result.best))

/-- The result an entry was allocated with is below a measured one of `left`. -/
def harmless (m : Machine) (left : List Ptr) (n : Ptr) : Bool :=
  (m.entry n).result.rangingMode == .rtt ||
    (m.entry n).result.rangingMode == .mcpd && left.any fun e =>
      (m.entry e).measured && (m.entry e).result.rangingMode == .mcpd &&
        decide ((m.entry n).result.best < (m.entry e).result.best)

def keepsRank (m : Machine) : Act → Bool
  | .add .. => true
  | .result r =>
      match peerFind m r.btAddr with
      | none => true
      | some peer =>
          !(r.rangingMode == .mcpd && r.best.isNaN) &&
            (m.closestPeer != some peer || notOutranked m peer r)
  | .tick =>
      !m.nodes.any (expiring m) ||
        (survivors (expiring m) m.nodes).all fun n =>
          (m.entry n).measured || harmless m (survivors (expiring m) m.nodes) n

/-! ## The best of a list -/

/-- By RTT, or by MCPD with a number. -/
def Ranked (r : DmResult) : Prop :=
  r.rangingMode = .rtt ∨ r.rangingMode = .mcpd ∧ r.best.isNaN = false

/-- `c` is the best of the peers in `P`, NULL when none was measured by MCPD. -/
def IsBest (entry : Ptr → PeerEntry) (P : Ptr → Prop) : Option Ptr → Prop
  | none => ∀ n, P n → (entry n).result.rangingMode ≠ .mcpd
  | some c => P c ∧ (entry c).result.rangingMode = .mcpd ∧
      ∀ n, P n → (entry n).result.rangingMode = .mcpd →
        ¬ (entry c).result.best < (entry n).result.best

theorem IsBest.sameRank {entry : Ptr → PeerEntry} {P : Ptr → Prop} {a b : Option Ptr}
    (isA : IsBest entry P a) (isB : IsBest entry P b) : SameRank entry a b := by
  cases a with
  | none =>
      cases b with
      | none => trivial
      | some b => exact isA b isB.1 isB.2.1
  | some a =>
      cases b with
      | none => exact isB a isA.1 isA.2.1
      | some b =>
          refine ⟨isA.2.1.trans isB.2.1.symm, ?_, ?_⟩
          · exact isA.2.2 b isB.1 isB.2.1
          · exact isB.2.2 a isA.1 isA.2.1

theorem IsBest.congr {entry entry' : Ptr → PeerEntry} {P P' : Ptr → Prop} {c : Option Ptr}
    (isC : IsBest entry P c) (same : ∀ n, P' n ↔ P n)
    (result : ∀ n, P n → (entry' n).result = (entry n).result) : IsBest entry' P' c := by
  cases c with
  | none =>
      intro n member
      rw [result n ((same n).mp member)]
      exact isC n ((same n).mp member)
  | some c =>
      obtain ⟨inP, mode, best⟩ := isC
      refine ⟨(same c).mpr inP, by rw [result c inP]; exact mode, ?_⟩
      intro n member
      rw [result n ((same n).mp member), result c inP]
      exact best n ((same n).mp member)

/-- **One comparison.**  The better of the best so far and one more peer. -/
theorem IsBest.min {entry : Ptr → PeerEntry} {P : Ptr → Prop} {c : Option Ptr} {p : Ptr}
    (isC : IsBest entry P c) (ranked : ∀ n, P n → Ranked (entry n).result)
    (own : Ranked (entry p).result) :
    IsBest entry (fun n => P n ∨ n = p) (mcpdMinPeerResult entry c (some p)) := by
  cases c with
  | none =>
      rcases own with rtt | ⟨mcpd, _⟩
      · simp only [mcpdMinPeerResult, rtt, reduceCtorEq, if_false]
        rintro n (before | rfl)
        · exact isC n before
        · simp [rtt]
      · simp only [mcpdMinPeerResult, mcpd, if_true]
        refine ⟨Or.inr rfl, mcpd, ?_⟩
        rintro n (before | rfl) isMcpd
        · exact absurd isMcpd (isC n before)
        · exact FloatOrder.lt_irrefl _
  | some c =>
      obtain ⟨inP, mode, best⟩ := isC
      rcases own with rtt | ⟨mcpd, _⟩
      · simp only [mcpdMinPeerResult, mode, rtt, reduceCtorEq, false_and, and_self, if_false,
          if_true]
        refine ⟨Or.inl inP, mode, ?_⟩
        rintro n (before | rfl) isMcpd
        · exact best n before isMcpd
        · rw [rtt] at isMcpd
          cases isMcpd
      · simp only [mcpdMinPeerResult, mode, mcpd, reduceCtorEq, false_and, and_false, if_false]
        split
        · rename_i above
          refine ⟨Or.inl inP, mode, ?_⟩
          rintro n (before | rfl) isMcpd
          · exact best n before isMcpd
          · exact fun below => FloatOrder.lt_irrefl _ (FloatOrder.lt_trans above below)
        · rename_i notAbove
          refine ⟨Or.inr rfl, mcpd, ?_⟩
          rintro n (before | rfl) isMcpd
          · have number : (entry c).result.best.isNaN = false := by
              rcases ranked c inP with rtt | ⟨_, number⟩
              · rw [mode] at rtt
                cases rtt
              · exact number
            exact FloatOrder.not_lt_trans number (best n before isMcpd) notAbove
          · exact FloatOrder.lt_irrefl _

theorem isBest_fold {entry : Ptr → PeerEntry} (rest : List Ptr) {P : Ptr → Prop} {c : Option Ptr}
    (isC : IsBest entry P c) (ranked : ∀ n, P n → Ranked (entry n).result)
    (rest_ : ∀ n ∈ rest, Ranked (entry n).result) :
    IsBest entry (fun n => P n ∨ n ∈ rest)
      (rest.foldl (fun c item => mcpdMinPeerResult entry c (some item)) c) := by
  induction rest generalizing P c with
  | nil =>
      apply isC.congr
      · simp
      · exact fun n _ => rfl
  | cons p rest ih =>
      have one := isC.min ranked (rest_ p List.mem_cons_self)
      have all := ih one
        (by
          rintro n (before | rfl)
          · exact ranked n before
          · exact rest_ n List.mem_cons_self)
        (fun n member => rest_ n (List.mem_cons_of_mem _ member))
      apply all.congr
      · intro n
        simp only [List.mem_cons]
        exact ⟨fun h => by tauto, fun h => by tauto⟩
      · exact fun n _ => rfl

/-- The full search, on results that are ranked. -/
theorem findClosest_isBest {entry : Ptr → PeerEntry} {nodes : List Ptr}
    (ranked : ∀ n ∈ nodes, Ranked (entry n).result) :
    IsBest entry (· ∈ nodes) (findClosest entry nodes) := by
  cases nodes with
  | nil =>
      intro n member
      cases member
  | cons head rest =>
      have own := ranked head List.mem_cons_self
      have first : IsBest entry (· = head) (mcpdMinPeerResult entry (some head) (some head)) := by
        rcases own with rtt | ⟨mcpd, _⟩
        · simp only [mcpdMinPeerResult, rtt, and_self, if_true]
          rintro n rfl
          simp [rtt]
        · simp only [mcpdMinPeerResult, mcpd, reduceCtorEq, false_and, and_false, if_false,
            ite_self]
          refine ⟨rfl, mcpd, ?_⟩
          rintro n rfl _
          exact FloatOrder.lt_irrefl _
      have all := isBest_fold rest first
        (by
          rintro n rfl
          exact own)
        (fun n member => ranked n (List.mem_cons_of_mem _ member))
      apply all.congr
      · simp
      · exact fun n _ => rfl

/-! ## Every run -/

/-- A node of the list that was measured. -/
def Measured (m : Machine) (nodes : List Ptr) (n : Ptr) : Prop :=
  n ∈ nodes ∧ (m.entry n).measured = true

structure ClosestInv (m : Machine) (nodes : List Ptr) : Prop where
  structured : Structured m nodes
  ranked : ∀ n, Measured m nodes n → Ranked (m.entry n).result
  best : IsBest m.entry (Measured m nodes) m.closestPeer

theorem ClosestInv.toAgrees {m : Machine} {nodes : List Ptr} (inv : ClosestInv m nodes) :
    Agrees m := by
  apply inv.best.sameRank
  have full : IsBest m.entry (· ∈ nodes.filter fun n => (m.entry n).measured)
      (findClosest m.entry (nodes.filter fun n => (m.entry n).measured)) := by
    apply findClosest_isBest
    intro n member
    exact inv.ranked n (by simpa [Measured] using member)
  unfold reference
  rw [inv.structured.nodes_eq]
  apply full.congr
  · intro n
    simp [Measured]
  · exact fun n _ => rfl

theorem SamePeers.closestInv {m t : Machine} {nodes : List Ptr} (same : SamePeers m t)
    (inv : ClosestInv m nodes) : ClosestInv t nodes := by
  refine ⟨same.toStructured inv.structured, ?_, ?_⟩
  · unfold Measured
    rw [same.entry]
    exact inv.ranked
  · unfold Measured
    rw [same.entry, same.closestPeer]
    exact inv.best

theorem ranked_of_mode {r : DmResult} (mode : r.rangingMode = .rtt ∨ r.rangingMode = .mcpd)
    (number : (!(r.rangingMode == .mcpd && r.best.isNaN)) = true) : Ranked r := by
  rcases mode with rtt | mcpd
  · exact Or.inl rtt
  · exact Or.inr ⟨mcpd, by simpa [mcpd] using number⟩

theorem choose_own (m : Machine) (peer : Ptr) (r : DmResult) :
    ((m.choose peer r).entry peer).result = r ∧
      ((m.choose peer r).entry peer).measured = true := by
  show ((m.store peer r).entry peer).result = r ∧ ((m.store peer r).entry peer).measured = true
  rw [store_own]
  exact ⟨rfl, rfl⟩

theorem choose_other {m : Machine} {peer n : Ptr} (other : n ≠ peer) (r : DmResult) :
    (m.choose peer r).entry n = m.entry n :=
  if_neg other

/-- The measured peers are those of before and the one just measured. -/
theorem measured_choose {m : Machine} {nodes : List Ptr} {peer : Ptr} (member : peer ∈ nodes)
    (r : DmResult) (n : Ptr) :
    Measured (m.choose peer r) nodes n ↔ (Measured m nodes n ∧ n ≠ peer) ∨ n = peer := by
  unfold Measured
  by_cases same : n = peer
  · subst same
    simp [member, (choose_own m n r).2]
  · rw [choose_other same]
    simp [same]

/-- The cached peer is another one. -/
theorem best_of_other {m : Machine} {nodes : List Ptr} (inv : ClosestInv m nodes)
    {r : DmResult} {peer : Ptr} (member : peer ∈ nodes) (ranked : Ranked r)
    (other : m.closestPeer ≠ some peer) :
    IsBest (m.choose peer r).entry (Measured (m.choose peer r) nodes)
      (m.choose peer r).closestPeer := by
  have own := choose_own m peer r
  have before : IsBest (m.choose peer r).entry (fun n => Measured m nodes n ∧ n ≠ peer)
      m.closestPeer := by
    have best := inv.best
    cases cached : m.closestPeer with
    | none =>
        rw [cached] at best
        rintro n ⟨member, different⟩
        rw [choose_other different]
        exact best n member
    | some c =>
        rw [cached] at best other
        have different : c ≠ peer := fun same => other (by rw [same])
        obtain ⟨inP, mode, top⟩ := best
        refine ⟨⟨inP, different⟩, by rw [choose_other different]; exact mode, ?_⟩
        rintro n ⟨member, differs⟩
        rw [choose_other differs, choose_other different]
        exact top n member
  have chosen := before.min
    (by
      rintro n ⟨measured, different⟩
      rw [choose_other different]
      exact inv.ranked n measured)
    (by rwa [own.1])
  apply chosen.congr
  · exact measured_choose member r
  · exact fun n _ => rfl

/-- The cached peer itself was measured, and no other is above it. -/
theorem best_of_own {m : Machine} {nodes : List Ptr} (s : Structured m nodes)
    {r : DmResult} {peer : Ptr} (member : peer ∈ nodes) (ranked : Ranked r)
    (cached : m.closestPeer = some peer) (top : notOutranked m peer r = true) :
    IsBest (m.choose peer r).entry (Measured (m.choose peer r) nodes)
      (m.choose peer r).closestPeer := by
  obtain ⟨own, measured⟩ := choose_own m peer r
  unfold notOutranked at top
  rw [s.nodes_eq, List.all_eq_true] at top
  have others : ∀ n, Measured m nodes n → n ≠ peer → (m.entry n).result.rangingMode = .mcpd →
      r.rangingMode = .mcpd ∧ ¬ r.best < (m.entry n).result.best := by
    intro n inList other mcpd
    have meets := top n inList.1
    simpa [inList.2, other, mcpd] using meets
  have closest : (m.choose peer r).closestPeer =
      mcpdMinPeerResult (m.choose peer r).entry m.closestPeer (some peer) := rfl
  rw [closest, cached]
  rcases ranked with rtt | ⟨mcpd, _⟩
  · simp only [mcpdMinPeerResult, own, rtt, and_self, if_true]
    intro n isMeasured isMcpd
    rcases (measured_choose member r n).mp isMeasured with ⟨before, other⟩ | rfl
    · rw [choose_other other] at isMcpd
      have mode := (others n before other isMcpd).1
      rw [rtt] at mode
      cases mode
    · rw [own, rtt] at isMcpd
      cases isMcpd
  · simp only [mcpdMinPeerResult, own, mcpd, reduceCtorEq, and_self, false_and, and_false,
      if_false, ite_self]
    refine ⟨⟨member, measured⟩, by rw [own]; exact mcpd, ?_⟩
    intro n isMeasured isMcpd
    rw [own]
    rcases (measured_choose member r n).mp isMeasured with ⟨before, other⟩ | rfl
    · rw [choose_other other] at isMcpd ⊢
      exact (others n before other isMcpd).2
    · rw [own]
      exact FloatOrder.lt_irrefl _

theorem choose_closestInv {m : Machine} {nodes : List Ptr} (inv : ClosestInv m nodes)
    {r : DmResult} {peer : Ptr} (found : peerFind m r.btAddr = some peer) (ranked : Ranked r)
    (met : m.closestPeer ≠ some peer ∨ notOutranked m peer r = true) :
    ClosestInv (m.choose peer r) nodes := by
  have member := (peerFind_some inv.structured found).1
  refine ⟨choose_structured inv.structured found, ?_, ?_⟩
  · intro n isMeasured
    rcases (measured_choose member r n).mp isMeasured with ⟨before, other⟩ | rfl
    · rw [choose_other other]
      exact inv.ranked n before
    · rw [(choose_own m n r).1]
      exact ranked
  · by_cases cached : m.closestPeer = some peer
    · exact best_of_own inv.structured member ranked cached (met.resolve_left fun h => h cached)
    · exact best_of_other inv member ranked cached

theorem peerThread_closestInv {m : Machine} {nodes : List Ptr} (inv : ClosestInv m nodes)
    {r : DmResult} (mode : r.rangingMode = .rtt ∨ r.rangingMode = .mcpd)
    (met : keepsRank m (.result r) = true) : ClosestInv (peerThread m r) nodes := by
  unfold keepsRank at met
  cases found : peerFind m r.btAddr with
  | none =>
      rw [peerThread_unknown found]
      exact inv
  | some peer =>
      simp only [found, Bool.and_eq_true, Bool.or_eq_true, bne_iff_ne] at met
      obtain ⟨t, same, after⟩ := peerThread_found found
      have chosen := same.closestInv
        (choose_closestInv inv found (ranked_of_mode mode met.1) met.2)
      obtain ⟨s, ranked, best⟩ := chosen
      rw [after]
      exact ⟨⟨s.linked, s.live, s.heap, s.distinct, s.timeout, s.closest⟩, ranked, best⟩

/-- The full search, where the results that were never written are harmless. -/
theorem best_of_harmless {m : Machine} {left : List Ptr}
    (ranked : ∀ n ∈ left, (m.entry n).measured = true → Ranked (m.entry n).result)
    (rest : ∀ n ∈ left, (m.entry n).measured = true ∨ harmless m left n = true) :
    IsBest m.entry (fun n => n ∈ left ∧ (m.entry n).measured = true)
      (findClosest m.entry left) := by
  have low : ∀ n ∈ left, (m.entry n).measured = false → (m.entry n).result.rangingMode = .rtt ∨
      (m.entry n).result.rangingMode = .mcpd ∧ ∃ e ∈ left, (m.entry e).result.rangingMode = .mcpd ∧
        (m.entry n).result.best < (m.entry e).result.best := by
    intro n member unmeasured
    have isHarmless := (rest n member).resolve_left (by simp [unmeasured])
    unfold harmless at isHarmless
    simp only [Bool.or_eq_true, Bool.and_eq_true, beq_iff_eq, List.any_eq_true,
      decide_eq_true_eq] at isHarmless
    rcases isHarmless with rtt | ⟨mcpd, e, inLeft, ⟨_, mode⟩, below⟩
    · exact Or.inl rtt
    · exact Or.inr ⟨mcpd, e, inLeft, mode, below⟩
  have full : IsBest m.entry (· ∈ left) (findClosest m.entry left) := by
    apply findClosest_isBest
    intro n member
    cases isMeasured : (m.entry n).measured with
    | true => exact ranked n member isMeasured
    | false =>
        rcases low n member isMeasured with rtt | ⟨mcpd, e, _, _, below⟩
        · exact Or.inl rtt
        · exact Or.inr ⟨mcpd, FloatOrder.isNaN_of_lt below⟩
  cases found : findClosest m.entry left with
  | none =>
      rw [found] at full
      exact fun n member => full n member.1
  | some c =>
      rw [found] at full
      obtain ⟨inLeft, mode, top⟩ := full
      refine ⟨⟨inLeft, ?_⟩, mode, fun n member => top n member.1⟩
      cases isMeasured : (m.entry c).measured with
      | true => rfl
      | false =>
          rcases low c inLeft isMeasured with rtt | ⟨_, e, member, isMcpd, below⟩
          · rw [mode] at rtt
            cases rtt
          · exact absurd below (top e member isMcpd)

theorem tick_closestInv {m : Machine} {nodes : List Ptr} (inv : ClosestInv m nodes)
    (met : keepsRank m .tick = true) : ∃ left, ClosestInv (timeoutHandler m) left := by
  have ticked := timeoutHandler_ticked inv.structured
  unfold keepsRank at met
  rw [inv.structured.nodes_eq, Bool.or_eq_true, Bool.not_eq_true', List.all_eq_true] at met
  have inNodes : ∀ n ∈ survivors (expiring m) nodes, n ∈ nodes := by
    intro n member
    exact (List.mem_filter.mp ((survivors_sublist (expiring m) nodes).subset member)).1
  have measured : ∀ n, Measured (timeoutHandler m) (survivors (expiring m) nodes) n ↔
      n ∈ survivors (expiring m) nodes ∧ (m.entry n).measured = true := by
    intro n
    unfold Measured
    refine and_congr_right fun member => ?_
    rw [ticked.aged n member]
    simp [PeerEntry.measured, PeerEntry.aged]
  have result : ∀ n ∈ survivors (expiring m) nodes,
      ((timeoutHandler m).entry n).result = (m.entry n).result := by
    intro n member
    rw [ticked.aged n member, PeerEntry.aged_result]
  have ranked : ∀ n ∈ survivors (expiring m) nodes, (m.entry n).measured = true →
      Ranked (m.entry n).result :=
    fun n member isMeasured => inv.ranked n ⟨inNodes n member, isMeasured⟩
  have structured := ticked.structured
  have closest := ticked.closest
  rw [List.append_nil] at structured closest
  refine ⟨_, structured, ?_, ?_⟩
  · intro n isMeasured
    obtain ⟨member, isMeasured⟩ := (measured n).mp isMeasured
    rw [result n member]
    exact ranked n member isMeasured
  · rw [closest]
    cases any : nodes.any (expiring m) with
    | true =>
        rw [if_pos rfl]
        have best := best_of_harmless ranked fun n member => by
          simpa using (met.resolve_left (by simp [any])) n member
        exact best.congr measured fun n member => result n member.1
    | false =>
        rw [if_neg Bool.false_ne_true]
        rw [List.any_eq_false] at any
        have all : survivors (expiring m) nodes = nodes :=
          survivors_of_none fun n member => by simpa using any n member
        rw [all] at measured result ⊢
        exact inv.best.congr measured fun n member => result n member.1

theorem add_closestInv {m t : Machine} {nodes : List Ptr} (inv : ClosestInv m nodes)
    {peer : BtAddr} {alloc : Option (Ptr × DmResult)}
    (taken : peerSupportedAdd m peer alloc = some t) : ∃ nodes, ClosestInv t nodes := by
  rcases add_cases taken with rfl | ⟨node, left, new, free, rfl⟩
  · exact ⟨nodes, inv⟩
  have others : ∀ n ∈ nodes, (m.newEntry node peer left).entry n = m.entry n := by
    intro n member
    refine if_neg ?_
    rintro rfl
    exact free (inv.structured.live n member)
  have own : (m.newEntry node peer left).entry node = ⟨peer, left, timeoutInitMs, none⟩ :=
    if_pos rfl
  have measured : ∀ n, (n ∈ nodes ++ [node] ∧
      ((m.newEntry node peer left).entry n).measured = true) ↔ Measured m nodes n := by
    intro n
    rw [List.mem_append, List.mem_singleton]
    constructor
    · rintro ⟨before | rfl, isMeasured⟩
      · rw [others n before] at isMeasured
        exact ⟨before, isMeasured⟩
      · rw [own] at isMeasured
        cases isMeasured
    · rintro ⟨before, isMeasured⟩
      refine ⟨Or.inl before, ?_⟩
      rw [others n before]
      exact isMeasured
  refine ⟨nodes ++ [node], newEntry_structured inv.structured new free, ?_, ?_⟩
  · intro n isMeasured
    have before := (measured n).mp isMeasured
    show Ranked ((m.newEntry node peer left).entry n).result
    rw [others n before.1]
    exact inv.ranked n before
  · apply inv.best.congr
    · exact measured
    · intro n before
      exact congrArg _ (others n before.1)

theorem step_closestInv {m t : Machine} {a : Act} (inv : ∃ nodes, ClosestInv m nodes)
    (met : keepsRank m a = true) (taken : step m a = some t) : ∃ nodes, ClosestInv t nodes := by
  obtain ⟨nodes, inv⟩ := inv
  cases a with
  | add peer alloc => exact add_closestInv inv taken
  | result r =>
      simp only [step] at taken
      split at taken
      · rename_i mode
        cases taken
        exact ⟨nodes, peerThread_closestInv inv mode met⟩
      · cases taken
  | tick =>
      cases taken
      exact tick_closestInv inv met

theorem init_closestInv {m : Machine} (init : Init m) : ClosestInv m [] := by
  refine ⟨init_structured init, ?_, ?_⟩
  · rintro n ⟨member, _⟩
    cases member
  · rw [init.closestPeer]
    rintro n ⟨member, _⟩
    cases member

/-- **The cache.**  In every run whose results and expiries meet the condition,
`closest_peer` ranks as the choice among all measured peers. -/
theorem agrees {m : Machine} (run : Reachable step Init keepsRank m) : Agrees m := by
  have inv : ∃ nodes, ClosestInv m nodes := by
    apply run.invariant
    · intro s init
      exact ⟨[], init_closestInv init⟩
    · intro s a t inv met taken
      exact step_closestInv inv met taken
  obtain ⟨nodes, inv⟩ := inv
  exact inv.toAgrees

/-- The cached peer comes nearer to the others, without being passed. -/
def keepsRankRun : List Act :=
  [addAt 1 peerA, addAt 2 peerB, measured peerA 3, measured peerB 5, measured peerB 4, .tick,
    measured peerA 2]

theorem agrees_keepsRankRun :
    ∃ m : Machine, Agrees m ∧ m.closestPeer = some 2 ∧ reference m = some 2 := by
  have found : (exec step keepsRank booted keepsRankRun).any
      (fun m => m.closestPeer == some 2 && reference m == some 2) = true := by decide +kernel
  obtain ⟨m, run, shown⟩ := exists_reachable_of_exec booted_init found
  rw [Bool.and_eq_true, beq_iff_eq, beq_iff_eq] at shown
  exact ⟨m, agrees run, shown⟩

/-- The cached peer is passed by its own new result. -/
def outrankedRun : List Act :=
  [addAt 1 peerA, addAt 2 peerB, measured peerA 5, measured peerB 3, measured peerA 1]

/-- **The cache is not revised.**  The second peer ranks above the cached one. -/
theorem result_outranked : ¬ ∀ m, Reachable step Init unguarded m → Agrees m := by
  intro always
  have found : (exec step unguarded booted outrankedRun).any (fun m =>
      m.closestPeer == some 1 && reference m == some 2 &&
        decide ((m.entry 1).result.best < (m.entry 2).result.best)) = true := by
    decide +kernel
  obtain ⟨m, run, shown⟩ := exists_reachable_of_exec booted_init found
  simp only [Bool.and_eq_true, beq_iff_eq, decide_eq_true_eq] at shown
  obtain ⟨⟨cached, chosen⟩, below⟩ := shown
  have same := always m run
  unfold Agrees at same
  rw [cached, chosen] at same
  exact same.2.1 below

end NcsExp.Peers
