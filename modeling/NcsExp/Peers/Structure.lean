/-
# NcsExp.Peers.Structure -- the list of peers is well formed

* `timeoutLoop_rule` is the rule of the tick: what each iteration keeps, of the nodes
  already met that are still linked and of those not met yet, holds after the loop.
* `timeoutHandler_ticked` says all that a tick does to the peers.
* `structured` holds in every state of every run: the addresses in the list are
  distinct, the times left are steps between the first and the last, and
  `closest_peer` points to a node of the list.  Each iteration restores it, although
  it frees a node and others may expire after it.
-/
import NcsExp.Peers.Model
import Mathlib.Data.List.Perm.Subperm
import Mathlib.Data.List.Induction

namespace NcsExp.Peers

open NcsExp.Theory

set_option autoImplicit false

/-- The nodes of `peer_list`, in its order, and what holds of them. -/
structure Structured (m : Machine) (nodes : List Ptr) : Prop where
  /-- Head, tail and successors are those of this list. -/
  linked : m.peerList.Linked nodes
  /-- No node was freed. -/
  live : ∀ node ∈ nodes, node ∈ m.allocated
  heap : m.allocated.Nodup
  distinct : (nodes.map fun node => (m.entry node).btAddr).Nodup
  timeout : ∀ node ∈ nodes, 500 ∣ (m.entry node).timeoutMs ∧
    500 ≤ (m.entry node).timeoutMs ∧ (m.entry node).timeoutMs ≤ 10000
  closest : ∀ node, m.closestPeer = some node → node ∈ nodes

/-! ## Reading the list -/

theorem length_le_of_live {m : Machine} {nodes : List Ptr} (linked : m.peerList.Linked nodes)
    (live : ∀ node ∈ nodes, node ∈ m.allocated) : nodes.length ≤ m.allocated.length :=
  (List.subperm_of_subset linked.once live).length_le

/-- A loop over the list meets its nodes. -/
theorem nodes_eq {m : Machine} {nodes : List Ptr} (linked : m.peerList.Linked nodes)
    (live : ∀ node ∈ nodes, node ∈ m.allocated) : m.nodes = nodes :=
  linked.walk (length_le_of_live linked live)

theorem Structured.nodes_eq {m : Machine} {nodes : List Ptr} (s : Structured m nodes) :
    m.nodes = nodes :=
  Peers.nodes_eq s.linked s.live

theorem SamePeers.toStructured {m t : Machine} {nodes : List Ptr} (same : SamePeers m t)
    (s : Structured m nodes) : Structured t nodes := by
  obtain ⟨peerList, allocated, entry, closestPeer, _⟩ := same
  constructor
  · rw [peerList]
    exact s.linked
  · rw [allocated]
    exact s.live
  · rw [allocated]
    exact s.heap
  · rw [entry]
    exact s.distinct
  · rw [entry]
    exact s.timeout
  · rw [closestPeer]
    exact s.closest

theorem peerFind_some {m : Machine} {nodes : List Ptr} (s : Structured m nodes) {peer : BtAddr}
    {node : Ptr} (found : peerFind m peer = some node) :
    node ∈ nodes ∧ (m.entry node).btAddr = peer := by
  unfold peerFind at found
  rw [s.nodes_eq] at found
  have address := List.find?_some found
  exact ⟨List.mem_of_find?_eq_some found, by simpa using address⟩

/-! ## The closest peer is one of the two, or of the list -/

theorem mcpdMin_mem {entry : Ptr → PeerEntry} {a b : Option Ptr} {node : Ptr}
    (chosen : mcpdMinPeerResult entry a b = some node) : a = some node ∨ b = some node := by
  cases a with
  | none =>
      cases b with
      | none => cases chosen
      | some b =>
          simp only [mcpdMinPeerResult, Option.ite_none_right_eq_some] at chosen
          exact Or.inr chosen.2
  | some a =>
      cases b with
      | none =>
          simp only [mcpdMinPeerResult, Option.ite_none_right_eq_some] at chosen
          exact Or.inl chosen.2
      | some b =>
          simp only [mcpdMinPeerResult] at chosen
          split at chosen
          · cases chosen
          split at chosen
          · exact Or.inr chosen
          split at chosen
          · exact Or.inl chosen
          split at chosen
          · exact Or.inl chosen
          · exact Or.inr chosen

theorem mcpdMin_fold_mem (entry : Ptr → PeerEntry) (nodes : List Ptr) (c : Option Ptr)
    {node : Ptr}
    (chosen : nodes.foldl (fun c item => mcpdMinPeerResult entry c (some item)) c = some node) :
    c = some node ∨ node ∈ nodes := by
  induction nodes generalizing c with
  | nil => exact Or.inl chosen
  | cons item rest ih =>
      rcases ih _ chosen with here | later
      · rcases mcpdMin_mem here with first | second
        · exact Or.inl first
        · exact Or.inr (by simp [Option.some.inj second])
      · exact Or.inr (List.mem_cons_of_mem _ later)

theorem findClosest_mem {entry : Ptr → PeerEntry} {nodes : List Ptr} {node : Ptr}
    (found : findClosest entry nodes = some node) : node ∈ nodes := by
  cases nodes with
  | nil => cases found
  | cons head rest =>
      rcases mcpdMin_fold_mem entry (head :: rest) (some head) found with first | later
      · exact Option.some.inj first ▸ List.mem_cons_self
      · exact later

/-! ## One iteration of the tick -/

/-- A node with time left. -/
def Machine.age (m : Machine) (node : Ptr) : Machine :=
  m.setEntry node { m.entry node with timeoutMs := (m.entry node).timeoutMs - timeoutStepMs }

def Machine.unlink (m : Machine) (node : Ptr) : Machine :=
  Machine.note
    { m with peerList := m.peerList.remove none node, allocated := m.allocated.erase node }
    (.freed node)

/-- A node whose time is up. -/
def Machine.expire (m : Machine) (node : Ptr) : Machine :=
  { m.unlink node with closestPeer := peerFindClosest (m.unlink node) }

theorem timeoutBody_kept {m : Machine} {node : Ptr}
    (later : (m.entry node).timeoutMs > timeoutStepMs) : timeoutBody m node = m.age node :=
  if_pos later

theorem timeoutBody_expired {m : Machine} {node : Ptr}
    (now : ¬ (m.entry node).timeoutMs > timeoutStepMs) :
    timeoutBody m node = ledNotification (m.expire node) (m.expire node).closestPeer :=
  if_neg now

/-- **The rule of the tick.**  `P met rest` is about the nodes that were met and are
linked, and about those still to be met. -/
theorem timeoutLoop_rule {P : List Ptr → List Ptr → Machine → Prop}
    (linked : ∀ {met rest : List Ptr} {m : Machine}, P met rest m →
      m.peerList.Linked (met ++ rest))
    (kept : ∀ {met rest : List Ptr} {node : Ptr} {m : Machine}, P met (node :: rest) m →
      (m.entry node).timeoutMs > timeoutStepMs → P (met ++ [node]) rest (m.age node))
    (expired : ∀ {met rest : List Ptr} {node : Ptr} {m : Machine}, P met (node :: rest) m →
      ¬ (m.entry node).timeoutMs > timeoutStepMs →
        P [] rest (ledNotification (m.expire node) (m.expire node).closestPeer))
    {fuel : Nat} {met rest : List Ptr} {m : Machine} (start : P met rest m)
    (enough : rest.length ≤ fuel) : ∃ nodes, P nodes [] (timeoutLoop fuel rest.head? m) := by
  induction rest generalizing fuel met m with
  | nil =>
      refine ⟨met, ?_⟩
      cases fuel <;> exact start
  | cons node rest ih =>
      cases fuel with
      | zero => simp at enough
      | succ fuel =>
          have bound : rest.length ≤ fuel := by simpa using enough
          rw [List.head?_cons, timeoutLoop, (linked start).next_eq]
          by_cases later : (m.entry node).timeoutMs > timeoutStepMs
          · rw [timeoutBody_kept later]
            exact ih (kept start later) bound
          · rw [timeoutBody_expired later]
            exact ih (expired start later) bound

/-! ## What an iteration keeps -/

theorem setEntry_entry (m : Machine) (node n : Ptr) (e : PeerEntry) :
    (m.setEntry node e).entry n = if n = node then e else m.entry n := rfl

/-- An entry that keeps its address. -/
theorem map_setEntry (m : Machine) (node : Ptr) (e : PeerEntry) (nodes : List Ptr)
    (same : e.btAddr = (m.entry node).btAddr) :
    (nodes.map fun n => ((m.setEntry node e).entry n).btAddr) =
      nodes.map fun n => (m.entry n).btAddr := by
  apply List.map_congr_left
  intro n _
  rw [setEntry_entry]
  split
  · rename_i isNode
    rw [isNode, same]
  · rfl

theorem fullTime : 500 ∣ timeoutInitMs ∧ 500 ≤ timeoutInitMs ∧ timeoutInitMs ≤ 10000 := by
  decide

theorem setEntry_structured {m : Machine} {nodes : List Ptr} (s : Structured m nodes) {node : Ptr}
    {e : PeerEntry} (address : e.btAddr = (m.entry node).btAddr)
    (time : 500 ∣ e.timeoutMs ∧ 500 ≤ e.timeoutMs ∧ e.timeoutMs ≤ 10000) :
    Structured (m.setEntry node e) nodes where
  linked := s.linked
  live := s.live
  heap := s.heap
  distinct := by
    rw [map_setEntry m node e nodes address]
    exact s.distinct
  timeout := by
    intro n member
    rw [setEntry_entry]
    split
    · exact time
    · exact s.timeout n member
  closest := s.closest

theorem age_structured {m : Machine} {nodes : List Ptr} (s : Structured m nodes) {node : Ptr}
    (member : node ∈ nodes) (later : (m.entry node).timeoutMs > timeoutStepMs) :
    Structured (m.age node) nodes := by
  obtain ⟨⟨k, steps⟩, _, most⟩ := s.timeout node member
  apply setEntry_structured s
  · rfl
  · unfold timeoutStepMs at *
    refine ⟨⟨k - 1, ?_⟩, ?_, ?_⟩
    · show (m.entry node).timeoutMs - 500 = 500 * (k - 1)
      omega
    · show 500 ≤ (m.entry node).timeoutMs - 500
      omega
    · show (m.entry node).timeoutMs - 500 ≤ 10000
      omega

theorem unlink_live {m : Machine} {met rest : List Ptr} {node : Ptr}
    (linked : m.peerList.Linked (met ++ node :: rest))
    (live : ∀ n ∈ met ++ node :: rest, n ∈ m.allocated) :
    ∀ n ∈ rest, n ∈ (m.unlink node).allocated := by
  intro n member
  have once := (List.nodup_append.mp linked.once).2.1
  have other : n ≠ node := by
    rintro rfl
    exact (List.nodup_cons.mp once).1 member
  exact (List.mem_erase_of_ne other).mpr (live n (by simp [member]))

/-- After an expiry the cache is the closest of the nodes that are left. -/
theorem expire_closest {m : Machine} {met rest : List Ptr} {node : Ptr}
    (linked : m.peerList.Linked (met ++ node :: rest))
    (live : ∀ n ∈ met ++ node :: rest, n ∈ m.allocated) :
    (m.expire node).closestPeer = findClosest m.entry rest := by
  have left : (m.unlink node).nodes = rest :=
    Peers.nodes_eq linked.remove_head (unlink_live linked live)
  show peerFindClosest (m.unlink node) = _
  unfold peerFindClosest
  rw [left]
  rfl

theorem expire_structured {m : Machine} {met rest : List Ptr} {node : Ptr}
    (s : Structured m (met ++ node :: rest)) : Structured (m.expire node) rest where
  linked := s.linked.remove_head
  live := unlink_live s.linked s.live
  heap := s.heap.erase node
  distinct := by
    have all := s.distinct
    rw [List.map_append, List.map_cons, List.nodup_append] at all
    exact (List.nodup_cons.mp all.2.1).2
  timeout := by
    intro n member
    exact s.timeout n (by simp [member])
  closest := by
    intro n found
    rw [expire_closest s.linked s.live] at found
    exact findClosest_mem found

/-! ## A whole tick -/

/-- The time of a node is up at the next tick. -/
def expiring (m : Machine) (node : Ptr) : Bool := !decide ((m.entry node).timeoutMs > timeoutStepMs)

/-- The nodes after the last one that expires: a removal drops the nodes in front. -/
def survivors (up : Ptr → Bool) (nodes : List Ptr) : List Ptr :=
  nodes.foldl (fun met node => if up node then [] else met ++ [node]) []

theorem survivors_snoc (up : Ptr → Bool) (nodes : List Ptr) (node : Ptr) :
    survivors up (nodes ++ [node]) = if up node then [] else survivors up nodes ++ [node] := by
  simp [survivors]

theorem survivors_of_none {up : Ptr → Bool} {nodes : List Ptr} (none_ : ∀ n ∈ nodes, up n = false) :
    survivors up nodes = nodes := by
  induction nodes using List.reverseRecOn with
  | nil => rfl
  | append_singleton front node ih =>
      rw [survivors_snoc, none_ node (by simp), ih fun n member => none_ n (by simp [member])]
      rfl

theorem survivors_sublist (up : Ptr → Bool) (nodes : List Ptr) :
    (survivors up nodes).Sublist (nodes.filter fun n => !up n) := by
  induction nodes using List.reverseRecOn with
  | nil => exact List.Sublist.slnil
  | append_singleton front node ih =>
      rw [survivors_snoc, List.filter_append]
      by_cases isUp : up node = true
      · rw [if_pos isUp]
        exact List.nil_sublist _
      · rw [if_neg isUp, List.filter_cons_of_pos (by simpa using isUp), List.filter_nil]
        exact ih.append_right _

def PeerEntry.aged (e : PeerEntry) : PeerEntry :=
  { e with timeoutMs := e.timeoutMs - timeoutStepMs }

@[simp] theorem PeerEntry.aged_btAddr (e : PeerEntry) : e.aged.btAddr = e.btAddr := by
  simp only [PeerEntry.aged]

@[simp] theorem PeerEntry.aged_timeoutMs (e : PeerEntry) :
    e.aged.timeoutMs = e.timeoutMs - 500 := by
  simp only [PeerEntry.aged, timeoutStepMs]

@[simp] theorem PeerEntry.aged_result (e : PeerEntry) : e.aged.result = e.result := by
  simp only [PeerEntry.aged]

/-- Written by a tick. -/
def Entry.ofTick (e : Entry) : Bool :=
  match e with
  | .freed _ => true
  | e => e.ofFilter

theorem findClosest_congr {entry entry' : Ptr → PeerEntry} {nodes : List Ptr}
    (same : ∀ n ∈ nodes, (entry' n).result = (entry n).result) :
    findClosest entry' nodes = findClosest entry nodes := by
  have each : ∀ (rest : List Ptr) (c : Option Ptr), (∀ n ∈ rest, n ∈ nodes) →
      (∀ n, c = some n → n ∈ nodes) →
      rest.foldl (fun c item => mcpdMinPeerResult entry' c (some item)) c =
        rest.foldl (fun c item => mcpdMinPeerResult entry c (some item)) c := by
    intro rest
    induction rest with
    | nil => exact fun c _ _ => rfl
    | cons item rest ih =>
        intro c inList inList'
        have item_ := same item (inList item List.mem_cons_self)
        have equal : mcpdMinPeerResult entry' c (some item) =
            mcpdMinPeerResult entry c (some item) := by
          cases c with
          | none => simp only [mcpdMinPeerResult, item_]
          | some n => simp only [mcpdMinPeerResult, item_, same n (inList' n rfl)]
        rw [List.foldl_cons, List.foldl_cons, equal]
        refine ih _ (fun n member => inList n (List.mem_cons_of_mem _ member)) fun n chosen => ?_
        rcases mcpdMin_mem chosen with before | now
        · exact inList' n before
        · cases now
          exact inList item List.mem_cons_self
  cases nodes with
  | nil => rfl
  | cons head rest =>
      refine each (head :: rest) (some head) (fun n member => member) fun n isHead => ?_
      cases isHead
      exact List.mem_cons_self

/-- The loop of a tick that began in `m`: `done` was met, and `met` of it is linked. -/
structure Ticking (m : Machine) (done met rest : List Ptr) (t : Machine) : Prop where
  structured : Structured t (met ++ rest)
  fresh : ∀ n ∈ rest, t.entry n = m.entry n
  aged : ∀ n ∈ met, t.entry n = (m.entry n).aged
  left : met = survivors (expiring m) done
  closest : t.closestPeer =
    if done.any (expiring m) then findClosest m.entry (met ++ rest) else m.closestPeer
  heap : ∀ n, n ∈ t.allocated ↔ n ∈ m.allocated ∧ ¬ (n ∈ done ∧ expiring m n = true)
  log : ∃ new, t.log = m.log ++ .ticked :: new ∧ ∀ e ∈ new, e.ofTick = true

theorem ofTick_of_ofFilter {e : Entry} (filter : e.ofFilter = true) : e.ofTick = true := by
  cases e with
  | freed => rfl
  | _ => exact filter

theorem Ticking.kept {m t : Machine} {done met rest : List Ptr} {node : Ptr}
    (ticking : Ticking m done met (node :: rest) t)
    (later : (t.entry node).timeoutMs > timeoutStepMs) :
    Ticking m (done ++ [node]) (met ++ [node]) rest (t.age node) := by
  have own := ticking.fresh node List.mem_cons_self
  have notUp : expiring m node = false := by
    rw [expiring, ← own]
    simpa using later
  have once := ticking.structured.linked.once
  have nodeOnce := List.nodup_cons.mp (List.nodup_append.mp once).2.1
  refine ⟨?_, ?_, ?_, ?_, ?_, ?_, ticking.log⟩
  · have aged := age_structured ticking.structured (by simp) later
    rwa [List.append_cons] at aged
  · intro n member
    have other : n ≠ node := by
      rintro rfl
      exact nodeOnce.1 member
    show (if n = node then _ else t.entry n) = _
    rw [if_neg other, ticking.fresh n (List.mem_cons_of_mem _ member)]
  · intro n member
    show (if n = node then _ else t.entry n) = _
    rcases List.mem_append.mp member with before | now
    · have other : n ≠ node := by
        rintro rfl
        exact (List.nodup_append.mp once).2.2 n before n List.mem_cons_self rfl
      rw [if_neg other, ticking.aged n before]
    · rw [List.mem_singleton.mp now, if_pos rfl, own]
      rfl
  · rw [survivors_snoc, notUp, ticking.left]
    rfl
  · have same : (done ++ [node]).any (expiring m) = done.any (expiring m) := by simp [notUp]
    rw [List.append_assoc, same]
    exact ticking.closest
  · intro n
    refine (ticking.heap n).trans ?_
    by_cases same : n = node
    · subst same
      simp [notUp]
    · simp [same]

theorem Ticking.expired {m t : Machine} {done met rest : List Ptr} {node : Ptr}
    (ticking : Ticking m done met (node :: rest) t)
    (now : ¬ (t.entry node).timeoutMs > timeoutStepMs) :
    Ticking m (done ++ [node]) [] rest
      (ledNotification (t.expire node) (t.expire node).closestPeer) := by
  have own := ticking.fresh node List.mem_cons_self
  have up : expiring m node = true := by
    rw [expiring, ← own]
    simpa using now
  have led := ledNotification_same (t.expire node) (t.expire node).closestPeer
  refine ⟨led.toStructured (expire_structured ticking.structured), ?_, ?_, ?_, ?_, ?_, ?_⟩
  · intro n member
    rw [led.entry]
    exact ticking.fresh n (List.mem_cons_of_mem _ member)
  · intro n member
    cases member
  · rw [survivors_snoc, up]
    rfl
  · have any : (done ++ [node]).any (expiring m) = true := by simp [up]
    rw [led.closestPeer, any, if_pos rfl,
      expire_closest ticking.structured.linked ticking.structured.live]
    exact findClosest_congr fun n member =>
      congrArg _ (ticking.fresh n (List.mem_cons_of_mem _ member))
  · intro n
    rw [led.allocated]
    show n ∈ t.allocated.erase node ↔ _
    rw [ticking.structured.heap.mem_erase_iff, ticking.heap n]
    by_cases same : n = node
    · subst same
      simp [up]
    · simp [same]
  · obtain ⟨new, log, tick⟩ := ticking.log
    obtain ⟨new', log', filter⟩ := led.log
    refine ⟨new ++ .freed node :: new', ?_, ?_⟩
    · rw [log']
      show (t.log ++ [Entry.freed node]) ++ new' = _
      simp [log]
    · intro e member
      rcases List.mem_append.mp member with before | now
      · exact tick e before
      · rcases List.mem_cons.mp now with rfl | led
        · rfl
        · exact ofTick_of_ofFilter (filter e led)

theorem Structured.ticking {m : Machine} {nodes : List Ptr} (s : Structured m nodes) :
    Ticking m [] [] nodes (m.note .ticked) := by
  refine ⟨⟨s.linked, s.live, s.heap, s.distinct, s.timeout, s.closest⟩, ?_, ?_, rfl, rfl, ?_, ?_⟩
  · exact fun n _ => rfl
  · simp
  · simp [Machine.note]
  · exact ⟨[], rfl, by simp⟩

/-- **A tick.** -/
theorem timeoutHandler_ticked {m : Machine} {nodes : List Ptr} (s : Structured m nodes) :
    Ticking m nodes (survivors (expiring m) nodes) [] (timeoutHandler m) := by
  have after := timeoutLoop_rule
    (P := fun met rest t => ∃ done, nodes = done ++ rest ∧ Ticking m done met rest t)
    (fun ⟨_, _, ticking⟩ => ticking.structured.linked)
    (fun {met rest node t} ⟨done, split, ticking⟩ later =>
      ⟨done ++ [node], by simp [split], ticking.kept later⟩)
    (fun {met rest node t} ⟨done, split, ticking⟩ now =>
      ⟨done ++ [node], by simp [split], ticking.expired now⟩)
    ⟨[], rfl, s.ticking⟩ (length_le_of_live s.linked s.live)
  obtain ⟨left, done, split, ticking⟩ := after
  rw [List.append_nil] at split
  subst split
  have same := ticking.left
  subst same
  unfold timeoutHandler
  rwa [s.linked.chain.first_eq]

/-! ## Every run -/

theorem store_own (m : Machine) (peer : Ptr) (result : DmResult) :
    (m.store peer result).entry peer = { m.entry peer with
      result := result, timeoutMs := timeoutInitMs, origin := some (results m.log).length } :=
  if_pos rfl

/-- `peer_thread` up to its `led_notification`. -/
def Machine.measure (m : Machine) (peer : Ptr) (result : DmResult) : Machine :=
  (printResult (m.store peer result) peer).recache peer

theorem peerThread_eq {m : Machine} {result : DmResult} {peer : Ptr}
    (found : peerFind m result.btAddr = some peer) :
    peerThread m result =
      (ledNotification (m.measure peer result) (m.measure peer result).closestPeer).note
        (.notified peer) := by
  unfold peerThread
  rw [found]
  rfl

/-- The choice of `peer_thread` after it has stored a result. -/
def Machine.choose (m : Machine) (peer : Ptr) (result : DmResult) : Machine :=
  (m.store peer result).recache peer

theorem measure_same (m : Machine) (peer : Ptr) (result : DmResult) :
    SamePeers (m.choose peer result) (m.measure peer result) :=
  (printResult_same (m.store peer result) peer).recache peer

/-- What `peer_thread` does to the peers. -/
theorem peerThread_found {m : Machine} {result : DmResult} {peer : Ptr}
    (found : peerFind m result.btAddr = some peer) :
    ∃ t, SamePeers (m.choose peer result) t ∧ peerThread m result = t.note (.notified peer) :=
  ⟨_, (measure_same m peer result).trans (ledNotification_same ..), peerThread_eq found⟩

theorem peerThread_unknown {m : Machine} {result : DmResult}
    (unknown : peerFind m result.btAddr = none) : peerThread m result = m := by
  unfold peerThread
  rw [unknown]

theorem choose_structured {m : Machine} {nodes : List Ptr} (s : Structured m nodes)
    {result : DmResult} {peer : Ptr} (found : peerFind m result.btAddr = some peer) :
    Structured (m.choose peer result) nodes := by
  have noted : Structured (m.note (.processed result)) nodes :=
    ⟨s.linked, s.live, s.heap, s.distinct, s.timeout, s.closest⟩
  have stored : Structured (m.store peer result) nodes := by
    apply setEntry_structured noted
    · rfl
    · exact fullTime
  refine { stored with closest := ?_ }
  intro node chosen
  rcases mcpdMin_mem chosen with before | now
  · exact s.closest node before
  · cases now
    exact (peerFind_some s found).1

theorem peerThread_structured {m : Machine} {nodes : List Ptr} (s : Structured m nodes)
    (result : DmResult) : Structured (peerThread m result) nodes := by
  cases found : peerFind m result.btAddr with
  | none =>
      rw [peerThread_unknown found]
      exact s
  | some peer =>
      obtain ⟨t, same, after⟩ := peerThread_found found
      have chosen := same.toStructured (choose_structured s found)
      rw [after]
      exact ⟨chosen.linked, chosen.live, chosen.heap, chosen.distinct, chosen.timeout,
        chosen.closest⟩

theorem add_cases {m t : Machine} {peer : BtAddr} {alloc : Option (Ptr × DmResult)}
    (taken : peerSupportedAdd m peer alloc = some t) :
    t = m ∨ ∃ node left, peerSupportedTest m peer = false ∧ node ∉ m.allocated ∧
      t = { m.newEntry node peer left with peerList := m.peerList.append node } := by
  unfold peerSupportedAdd at taken
  split at taken
  · cases taken
    exact Or.inl rfl
  · rename_i unsupported
    split at taken
    · cases taken
      exact Or.inl rfl
    · rename_i node left
      split at taken
      · rename_i fits
        cases taken
        exact Or.inr ⟨node, left, by simpa using unsupported, fits.1, rfl⟩
      · cases taken

theorem newEntry_structured {m : Machine} {nodes : List Ptr} (s : Structured m nodes)
    {peer : BtAddr} {node : Ptr} {left : DmResult} (new : peerSupportedTest m peer = false)
    (free : node ∉ m.allocated) :
    Structured { m.newEntry node peer left with peerList := m.peerList.append node }
      (nodes ++ [node]) := by
  have notLinked : node ∉ nodes := fun member => free (s.live node member)
  have others : ∀ n ∈ nodes, (m.newEntry node peer left).entry n = m.entry n := by
    intro n member
    refine if_neg ?_
    rintro rfl
    exact notLinked member
  have own : (m.newEntry node peer left).entry node = ⟨peer, left, timeoutInitMs, none⟩ :=
    if_pos rfl
  constructor
  · exact s.linked.append notLinked
  · intro n member
    rcases List.mem_append.mp member with before | now
    · exact List.mem_cons_of_mem _ (s.live n before)
    · rw [List.mem_singleton.mp now]
      exact List.mem_cons_self
  · exact List.nodup_cons.mpr ⟨free, s.heap⟩
  · have same : (nodes.map fun n => ((m.newEntry node peer left).entry n).btAddr) =
        nodes.map fun n => (m.entry n).btAddr :=
      List.map_congr_left fun n member => by rw [others n member]
    show ((nodes ++ [node]).map fun n => ((m.newEntry node peer left).entry n).btAddr).Nodup
    rw [List.map_append, same, List.map_singleton, own, List.nodup_append]
    refine ⟨s.distinct, List.nodup_singleton _, ?_⟩
    rintro a member b isPeer rfl
    obtain ⟨n, inList, address⟩ := List.mem_map.mp member
    unfold peerSupportedTest at new
    rw [s.nodes_eq, List.any_eq_false] at new
    exact new n inList (by rw [address, List.mem_singleton.mp isPeer, beq_self_eq_true])
  · intro n member
    rcases List.mem_append.mp member with before | now
    · show 500 ∣ ((m.newEntry node peer left).entry n).timeoutMs ∧ _
      rw [others n before]
      exact s.timeout n before
    · rw [List.mem_singleton.mp now]
      show 500 ∣ ((m.newEntry node peer left).entry node).timeoutMs ∧
        500 ≤ ((m.newEntry node peer left).entry node).timeoutMs ∧
          ((m.newEntry node peer left).entry node).timeoutMs ≤ 10000
      rw [own]
      exact fullTime
  · intro n chosen
    exact List.mem_append_left _ (s.closest n chosen)

theorem step_structured {m t : Machine} {a : Act} (s : ∃ nodes, Structured m nodes)
    (taken : step m a = some t) : ∃ nodes, Structured t nodes := by
  obtain ⟨nodes, s⟩ := s
  cases a with
  | add peer alloc =>
      rcases add_cases taken with rfl | ⟨node, left, new, free, rfl⟩
      · exact ⟨nodes, s⟩
      · exact ⟨nodes ++ [node], newEntry_structured s new free⟩
  | result r =>
      simp only [step] at taken
      split at taken
      · cases taken
        exact ⟨nodes, peerThread_structured s r⟩
      · cases taken
  | tick =>
      cases taken
      exact ⟨_, (timeoutHandler_ticked s).structured⟩

theorem init_structured {m : Machine} (init : Init m) : Structured m [] := by
  constructor
  · rw [init.peerList]
    exact SList.linked_empty
  · simp
  · simp [init.allocated]
  · simp
  · simp
  · simp [init.closestPeer]

/-- **The list of peers.**  In every state of every run the list is linked from head to
tail, its addresses are distinct and its times in range, and `closest_peer` is NULL or
one of its nodes, none of which was freed. -/
theorem structured {m : Machine} (run : Reachable step Init unguarded m) :
    ∃ nodes, Structured m nodes := by
  apply run.invariant
  · intro s init
    exact ⟨[], init_structured init⟩
  · intro s a t inv _ taken
    exact step_structured inv taken

/-! ### A run -/

/-- The module after the boot. -/
def booted : Machine where
  peerList := SList.empty
  allocated := []
  entry := fun _ => ⟨⟨0, 0⟩, ⟨⟨0, 0⟩, .rtt, 0, 0⟩, 0, none⟩
  closestPeer := none
  filtBuf := List.replicate 6 0
  collectCnt := 0
  leds := ⟨false, false, false⟩
  log := []

theorem booted_init : Init booted := ⟨rfl, rfl, rfl, rfl, rfl, rfl⟩

def peerA : BtAddr := ⟨0, 1⟩

def peerB : BtAddr := ⟨0, 2⟩

/-- A peer is added; `node` is the memory, last used for a result by RTT. -/
def addAt (node : Ptr) (peer : BtAddr) : Act := .add peer (some (node, ⟨peer, .rtt, 0, 0⟩))

def measured (peer : BtAddr) (best : Float32) : Act := .result ⟨peer, .mcpd, 0, best⟩

/-- Two peers, of which the one that was measured outlives the other. -/
def twoPeersRun : List Act :=
  [addAt 1 peerA, addAt 2 peerB, .tick, measured peerB 3] ++ List.replicate 19 .tick

theorem structured_twoPeersRun :
    ∃ m : Machine, (∃ nodes, Structured m nodes) ∧ m.nodes = [2] ∧ m.closestPeer = some 2 := by
  have found : (exec step unguarded booted twoPeersRun).any
      (fun m => m.nodes == [2] && m.closestPeer == some 2) = true := by decide +kernel
  obtain ⟨m, run, shown⟩ := exists_reachable_of_exec booted_init found
  rw [Bool.and_eq_true, beq_iff_eq, beq_iff_eq] at shown
  exact ⟨m, structured run, shown⟩

end NcsExp.Peers
