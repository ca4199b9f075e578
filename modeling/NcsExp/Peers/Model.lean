/-
# NcsExp.Peers.Model -- the peers of the distance measurement

`peer.c` keeps the devices that can be measured in `peer_list`, with the last result of
each and the time it has left, and the nearest one in `closest_peer`.

* `peerSupportedAdd` allocates an entry; what `k_heap_alloc` returns, and the bytes
  left over in it, are the environment's choice.
* `peerThread` processes one result, `timeoutHandler` is one tick of the timer.  A tick
  meets every node that was linked when it began: the loop has read the next node
  before it removes the present one.
* `printResult` and `ledNotification` both feed the filter.

A step is atomic.  `origin` and `log` are not part of the code: `origin` says which
processed result an entry holds, and `log` records what is allocated, processed, freed,
pushed into the filter and put out by it.
-/
import NcsExp.Theory.Runs
import NcsExp.Theory.SList
import NcsExp.Theory.FloatOrder
import NcsExp.Theory.SelectionSort

namespace NcsExp.Peers

open NcsExp.Theory

set_option autoImplicit false

/-! ## Data -/

/-- `bt_addr_le_t`. -/
structure BtAddr where
  type : BitVec 8
  a : BitVec 48
  deriving DecidableEq

/-- `enum dm_ranging_mode`; memory that was never written may hold another value. -/
inductive RangingMode
  | rtt
  | mcpd
  | other (value : Nat)
  deriving DecidableEq

/-- `struct dm_result`.  `rtt` and `best` are members of a union. -/
structure DmResult where
  btAddr : BtAddr
  rangingMode : RangingMode
  rtt : Float32
  best : Float32
  deriving DecidableEq

/-- `struct peer_entry`. -/
structure PeerEntry where
  btAddr : BtAddr
  result : DmResult
  timeoutMs : Nat
  origin : Option Nat
  deriving DecidableEq

/-- A pointer to a `struct peer_entry`. -/
abbrev Ptr := Nat

/-- The two callers of `filter_result`. -/
inductive Consumer
  | print
  | led
  deriving DecidableEq

inductive Entry
  | added (node : Ptr) (peer : BtAddr)
  | processed (result : DmResult)
  | ticked
  | freed (node : Ptr)
  | pushed (consumer : Consumer) (value : Float32) (origin : Option Nat)
  | averaged (consumer : Consumer) (value : Float32)
  | notified (node : Ptr)
  deriving DecidableEq

structure Leds where
  r : Bool
  g : Bool
  b : Bool
  deriving DecidableEq

structure Machine where
  peerList : SList Ptr
  allocated : List Ptr
  entry : Ptr → PeerEntry
  closestPeer : Option Ptr
  filtBuf : List Float32
  collectCnt : Nat
  leds : Leds
  log : List Entry

def Machine.note (m : Machine) (e : Entry) : Machine := { m with log := m.log ++ [e] }

def Machine.setEntry (m : Machine) (node : Ptr) (e : PeerEntry) : Machine :=
  { m with entry := fun n => if n = node then e else m.entry n }

/-- The results processed so far. -/
def results (log : List Entry) : List DmResult :=
  log.filterMap fun
    | .processed r => some r
    | _ => none

def peerMax : Nat := 8
def timeoutStepMs : Nat := 500
def timeoutInitMs : Nat := 10000
def totalNumFilter : Nat := 6
def exNumFilter : Nat := 2
def distanceMaxLed : Nat := 70
def distanceRMaxLed : Nat := 10

/-! ## The closest peer -/

/-- Lines 86-109; the name says minimum, the larger `best` wins. -/
def mcpdMinPeerResult (entry : Ptr → PeerEntry) : Option Ptr → Option Ptr → Option Ptr
  | none, none => none
  | none, some b => if (entry b).result.rangingMode = .mcpd then some b else none
  | some a, none => if (entry a).result.rangingMode = .mcpd then some a else none
  | some a, some b =>
      let modeA := (entry a).result.rangingMode
      let modeB := (entry b).result.rangingMode
      if modeA = .rtt ∧ modeB = .rtt then none
      else if modeA = .rtt ∧ modeB = .mcpd then some b
      else if modeA = .mcpd ∧ modeB = .rtt then some a
      else if (entry a).result.best > (entry b).result.best then some a
      else some b

/-- The loop of `peer_find_closest`; it starts with the head and meets it again. -/
def findClosest (entry : Ptr → PeerEntry) (nodes : List Ptr) : Option Ptr :=
  match nodes with
  | [] => none
  | head :: _ =>
      nodes.foldl (fun closest item => mcpdMinPeerResult entry closest (some item)) (some head)

/-- The nodes a loop over `peer_list` meets. -/
def Machine.nodes (m : Machine) : List Ptr :=
  SList.walk m.peerList.next m.allocated.length m.peerList.head

def peerFindClosest (m : Machine) : Option Ptr := findClosest m.entry m.nodes

def peerFind (m : Machine) (peer : BtAddr) : Option Ptr :=
  m.nodes.find? fun node => (m.entry node).btAddr == peer

/-! ## The filter -/

def averageCacu (buf : List Float32) : Float32 :=
  let total := (List.range' exNumFilter (totalNumFilter - 2 * exNumFilter)).foldl
    (fun total i => total + buf.getD i 0) 0
  total / Float32.ofNat (totalNumFilter - exNumFilter * 2)

def dataCollect (m : Machine) (input : Float32) : Machine :=
  { m with filtBuf := m.filtBuf.set m.collectCnt input, collectCnt := m.collectCnt + 1 }

/-- Lines 195-212, with the value put out when the window is full. -/
def filterResult (m : Machine) (consumer : Consumer) (input : Float32) (origin : Option Nat) :
    Machine × Option Float32 :=
  let m := dataCollect (m.note (.pushed consumer input origin)) input
  if m.collectCnt = totalNumFilter then
    let sorted := selectionSort (fun a b => decide (a < b)) m.filtBuf totalNumFilter
    let average := averageCacu sorted
    (Machine.note { m with filtBuf := sorted, collectCnt := 0 } (.averaged consumer average),
      some average)
  else (m, none)

/-- The measurement of a result. -/
def DmResult.measure (r : DmResult) : Float32 :=
  if r.rangingMode = .rtt then r.rtt else r.best

/-- No distance is negative. -/
def DmResult.clamped (r : DmResult) : Float32 := if r.measure < 0 then 0 else r.measure

/-- Lines 219-305: only two of the ranges are not commented out. -/
def ledNotification (m : Machine) : Option Ptr → Machine
  | none => { m with leds := ⟨false, false, false⟩ }
  | some peer =>
      match filterResult m .led (m.entry peer).result.clamped (m.entry peer).origin with
      | (m, none) => m
      | (m, some average) =>
          let res := average * 10
          if res > Float32.ofNat distanceMaxLed then { m with leds := ⟨false, false, false⟩ }
          else if res ≤ Float32.ofNat distanceRMaxLed then
            { m with leds := ⟨false, true, false⟩ }
          else { m with leds := ⟨true, false, false⟩ }

/-- Lines 307-342; the average is printed. -/
def printResult (m : Machine) (peer : Ptr) : Machine :=
  (filterResult m .print (m.entry peer).result.measure (m.entry peer).origin).1

/-! ## The three operations -/

/-- Lines 350-359, for one node. -/
def timeoutBody (m : Machine) (node : Ptr) : Machine :=
  let item := m.entry node
  if item.timeoutMs > timeoutStepMs then
    m.setEntry node { item with timeoutMs := item.timeoutMs - timeoutStepMs }
  else
    let m := Machine.note
      { m with peerList := m.peerList.remove none node, allocated := m.allocated.erase node }
      (.freed node)
    let m := { m with closestPeer := peerFindClosest m }
    ledNotification m m.closestPeer

/-- `SYS_SLIST_FOR_EACH_NODE_SAFE`: the next node is read before the body. -/
def timeoutLoop : Nat → Option Ptr → Machine → Machine
  | 0, _, m => m
  | _ + 1, none, m => m
  | fuel + 1, some node, m => timeoutLoop fuel (m.peerList.next node) (timeoutBody m node)

def timeoutHandler (m : Machine) : Machine :=
  timeoutLoop m.allocated.length m.peerList.head (m.note .ticked)

/-- Lines 373-383: `memcpy` and a new life. -/
def Machine.store (m : Machine) (peer : Ptr) (result : DmResult) : Machine :=
  (m.note (.processed result)).setEntry peer
    { m.entry peer with
      result := result, timeoutMs := timeoutInitMs, origin := some (results m.log).length }

/-- The cached peer, or the one just measured. -/
def Machine.recache (m : Machine) (peer : Ptr) : Machine :=
  { m with closestPeer := mcpdMinPeerResult m.entry m.closestPeer (some peer) }

def peerThread (m : Machine) (result : DmResult) : Machine :=
  match peerFind m result.btAddr with
  | none => m
  | some peer =>
      let m := (printResult (m.store peer result) peer).recache peer
      (ledNotification m m.closestPeer).note (.notified peer)

def peerSupportedTest (m : Machine) (peer : BtAddr) : Bool :=
  m.nodes.any fun node => (m.entry node).btAddr == peer

/-- The new entry: the result is what the memory held. -/
def Machine.newEntry (m : Machine) (node : Ptr) (peer : BtAddr) (left : DmResult) : Machine :=
  (Machine.note { m with allocated := node :: m.allocated } (.added node peer)).setEntry node
    ⟨peer, left, timeoutInitMs, none⟩

/-- Lines 437-457; `alloc` is what `k_heap_alloc` returns. -/
def peerSupportedAdd (m : Machine) (peer : BtAddr) (alloc : Option (Ptr × DmResult)) :
    Option Machine :=
  if peerSupportedTest m peer then some m
  else
    match alloc with
    | none => some m
    | some (node, left) =>
        if node ∉ m.allocated ∧ m.allocated.length < peerMax then
          let m := m.newEntry node peer left
          some { m with peerList := m.peerList.append node }
        else none

inductive Act
  | add (peer : BtAddr) (alloc : Option (Ptr × DmResult))
  | result (r : DmResult)
  | tick
  deriving DecidableEq

/-- One step.  A result is of one of the two modes. -/
def step (m : Machine) : Act → Option Machine
  | .add peer alloc => peerSupportedAdd m peer alloc
  | .result r =>
      if r.rangingMode = .rtt ∨ r.rangingMode = .mcpd then some (peerThread m r) else none
  | .tick => some (timeoutHandler m)

/-- The boot. -/
structure Init (m : Machine) : Prop where
  peerList : m.peerList = SList.empty
  allocated : m.allocated = []
  closestPeer : m.closestPeer = none
  filtBuf : m.filtBuf.length = totalNumFilter
  collectCnt : m.collectCnt = 0
  log : m.log = []

/-! ## What the filter leaves alone -/

/-- An entry written by the filter. -/
def Entry.ofFilter : Entry → Bool
  | .pushed .. => true
  | .averaged .. => true
  | _ => false

/-- The peers are as before. -/
structure SamePeers (m t : Machine) : Prop where
  peerList : t.peerList = m.peerList
  allocated : t.allocated = m.allocated
  entry : t.entry = m.entry
  closestPeer : t.closestPeer = m.closestPeer
  log : ∃ new, t.log = m.log ++ new ∧ ∀ e ∈ new, e.ofFilter = true

theorem SamePeers.trans {m t w : Machine} (first : SamePeers m t) (second : SamePeers t w) :
    SamePeers m w where
  peerList := second.peerList.trans first.peerList
  allocated := second.allocated.trans first.allocated
  entry := second.entry.trans first.entry
  closestPeer := second.closestPeer.trans first.closestPeer
  log := by
    obtain ⟨new, log, filter⟩ := first.log
    obtain ⟨new', log', filter'⟩ := second.log
    refine ⟨new ++ new', by rw [log', log, List.append_assoc], ?_⟩
    intro e member
    rcases List.mem_append.mp member with before | after
    · exact filter e before
    · exact filter' e after

theorem SamePeers.recache {m t : Machine} (same : SamePeers m t) (peer : Ptr) :
    SamePeers (m.recache peer) (t.recache peer) where
  peerList := same.peerList
  allocated := same.allocated
  entry := same.entry
  closestPeer := by
    show mcpdMinPeerResult t.entry t.closestPeer _ = mcpdMinPeerResult m.entry m.closestPeer _
    rw [same.entry, same.closestPeer]
  log := same.log

/-- The window once `input` is in it, sorted. -/
def Machine.sorted (m : Machine) (input : Float32) : List Float32 :=
  selectionSort (fun a b => decide (a < b)) (m.filtBuf.set m.collectCnt input) totalNumFilter

/-- The push that fills the window. -/
theorem filterResult_full {m : Machine} (full : m.collectCnt + 1 = totalNumFilter)
    (consumer : Consumer) (input : Float32) (origin : Option Nat) :
    filterResult m consumer input origin =
      ({ m with
          filtBuf := m.sorted input
          collectCnt := 0
          log := m.log ++ [.pushed consumer input origin] ++
            [.averaged consumer (averageCacu (m.sorted input))] },
        some (averageCacu (m.sorted input))) :=
  if_pos full

/-- Any other push. -/
theorem filterResult_short {m : Machine} (short : m.collectCnt + 1 ≠ totalNumFilter)
    (consumer : Consumer) (input : Float32) (origin : Option Nat) :
    filterResult m consumer input origin =
      ({ m with
          filtBuf := m.filtBuf.set m.collectCnt input
          collectCnt := m.collectCnt + 1
          log := m.log ++ [.pushed consumer input origin] },
        none) :=
  if_neg short

theorem filterResult_same (m : Machine) (consumer : Consumer) (input : Float32)
    (origin : Option Nat) : SamePeers m (filterResult m consumer input origin).1 := by
  by_cases full : m.collectCnt + 1 = totalNumFilter
  · rw [filterResult_full full]
    refine ⟨rfl, rfl, rfl, rfl, _, List.append_assoc .., ?_⟩
    simp [Entry.ofFilter]
  · rw [filterResult_short full]
    refine ⟨rfl, rfl, rfl, rfl, _, rfl, ?_⟩
    simp [Entry.ofFilter]

theorem printResult_same (m : Machine) (peer : Ptr) : SamePeers m (printResult m peer) :=
  filterResult_same m ..

/-- `led_notification` of a peer is a push, and then only sets the LEDs. -/
theorem ledNotification_push (m : Machine) (peer : Ptr) :
    ∃ leds, ledNotification m (some peer) =
      { (filterResult m .led (m.entry peer).result.clamped (m.entry peer).origin).1 with
        leds := leds } := by
  unfold ledNotification
  dsimp only
  generalize filterResult m .led (m.entry peer).result.clamped (m.entry peer).origin = out
  obtain ⟨t, average⟩ := out
  cases average with
  | none => exact ⟨t.leds, rfl⟩
  | some average =>
      dsimp only
      split
      · exact ⟨_, rfl⟩
      split
      · exact ⟨_, rfl⟩
      · exact ⟨_, rfl⟩

theorem ledNotification_same (m : Machine) (peer : Option Ptr) :
    SamePeers m (ledNotification m peer) := by
  cases peer with
  | none => exact ⟨rfl, rfl, rfl, rfl, [], by simp [ledNotification], by simp⟩
  | some peer =>
      obtain ⟨leds, pushed⟩ := ledNotification_push m peer
      have same := filterResult_same m .led (m.entry peer).result.clamped (m.entry peer).origin
      rw [pushed]
      exact ⟨same.peerList, same.allocated, same.entry, same.closestPeer, same.log⟩

end NcsExp.Peers
