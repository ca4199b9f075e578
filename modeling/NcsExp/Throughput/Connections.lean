/-
# NcsExp.Throughput.Connections -- the connection slot of the throughput test

`connected` accepts a connection into `default_conn`, or asks the host to end it when
the slot is taken; `disconnected` empties the slot, whichever connection ended.

* `Machine` holds the two variables of the tester and, of the host, the connections
  that are up and the procedures the tester has started on them.
* `Act` is one callback of the host with the answers to the calls made in it.  The
  host ends the procedures of a connection before its `disconnected`.
* `slot_kept` is the invariant of the slot for the runs in which no other connection
  goes down while the slot is taken; `foreign_disconnect_breaks` says that such a
  step breaks it at once.

`log` records the calls to the host.
-/
import NcsExp.Throughput.Model
import Mathlib.Data.List.Count

namespace NcsExp.Throughput.Slot

open NcsExp.Theory

set_option autoImplicit false

/-! ## Data -/

/-- `CONFIG_BT_MAX_CONN`. -/
def maxConn : Nat := 2

/-- A connection, from its `connected` to its `disconnected`. -/
structure Conn where
  id : Nat
  role : Role
  deriving DecidableEq

inductive Entry
  | ref (conn : Conn)
  | unref (conn : Conn)
  | disconnect (conn : Conn)
  | dmStart (conn : Conn)
  | exchangeMtu (conn : Option Conn)
  | scanStart
  | advStart
  deriving DecidableEq

structure Machine where
  defaultConn : Option Conn
  testReady : Bool
  /-- Every connection so far. -/
  seen : List Conn
  /-- The connections that are up. -/
  up : List Conn
  /-- The connection a service discovery runs on. -/
  discovering : Option Conn
  /-- The connections an MTU exchange runs on. -/
  exchanging : List Conn
  log : List Entry
  deriving DecidableEq

def Machine.note (m : Machine) (entry : Entry) : Machine := { m with log := m.log ++ [entry] }

/-! ## The callbacks -/

/-- `bt_gatt_dm_start`: there is one discovery at a time. -/
def Machine.dmStart (m : Machine) (conn : Conn) (err : Int) : Option Machine :=
  if err ≠ 0 then some (m.note (.dmStart conn))
  else if m.discovering = none then some { m.note (.dmStart conn) with discovering := some conn }
  else none

/-- Lines 203-246. -/
def connected (m : Machine) (conn : Conn) (hciErr : Nat) (infoErr dmErr : Int) : Option Machine :=
  if hciErr ≠ 0 then some m
  else if m.defaultConn.isSome then some (m.note (.disconnect conn))
  else
    let m := { m.note (.ref conn) with defaultConn := some conn }
    if infoErr ≠ 0 then some m
    else if conn.role = .master then m.dmStart conn dmErr
    else some m

/-- Lines 316-320. -/
def Machine.clear (m : Machine) : Machine :=
  match m.defaultConn with
  | some conn => { m.note (.unref conn) with testReady := false, defaultConn := none }
  | none => { m with testReady := false }

/-- Lines 309-334: back to scanning or advertising, in the role that ended. -/
def disconnected (m : Machine) (conn : Conn) (infoErr : Int) : Machine :=
  if infoErr ≠ 0 then m.clear
  else if conn.role = .master then m.clear.note .scanStart
  else m.clear.note .advStart

/-- Lines 162-182: the exchange is asked for on `default_conn`. -/
def discoveryComplete (m : Machine) (err : Int) : Option Machine :=
  let m := { m.note (.exchangeMtu m.defaultConn) with discovering := none }
  if err ≠ 0 then some m
  else m.defaultConn.map fun conn => { m with exchanging := conn :: m.exchanging }

/-- Lines 143-160. -/
def exchangeFunc (m : Machine) (conn : Conn) (infoErr : Int) : Machine :=
  if infoErr ≠ 0 then m
  else if conn.role = .master then { m with testReady := true }
  else m

inductive Act
  | connected (conn : Conn) (hciErr : Nat) (infoErr dmErr : Int)
  | disconnected (conn : Conn) (infoErr : Int)
  | discoveryComplete (err : Int)
  /-- `discovery_service_not_found` or `discovery_error`. -/
  | discoveryFailed
  | exchangeFunc (conn : Conn) (infoErr : Int)
  deriving DecidableEq

/-- One callback of the host. -/
def step (m : Machine) : Act → Option Machine
  | .connected conn hciErr infoErr dmErr =>
      if hciErr ≠ 0 then connected m conn hciErr infoErr dmErr
      else if conn ∉ m.seen ∧ m.up.length < maxConn then
        connected { m with seen := conn :: m.seen, up := conn :: m.up } conn hciErr infoErr dmErr
      else none
  | .disconnected conn infoErr =>
      if conn ∈ m.up ∧ m.discovering ≠ some conn ∧ conn ∉ m.exchanging then
        some (disconnected { m with up := m.up.erase conn } conn infoErr)
      else none
  | .discoveryComplete err =>
      if m.discovering.isSome then discoveryComplete m err else none
  | .discoveryFailed =>
      if m.discovering.isSome then some { m with discovering := none } else none
  | .exchangeFunc conn infoErr =>
      if conn ∈ m.exchanging then
        some (exchangeFunc { m with exchanging := m.exchanging.erase conn } conn infoErr)
      else none

/-- The boot. -/
structure Init (m : Machine) : Prop where
  defaultConn : m.defaultConn = none
  testReady : m.testReady = false
  seen : m.seen = []
  up : m.up = []
  discovering : m.discovering = none
  exchanging : m.exchanging = []
  log : m.log = []

/-! ## The slot -/

/-- `connected` took `conn` into the slot. -/
def Accepted (m : Machine) (conn : Conn) : Prop := .ref conn ∈ m.log

/-- The references taken on `conn`. -/
def refs (m : Machine) (conn : Conn) : Nat := m.log.count (.ref conn)

/-- The references dropped. -/
def unrefs (m : Machine) (conn : Conn) : Nat := m.log.count (.unref conn)

/-- What the tester promises of its slot. -/
structure SlotOk (m : Machine) : Prop where
  /-- The slot holds the accepted connection, as long as that is up. -/
  slot : ∀ conn, m.defaultConn = some conn ↔ Accepted m conn ∧ conn ∈ m.up
  /-- One reference is held while it is in the slot, and none otherwise. -/
  held : ∀ conn, refs m conn = unrefs m conn + if m.defaultConn = some conn then 1 else 0
  /-- It is taken once. -/
  taken : ∀ conn, refs m conn ≤ 1
  /-- The reference of a connection that ended was dropped once. -/
  dropped : ∀ conn, Accepted m conn → conn ∉ m.up → unrefs m conn = 1
  ready : m.testReady = true → ∃ conn, m.defaultConn = some conn

/-- No connection goes down while another one is in the slot. -/
def ownSlot (m : Machine) : Act → Bool
  | .disconnected conn _ => m.defaultConn == none || m.defaultConn == some conn
  | _ => true

/-! ## Every run -/

/-- The slot, and what the procedures of the host rest on. -/
structure Inv (m : Machine) : Prop where
  slot : ∀ conn, m.defaultConn = some conn ↔ Accepted m conn ∧ conn ∈ m.up
  held : ∀ conn, refs m conn = unrefs m conn + if m.defaultConn = some conn then 1 else 0
  taken : ∀ conn, refs m conn ≤ 1
  ready : m.testReady = true → ∃ conn, m.defaultConn = some conn
  upSeen : ∀ conn, conn ∈ m.up → conn ∈ m.seen
  acceptedSeen : ∀ conn, Accepted m conn → conn ∈ m.seen
  upOnce : m.up.Nodup
  discovers : ∀ conn, m.discovering = some conn → m.defaultConn = some conn
  exchanges : ∀ conn, conn ∈ m.exchanging → m.defaultConn = some conn

theorem Inv.slotOk {m : Machine} (inv : Inv m) : SlotOk m := by
  refine ⟨inv.slot, inv.held, inv.taken, ?_, inv.ready⟩
  intro conn accepted down
  have empty : m.defaultConn ≠ some conn := fun same => down ((inv.slot conn).mp same).2
  have balance := inv.held conn
  rw [if_neg empty] at balance
  have positive : 0 < refs m conn := List.count_pos_iff.mpr accepted
  have once := inv.taken conn
  omega

/-- An entry that neither takes nor drops a reference. -/
def Entry.quiet : Entry → Bool
  | .ref _ => false
  | .unref _ => false
  | _ => true

theorem refs_note_of_quiet (m : Machine) {e : Entry} (quiet : e.quiet = true) (conn : Conn) :
    refs (m.note e) conn = refs m conn := by
  have other : (e == .ref conn) = false := by
    apply beq_false_of_ne
    rintro rfl
    cases quiet
  simp [refs, Machine.note, List.count_singleton, other]

theorem unrefs_note_of_quiet (m : Machine) {e : Entry} (quiet : e.quiet = true) (conn : Conn) :
    unrefs (m.note e) conn = unrefs m conn := by
  have other : (e == .unref conn) = false := by
    apply beq_false_of_ne
    rintro rfl
    cases quiet
  simp [unrefs, Machine.note, List.count_singleton, other]

theorem refs_note_ref (m : Machine) (conn c : Conn) :
    refs (m.note (.ref conn)) c = refs m c + if conn = c then 1 else 0 := by
  by_cases same : conn = c <;> simp [refs, Machine.note, same]

theorem unrefs_note_ref (m : Machine) (conn c : Conn) :
    unrefs (m.note (.ref conn)) c = unrefs m c := by
  simp [unrefs, Machine.note]

theorem refs_note_unref (m : Machine) (conn c : Conn) :
    refs (m.note (.unref conn)) c = refs m c := by
  simp [refs, Machine.note]

theorem unrefs_note_unref (m : Machine) (conn c : Conn) :
    unrefs (m.note (.unref conn)) c = unrefs m c + if conn = c then 1 else 0 := by
  by_cases same : conn = c <;> simp [unrefs, Machine.note, same]

theorem accepted_iff_refs {m : Machine} {conn : Conn} : Accepted m conn ↔ 0 < refs m conn :=
  List.count_pos_iff.symm

theorem accepted_note_of_quiet (m : Machine) {e : Entry} (quiet : e.quiet = true) (conn : Conn) :
    Accepted (m.note e) conn ↔ Accepted m conn := by
  rw [accepted_iff_refs, accepted_iff_refs, refs_note_of_quiet m quiet]

theorem note_inv {m : Machine} (inv : Inv m) {e : Entry} (quiet : e.quiet = true) :
    Inv (m.note e) where
  slot := by
    intro conn
    rw [accepted_note_of_quiet m quiet]
    exact inv.slot conn
  held := by
    intro conn
    rw [refs_note_of_quiet m quiet, unrefs_note_of_quiet m quiet]
    exact inv.held conn
  taken := by
    intro conn
    rw [refs_note_of_quiet m quiet]
    exact inv.taken conn
  ready := inv.ready
  upSeen := inv.upSeen
  acceptedSeen := by
    intro conn accepted
    exact inv.acceptedSeen conn ((accepted_note_of_quiet m quiet conn).mp accepted)
  upOnce := inv.upOnce
  discovers := inv.discovers
  exchanges := inv.exchanges

/-- The host has a new connection. -/
def Machine.establish (m : Machine) (conn : Conn) : Machine :=
  { m with seen := conn :: m.seen, up := conn :: m.up }

theorem establish_inv {m : Machine} (inv : Inv m) {conn : Conn} (new : conn ∉ m.seen) :
    Inv (m.establish conn) where
  slot := by
    intro c
    constructor
    · intro same
      obtain ⟨accepted, up⟩ := (inv.slot c).mp same
      exact ⟨accepted, List.mem_cons_of_mem _ up⟩
    · rintro ⟨accepted, up⟩
      rcases List.mem_cons.mp up with rfl | up
      · exact absurd (inv.acceptedSeen c accepted) new
      · exact (inv.slot c).mpr ⟨accepted, up⟩
  held := inv.held
  taken := inv.taken
  ready := inv.ready
  upSeen := by
    intro c up
    rcases List.mem_cons.mp up with rfl | up
    · exact List.mem_cons_self
    · exact List.mem_cons_of_mem _ (inv.upSeen c up)
  acceptedSeen := by
    intro c accepted
    exact List.mem_cons_of_mem _ (inv.acceptedSeen c accepted)
  upOnce := List.nodup_cons.mpr ⟨fun up => new (inv.upSeen conn up), inv.upOnce⟩
  discovers := inv.discovers
  exchanges := inv.exchanges

/-- `bt_conn_ref` into an empty slot. -/
theorem accept_inv {m : Machine} (inv : Inv m) {conn : Conn} (empty : m.defaultConn = none)
    (up : conn ∈ m.up) (new : ¬ Accepted m conn) :
    Inv { m.note (.ref conn) with defaultConn := some conn } where
  slot := by
    intro c
    have others : ¬ (Accepted m c ∧ c ∈ m.up) := by
      rw [← inv.slot c, empty]
      exact Option.some_ne_none c ∘ Eq.symm
    simp only [Option.some.injEq, Accepted, Machine.note, List.mem_append, List.mem_singleton,
      Entry.ref.injEq]
    constructor
    · rintro rfl
      exact ⟨Or.inr rfl, up⟩
    · rintro ⟨accepted | same, isUp⟩
      · exact absurd ⟨accepted, isUp⟩ others
      · exact same.symm
  held := by
    intro c
    have balance := inv.held c
    rw [empty, if_neg (by simp)] at balance
    show refs (m.note (.ref conn)) c =
      unrefs (m.note (.ref conn)) c + if some conn = some c then 1 else 0
    rw [refs_note_ref, unrefs_note_ref, balance]
    simp only [Option.some.injEq, Nat.add_zero]
  taken := by
    intro c
    have once := inv.taken c
    show refs (m.note (.ref conn)) c ≤ 1
    rw [refs_note_ref]
    split
    · rename_i same
      rw [accepted_iff_refs, same] at new
      omega
    · exact once
  ready := fun _ => ⟨conn, rfl⟩
  upSeen := inv.upSeen
  acceptedSeen := by
    intro c accepted
    rcases List.mem_append.mp accepted with before | now
    · exact inv.acceptedSeen c before
    · cases List.mem_singleton.mp now
      exact inv.upSeen conn up
  upOnce := inv.upOnce
  discovers := by
    intro c discovering
    have same := inv.discovers c discovering
    rw [empty] at same
    cases same
  exchanges := by
    intro c exchanging
    have same := inv.exchanges c exchanging
    rw [empty] at same
    cases same

/-- The end of a connection, with nothing in the slot. -/
theorem clear_inv_of_none {m : Machine} (inv : Inv m) {conn : Conn} (empty : m.defaultConn = none) :
    Inv ({ m with up := m.up.erase conn, testReady := false } : Machine) where
  slot := by
    intro c
    constructor
    · intro same
      rw [empty] at same
      cases same
    · rintro ⟨accepted, up⟩
      exact (inv.slot c).mpr ⟨accepted, List.mem_of_mem_erase up⟩
  held := inv.held
  taken := inv.taken
  ready := by
    intro ready
    cases ready
  upSeen := fun c up => inv.upSeen c (List.mem_of_mem_erase up)
  acceptedSeen := inv.acceptedSeen
  upOnce := inv.upOnce.erase conn
  discovers := inv.discovers
  exchanges := inv.exchanges

/-- The end of the connection in the slot. -/
theorem clear_inv_of_own {m : Machine} (inv : Inv m) {conn : Conn} (own : m.defaultConn = some conn)
    (noDiscovery : m.discovering ≠ some conn) (noExchange : conn ∉ m.exchanging) :
    Inv ({ m.note (.unref conn) with
      up := m.up.erase conn, testReady := false, defaultConn := none } : Machine) where
  slot := by
    intro c
    constructor
    · intro same
      cases same
    · rintro ⟨accepted, up⟩
      obtain ⟨other, isUp⟩ := (inv.upOnce.mem_erase_iff).mp up
      have before : Accepted m c := by simpa [Accepted, Machine.note] using accepted
      have same := (inv.slot c).mpr ⟨before, isUp⟩
      rw [own, Option.some.injEq] at same
      exact absurd same.symm other
  held := by
    intro c
    have balance := inv.held c
    show refs (m.note (.unref conn)) c =
      unrefs (m.note (.unref conn)) c + if none = some c then 1 else 0
    rw [refs_note_unref, unrefs_note_unref, balance, own]
    simp
  taken := by
    intro c
    show refs (m.note (.unref conn)) c ≤ 1
    rw [refs_note_unref]
    exact inv.taken c
  ready := by
    intro ready
    cases ready
  upSeen := fun c up => inv.upSeen c (List.mem_of_mem_erase up)
  acceptedSeen := by
    intro c accepted
    exact inv.acceptedSeen c (by simpa [Accepted, Machine.note] using accepted)
  upOnce := inv.upOnce.erase conn
  discovers := by
    intro c discovering
    have same := inv.discovers c discovering
    rw [own, Option.some.injEq] at same
    exact absurd (same ▸ discovering) noDiscovery
  exchanges := by
    intro c exchanging
    have same := inv.exchanges c exchanging
    rw [own, Option.some.injEq] at same
    exact absurd (same ▸ exchanging) noExchange

theorem disconnected_inv {m : Machine} {conn : Conn} {infoErr : Int} (inv : Inv m.clear) :
    Inv (disconnected m conn infoErr) := by
  unfold disconnected
  split
  · exact inv
  · split
    · exact note_inv inv rfl
    · exact note_inv inv rfl

theorem dmStart_inv {m t : Machine} {conn : Conn} {err : Int} (inv : Inv m)
    (own : m.defaultConn = some conn) (taken : m.dmStart conn err = some t) : Inv t := by
  have noted : Inv (m.note (.dmStart conn)) := note_inv inv rfl
  unfold Machine.dmStart at taken
  split at taken
  · cases taken
    exact noted
  · split at taken
    · cases taken
      refine { noted with discovers := ?_ }
      intro c same
      cases same
      exact own
    · cases taken

theorem connected_inv {m t : Machine} {conn : Conn} {hciErr : Nat} {infoErr dmErr : Int}
    (inv : Inv m) (up : conn ∈ m.up) (new : ¬ Accepted m conn)
    (taken : connected m conn hciErr infoErr dmErr = some t) : Inv t := by
  unfold connected at taken
  split at taken
  · cases taken
    exact inv
  split at taken
  · cases taken
    exact note_inv inv rfl
  rename_i notSome
  have accepted := accept_inv inv (Option.not_isSome_iff_eq_none.mp notSome) up new
  dsimp only at taken
  split at taken
  · cases taken
    exact accepted
  split at taken
  · exact dmStart_inv accepted rfl taken
  · cases taken
    exact accepted

theorem discoveryComplete_inv {m t : Machine} {err : Int} (inv : Inv m)
    (taken : discoveryComplete m err = some t) : Inv t := by
  have noted : Inv { m.note (.exchangeMtu m.defaultConn) with discovering := none } := by
    refine { note_inv inv (e := .exchangeMtu m.defaultConn) rfl with discovers := ?_ }
    intro c same
    cases same
  unfold discoveryComplete at taken
  dsimp only at taken
  split at taken
  · cases taken
    exact noted
  · rw [Option.map_eq_some_iff] at taken
    obtain ⟨conn, own, rfl⟩ := taken
    refine { noted with exchanges := ?_ }
    intro c exchanging
    rcases List.mem_cons.mp exchanging with rfl | before
    · exact own
    · exact inv.exchanges c before

theorem exchangeFunc_inv {m : Machine} {conn : Conn} {infoErr : Int} (inv : Inv m)
    (own : m.defaultConn = some conn) : Inv (exchangeFunc m conn infoErr) := by
  unfold exchangeFunc
  split
  · exact inv
  split
  · exact { inv with ready := fun _ => ⟨conn, own⟩ }
  · exact inv

theorem step_inv {m t : Machine} {a : Act} (inv : Inv m) (own : ownSlot m a = true)
    (taken : step m a = some t) : Inv t := by
  cases a with
  | connected conn hciErr infoErr dmErr =>
      simp only [step] at taken
      split at taken
      · rename_i failed
        rw [connected, if_pos failed] at taken
        cases taken
        exact inv
      · split at taken
        · rename_i room
          have new : ¬ Accepted m conn := fun accepted => room.1 (inv.acceptedSeen conn accepted)
          exact connected_inv (establish_inv inv room.1) List.mem_cons_self new taken
        · cases taken
  | disconnected conn infoErr =>
      simp only [step] at taken
      split at taken
      · rename_i ended
        obtain ⟨_, noDiscovery, noExchange⟩ := ended
        cases taken
        apply disconnected_inv
        simp only [ownSlot, Bool.or_eq_true, beq_iff_eq] at own
        rcases own with empty | same
        · simpa only [Machine.clear, empty] using clear_inv_of_none inv empty
        · simp only [Machine.clear, same]
          exact clear_inv_of_own inv same noDiscovery noExchange
      · cases taken
  | discoveryComplete err =>
      simp only [step] at taken
      split at taken
      · exact discoveryComplete_inv inv taken
      · cases taken
  | discoveryFailed =>
      simp only [step] at taken
      split at taken
      · cases taken
        refine { inv with discovers := ?_ }
        intro c same
        cases same
      · cases taken
  | exchangeFunc conn infoErr =>
      simp only [step] at taken
      split at taken
      · rename_i exchanging
        cases taken
        have erased : Inv { m with exchanging := m.exchanging.erase conn } :=
          { inv with exchanges := fun c still => inv.exchanges c (List.mem_of_mem_erase still) }
        exact exchangeFunc_inv erased (inv.exchanges conn exchanging)
      · cases taken

theorem init_inv {m : Machine} (init : Init m) : Inv m := by
  obtain ⟨defaultConn, testReady, seen, up, discovering, exchanging, log⟩ := init
  constructor <;> simp [refs, unrefs, Accepted, *]

theorem reachable_inv {m : Machine} (run : Reachable step Init ownSlot m) : Inv m := by
  apply run.invariant
  · intro s init
    exact init_inv init
  · intro s a t inv own taken
    exact step_inv inv own taken

/-- **The slot.**  In every run in which no connection goes down while another one is
in the slot, the slot holds the accepted connection and its one reference, for as long
as that connection is up. -/
theorem slot_kept {m : Machine} (run : Reachable step Init ownSlot m) : SlotOk m :=
  (reachable_inv run).slotOk

/-- The tester after the boot. -/
def booted : Machine where
  defaultConn := none
  testReady := false
  seen := []
  up := []
  discovering := none
  exchanging := []
  log := []

theorem booted_init : Init booted := ⟨rfl, rfl, rfl, rfl, rfl, rfl, rfl⟩

def first : Conn := ⟨1, .master⟩

def second : Conn := ⟨2, .slave⟩

/-- The second connection outlives the first. -/
def ownSlotRun : List Act :=
  [.connected first 0 0 0, .discoveryComplete 0, .exchangeFunc first 0, .connected second 0 0 0,
    .disconnected first 0, .disconnected second 0]

theorem slot_kept_ownSlotRun :
    ∃ m : Machine, SlotOk m ∧ m.log = [.ref first, .dmStart first, .exchangeMtu (some first),
      .disconnect second, .unref first, .scanStart, .advStart] := by
  have found : (exec step ownSlot booted ownSlotRun).any (fun m => m.log ==
      [.ref first, .dmStart first, .exchangeMtu (some first), .disconnect second, .unref first,
        .scanStart, .advStart]) = true := by decide +kernel
  obtain ⟨m, run, log⟩ := exists_reachable_of_exec booted_init found
  exact ⟨m, slot_kept run, eq_of_beq log⟩

theorem clear_accepted {m : Machine} {conn : Conn} (accepted : Accepted m conn) :
    Accepted m.clear conn := by
  unfold Machine.clear
  split
  · exact List.mem_append_left _ accepted
  · exact accepted

theorem clear_empty (m : Machine) : m.clear.defaultConn = none ∧ m.clear.up = m.up := by
  unfold Machine.clear
  split
  · exact ⟨rfl, rfl⟩
  · rename_i empty
    exact ⟨empty, rfl⟩

/-- Whatever ended, the slot is empty after `disconnected`. -/
theorem disconnected_empty (m : Machine) (conn : Conn) (infoErr : Int) :
    (disconnected m conn infoErr).defaultConn = none ∧
      (disconnected m conn infoErr).up = m.up ∧
      ∀ c, Accepted m c → Accepted (disconnected m conn infoErr) c := by
  obtain ⟨empty, up⟩ := clear_empty m
  unfold disconnected
  split
  · exact ⟨empty, up, fun c => clear_accepted⟩
  · split
    · exact ⟨empty, up, fun c accepted => List.mem_append_left _ (clear_accepted accepted)⟩
    · exact ⟨empty, up, fun c accepted => List.mem_append_left _ (clear_accepted accepted)⟩

/-- **The condition is needed.**  The end of another connection, while one is in the
slot, empties it. -/
theorem foreign_disconnect_breaks {m t : Machine} {conn : Conn} {infoErr : Int} (ok : SlotOk m)
    (foreign : ownSlot m (.disconnected conn infoErr) = false)
    (taken : step m (.disconnected conn infoErr) = some t) : ¬ SlotOk t := by
  intro after
  simp only [ownSlot, Bool.or_eq_false_iff, beq_eq_false_iff_ne] at foreign
  obtain ⟨c, held⟩ := Option.ne_none_iff_exists'.mp foreign.1
  have other : c ≠ conn := fun same => foreign.2 (by rw [held, same])
  obtain ⟨accepted, up⟩ := (ok.slot c).mp held
  simp only [step] at taken
  split at taken
  · cases taken
    obtain ⟨empty, sameUp, keeps⟩ :=
      disconnected_empty { m with up := m.up.erase conn } conn infoErr
    have still := (after.slot c).mpr
      ⟨keeps c accepted, by rw [sameUp]; exact (List.mem_erase_of_ne other).mpr up⟩
    rw [empty] at still
    cases still
  · cases taken

/-- The second connection is ended, as `connected` asks for. -/
def rejectedRun : List Act :=
  [.connected first 0 0 0, .connected second 0 0 0, .disconnected second 0]

/-- **Rejecting a second connection clears the first.**  The first is up, and the slot
is empty. -/
theorem rejected_clears_first : ¬ ∀ m, Reachable step Init unguarded m → SlotOk m := by
  intro kept
  have found : (exec step unguarded booted rejectedRun).any (fun m =>
      m.defaultConn == none && m.log.contains (.ref first) && m.up.contains first) = true := by
    decide +kernel
  obtain ⟨m, run, shown⟩ := exists_reachable_of_exec booted_init found
  simp only [Bool.and_eq_true, beq_iff_eq, List.contains_iff_mem] at shown
  obtain ⟨⟨empty, accepted⟩, up⟩ := shown
  have same := ((kept m run).slot first).mpr ⟨accepted, up⟩
  rw [empty] at same
  cases same

end NcsExp.Throughput.Slot
