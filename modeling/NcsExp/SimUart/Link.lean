/-
# NcsExp.SimUart.Link -- the connection status in band with NUS data

With `CONFIG_RPC_SIMULATE_UART` the network core sends a frame of five bytes when a
connection comes or goes, and NUS data as it is, over one transport.  The application core
passes each packet on to its UART and looks at the first bytes for a status.

* The transport is in order and loses nothing.  The handler does not look at the length, so
  that what is behind a short packet in the receive buffer counts, too.
* `link_follows`: everything is passed on in order, and once everything is delivered the
  status follows the connection, unless the last packet that reads as a frame is NUS data
  that says otherwise.
* `nus_data_forges`: such data changes it, and frames are passed on like data.
-/
import NcsExp.Theory.History
import NcsExp.Theory.Memory
import NcsExp.Theory.Runs

namespace NcsExp.SimUart

open NcsExp.Theory

set_option autoImplicit false

/-! ## The code -/

/-- A packet in the receive buffer: its bytes, and what is behind them. -/
structure Packet where
  data : List UInt8
  behind : Memory UInt8

/-- The receive buffer. -/
def Packet.buffer (p : Packet) : Memory UInt8 := p.behind.store 0 p.data

/-- What the network core sent. -/
inductive Sent
  | status (packet : Packet)
  | nus (packet : Packet)

def Sent.packet : Sent → Packet
  | .status packet => packet
  | .nus packet => packet

structure Link where
  /-- Of the network core. -/
  currentConn : Option Nat
  inFlight : List Packet
  /-- `m_is_connected` of the application core. -/
  isConnected : Bool
  /-- What `my_uart_send` was called with. -/
  uart : List (List UInt8)
  sent : List Sent

namespace Link

/-- `nrf_rpc_tr_send`. -/
def nrfRpcTrSend (m : Link) (s : Sent) : Link :=
  { m with inFlight := m.inFlight ++ [s.packet], sent := m.sent ++ [s] }

/-- `connected`, lines 106-147 of the network core's `main.c`. -/
def connected (m : Link) (conn : Nat) (err : UInt8) (behind : Memory UInt8) : Link :=
  if err ≠ 0 then m
  else
    { m with currentConn := some conn }.nrfRpcTrSend
      (.status ⟨[0x55, 0x01, 0x01, 0x00, 0xAA], behind⟩)

/-- `disconnected`, lines 149-179. -/
def disconnected (m : Link) (behind : Memory UInt8) : Link :=
  let m := if m.currentConn.isSome then { m with currentConn := none } else m
  m.nrfRpcTrSend (.status ⟨[0x55, 0x01, 0x01, 0x01, 0xAA], behind⟩)

/-- `bt_nus_receive_cb`, lines 188-221. -/
def btNusReceiveCb (m : Link) (data : List UInt8) (behind : Memory UInt8) : Link :=
  m.nrfRpcTrSend (.nus ⟨data, behind⟩)

def setBleConnectionStatus (m : Link) (isConnected : Bool) : Link :=
  { m with isConnected := isConnected }

/-- `rpc_receive_handler` of the application core, lines 55-77 of `rpc_thread.c`. -/
def rpcReceiveHandler (m : Link) (p : Packet) : Link :=
  let m := { m with uart := m.uart ++ [p.data] }
  if p.buffer 0 = 0x55 then
    if p.buffer 1 = 0x01 then
      if p.buffer 2 = 0x01 then m.setBleConnectionStatus (p.buffer 3 = 0) else m
    else m
  else m

end Link

/-! ## Runs -/

/-- `behind` is what will be behind the packet that is sent. -/
inductive Act
  | connected (conn : Nat) (err : UInt8) (behind : Memory UInt8)
  | disconnected (behind : Memory UInt8)
  | nusReceive (data : List UInt8) (behind : Memory UInt8)
  | deliver

namespace Link

def step (m : Link) : Act → Option Link
  | .connected conn err behind => some (m.connected conn err behind)
  | .disconnected behind => some (m.disconnected behind)
  | .nusReceive data behind => some (m.btNusReceiveCb data behind)
  | .deliver =>
      match m.inFlight with
      | [] => none
      | p :: rest => some ({ m with inFlight := rest }.rpcReceiveHandler p)

structure Init (m : Link) : Prop where
  currentConn : m.currentConn = none
  inFlight : m.inFlight = []
  isConnected : m.isConnected = false
  uart : m.uart = []
  sent : m.sent = []

end Link

/-! ## What a packet says -/

/-- The handler takes the packet for a status frame. -/
def Packet.reads (p : Packet) : Bool :=
  p.buffer 0 == 0x55 && p.buffer 1 == 0x01 && p.buffer 2 == 0x01

/-- The status in a packet that is taken for one. -/
def Packet.status (p : Packet) : Bool := decide (p.buffer 3 = 0)

/-- The status after a packet. -/
def Packet.observe (now : Bool) (p : Packet) : Bool := if p.reads then p.status else now

/-- The status that a list of packets leaves. -/
def statusOf (packets : List Packet) : Bool := present Packet.observe false packets

def Sent.observe (forged : Option Bool) : Sent → Option Bool
  | .status _ => none
  | .nus packet => if packet.reads then some packet.status else forged

/-- The status in the last packet that reads as a frame, if that is NUS data. -/
def forged (sent : List Sent) : Option Bool := present Sent.observe none sent

theorem rpcReceiveHandler_eq (m : Link) (p : Packet) :
    m.rpcReceiveHandler p =
      { m with uart := m.uart ++ [p.data], isConnected := Packet.observe m.isConnected p } := by
  simp only [Link.rpcReceiveHandler, Packet.observe, Packet.reads, Packet.status,
    Link.setBleConnectionStatus]
  by_cases first : p.buffer 0 = 0x55
  · by_cases second : p.buffer 1 = 0x01
    · by_cases third : p.buffer 2 = 0x01
      · simp [first, second, third]
      · simp [first, second, third]
    · simp [first, second]
  · simp [first]

theorem disconnected_eq (m : Link) (behind : Memory UInt8) :
    m.disconnected behind =
      { m with currentConn := none }.nrfRpcTrSend
        (.status ⟨[0x55, 0x01, 0x01, 0x01, 0xAA], behind⟩) := by
  obtain ⟨currentConn, _, _, _, _⟩ := m
  cases currentConn with
  | none => rfl
  | some conn => rfl

/-- A status frame says what it should, whatever is behind it. -/
theorem observe_frame (now : Bool) (byte : UInt8) (behind : Memory UInt8) :
    Packet.observe now ⟨[0x55, 0x01, 0x01, byte, 0xAA], behind⟩ = decide (byte = 0) :=
  rfl

/-! ## The invariant -/

structure Follows (m : Link) : Prop where
  /-- Everything is passed on in order. -/
  uart : m.uart ++ m.inFlight.map Packet.data = m.sent.map fun s => s.packet.data
  /-- The status that everything sent leaves, from the one now. -/
  status : present Packet.observe m.isConnected m.inFlight = statusOf (m.sent.map Sent.packet)
  connection : statusOf (m.sent.map Sent.packet) = (forged m.sent).getD m.currentConn.isSome

namespace Follows

variable {m : Link}

/-- A packet is sent, and the connection changed or not. -/
theorem send (inv : Follows m) (s : Sent) (conn : Option Nat)
    (connection : Packet.observe (statusOf (m.sent.map Sent.packet)) s.packet =
      (Sent.observe (forged m.sent) s).getD conn.isSome) :
    Follows ({ m with currentConn := conn }.nrfRpcTrSend s) := by
  obtain ⟨uart, status, _⟩ := inv
  refine ⟨?_, ?_, ?_⟩
  · show m.uart ++ (m.inFlight ++ [s.packet]).map Packet.data =
      (m.sent ++ [s]).map fun s => s.packet.data
    rw [List.map_append, List.map_append, ← uart, List.append_assoc]
    rfl
  · show present Packet.observe m.isConnected (m.inFlight ++ [s.packet]) =
      statusOf ((m.sent ++ [s]).map Sent.packet)
    rw [present_snoc, status, List.map_append]
    exact present_snoc.symm
  · show statusOf ((m.sent ++ [s]).map Sent.packet) = (forged (m.sent ++ [s])).getD conn.isSome
    rw [forged, present_snoc, List.map_append]
    exact present_snoc.trans connection

theorem deliver (inv : Follows m) {p : Packet} {rest : List Packet}
    (first : m.inFlight = p :: rest) :
    Follows ({ m with inFlight := rest }.rpcReceiveHandler p) := by
  obtain ⟨uart, status, connection⟩ := inv
  rw [rpcReceiveHandler_eq]
  refine ⟨?_, ?_, connection⟩
  · rw [← uart, first]
    simp
  · rw [← status, first]
    rfl

end Follows

/-- The step lemma. -/
theorem follows_step {m t : Link} {a : Act} (inv : Follows m) (taken : m.step a = some t) :
    Follows t := by
  cases a with
  | connected conn err behind =>
      cases taken
      rw [Link.connected]
      split
      · exact inv
      · exact inv.send _ (some conn) (observe_frame _ 0x00 behind)
  | disconnected behind =>
      cases taken
      rw [disconnected_eq]
      exact inv.send _ none (observe_frame _ 0x01 behind)
  | nusReceive data behind =>
      cases taken
      apply inv.send (.nus ⟨data, behind⟩) m.currentConn
      rw [Packet.observe, Sent.packet, Sent.observe]
      by_cases read : (Packet.reads ⟨data, behind⟩) = true
      · rw [if_pos read, if_pos read, Option.getD_some]
      · rw [if_neg read, if_neg read]
        exact inv.connection
  | deliver =>
      rw [Link.step] at taken
      split at taken
      · cases taken
      · rename_i p rest first
        cases taken
        exact inv.deliver first

theorem reachable_follows {m : Link} (run : Reachable Link.step Link.Init unguarded m) :
    Follows m := by
  apply run.invariant
  · rintro m ⟨currentConn, inFlight, isConnected, uart, sent⟩
    refine ⟨?_, ?_, ?_⟩
    · rw [uart, inFlight, sent]
      rfl
    · rw [isConnected, inFlight, sent]
      rfl
    · rw [sent, currentConn]
      rfl
  · exact fun _ _ _ inv _ taken => follows_step inv taken

/-- **The link follows the connection**, once everything is delivered, unless the last packet that
reads as a frame is NUS data that says otherwise. -/
theorem link_follows {m : Link} (run : Reachable Link.step Link.Init unguarded m) :
    m.uart ++ m.inFlight.map Packet.data = m.sent.map (fun s => s.packet.data) ∧
      (m.inFlight = [] → (m.isConnected = m.currentConn.isSome ↔
        ∀ status ∈ forged m.sent, status = m.currentConn.isSome)) := by
  obtain ⟨uart, status, connection⟩ := reachable_follows run
  refine ⟨uart, ?_⟩
  intro delivered
  rw [delivered, present_nil] at status
  rw [status, connection]
  cases forged m.sent with
  | none => simp
  | some forgery => simp

def Link.start : Link where
  currentConn := none
  inFlight := []
  isConnected := false
  uart := []
  sent := []

theorem Link.start_init : Link.start.Init := ⟨rfl, rfl, rfl, rfl, rfl⟩

/-- A connection, and two NUS packets of which the first reads as the frame of a disconnection and
the second as that of a connection. -/
theorem link_follows_data :
    ∃ m, Reachable Link.step Link.Init unguarded m ∧
      (m.inFlight.isEmpty && forged m.sent == some true && m.isConnected) = true ∧
      (m.uart ++ m.inFlight.map Packet.data = m.sent.map (fun s => s.packet.data) ∧
        (m.inFlight = [] → (m.isConnected = m.currentConn.isSome ↔
          ∀ status ∈ forged m.sent, status = m.currentConn.isSome))) := by
  have found : (exec Link.step unguarded Link.start
      [.connected 1 0 (fun _ => 0), .nusReceive [0x55, 0x01, 0x01, 0x01, 0xAA] (fun _ => 0),
        .nusReceive [0x55, 0x01, 0x01, 0x00, 0xAA] (fun _ => 0), .deliver, .deliver, .deliver]).any
      (fun m => m.inFlight.isEmpty && forged m.sent == some true && m.isConnected) = true := by
    decide +kernel
  obtain ⟨m, run, delivered⟩ := exists_reachable_of_exec Link.start_init found
  exact ⟨m, run, delivered, link_follows run⟩

/-- The NUS data among what was sent. -/
def Sent.nus? : Sent → Option (List UInt8)
  | .status _ => none
  | .nus packet => some packet.data

/-- **NUS data forges the status, and frames are passed on.**  A peer that writes the frame of a
disconnection is taken for gone; and the frame of its connection reaches the UART. -/
theorem nus_data_forges :
    (¬ ∀ m, Reachable Link.step Link.Init unguarded m → m.inFlight = [] →
      m.isConnected = m.currentConn.isSome) ∧
    ¬ ∀ m, Reachable Link.step Link.Init unguarded m → m.inFlight = [] →
      m.uart = m.sent.filterMap Sent.nus? := by
  constructor
  · intro follows
    have found : (exec Link.step unguarded Link.start
        [.connected 1 0 (fun _ => 0), .nusReceive [0x55, 0x01, 0x01, 0x01, 0xAA] (fun _ => 0),
          .deliver, .deliver]).any
        (fun m => m.inFlight.isEmpty && (m.isConnected != m.currentConn.isSome)) = true := by
      decide +kernel
    obtain ⟨m, run, holds⟩ := exists_reachable_of_exec Link.start_init found
    rw [Bool.and_eq_true, List.isEmpty_iff, bne_iff_ne] at holds
    exact holds.2 (follows m run holds.1)
  · intro onlyData
    have found : (exec Link.step unguarded Link.start
        [.connected 1 0 (fun _ => 0), .deliver]).any
        (fun m => m.inFlight.isEmpty && (m.uart != m.sent.filterMap Sent.nus?)) = true := by
      decide +kernel
    obtain ⟨m, run, holds⟩ := exists_reachable_of_exec Link.start_init found
    rw [Bool.and_eq_true, List.isEmpty_iff, bne_iff_ne] at holds
    exact holds.2 (onlyData m run holds.1)

end NcsExp.SimUart
