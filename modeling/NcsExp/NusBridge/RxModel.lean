/-
# NcsExp.NusBridge.RxModel -- the UART-to-Bluetooth direction against a driver

`Driver` is any driver that follows the asynchronous API, by what the callback can see
of it: it fills the active buffer and reports what it has put there, asks for a next
one, changes over when the active one is full, and after `uart_rx_disable`, or an error,
stops: at most one more `UART_RX_RDY`, a release of each buffer it owns, and
`UART_RX_DISABLED`.

A step is one event of the driver with the whole callback, one statement of
`ble_write_thread`, or an expiry of `uart_work`.  `Owned` says what the buffers are to
go through.
-/
import NcsExp.NusBridge.Model

namespace NcsExp.NusBridge

open NcsExp.Theory
open NcsExp.UartAdapter (NULL UartEvent)

set_option autoImplicit false

/-! ## The driver -/

/-- `late` says whether a stopping receiver may still report. -/
inductive Phase
  | off
  | on
  | stopping (late : Bool)
  deriving DecidableEq

structure Driver where
  phase : Phase
  active : Option Buf
  /-- The bytes reported of the active buffer. -/
  filled : Nat
  next : Option Buf
  deriving DecidableEq

namespace Driver

def owned (d : Driver) : List Buf := d.active.toList ++ d.next.toList

/-- Whether `UART_RX_RDY` may come. -/
def reports (d : Driver) : Bool :=
  match d.phase with
  | .off => false
  | .on => true
  | .stopping late => late

def stopping (d : Driver) : Bool :=
  match d.phase with
  | .stopping _ => true
  | _ => false

/-- A call by the application; one the driver refuses changes nothing. -/
def call (d : Driver) : UartCall → Driver
  | .rxEnable buf _ _ =>
      if d.phase = .off then { phase := .on, active := some buf, filled := 0, next := none } else d
  | .rxBufRsp buf _ => if d.phase = .on ∧ d.next = none then { d with next := some buf } else d
  | .rxDisable => if d.phase = .on then { d with phase := .stopping true } else d
  | .tx _ _ _ => d

/-- More bytes are in the active buffer; the last report of a stopping receiver. -/
def fill (d : Driver) (n : Nat) : Driver :=
  { d with
    filled := d.filled + n
    phase := if d.phase = .on then .on else .stopping false }

/-- The change to the next buffer; without one the receiver stops. -/
def switched (d : Driver) : Driver where
  phase := if d.next.isSome then .on else .stopping false
  active := d.next
  filled := 0
  next := none

/-- A stopping receiver gives a buffer back. -/
def release (d : Driver) (buf : Buf) : Driver :=
  let d := { d with phase := .stopping false }
  if d.active = some buf then { d with active := none } else { d with next := none }

end Driver

/-! ## The machine -/

structure Machine where
  app : App
  mem : Memory UInt8
  drv : Driver
  ble : BlePc
  /-- All the bytes reported so far. -/
  received : List UInt8

/-- The callback, and what its calls do. -/
def callback (c : Config) (alloc : Option Buf) (m : Machine) (evt : UartEvent) : Machine :=
  let done := uartCb c m.mem alloc m.app evt
  { m with app := done.1, drv := done.2.foldl Driver.call m.drv }

inductive Act
  | rxRdy (bytes : List UInt8)
  | rxBufRequest (alloc : Option Buf)
  /-- The active buffer is full: it is released. -/
  | switch
  | rxBufReleased (buf : Buf)
  | rxStopped (reason : Int)
  | rxDisabled (alloc : Option Buf)
  | uartWork (alloc : Option Buf)
  | ble
  deriving DecidableEq

def step (c : Config) (m : Machine) : Act → Option Machine
  | .rxRdy bytes =>
      match m.drv.active with
      | some buf =>
          if m.drv.reports ∧ bytes ≠ [] ∧ m.drv.filled + bytes.length ≤ c.uartBufSize then
            let m' := { m with
              mem := m.mem.store (buf + m.drv.filled) bytes
              drv := m.drv.fill bytes.length
              received := m.received ++ bytes }
            some (callback c none m' (.rxRdy buf bytes.length m.drv.filled))
          else none
      | none => none
  | .rxBufRequest alloc =>
      if m.drv.phase = .on ∧ m.drv.next = none ∧ ∀ buf ∈ alloc, Fresh c m.app buf then
        some (callback c alloc m .rxBufRequest)
      else none
  | .switch =>
      match m.drv.active with
      | some buf =>
          if m.drv.phase = .on ∧ m.drv.filled = c.uartBufSize then
            some (callback c none { m with drv := m.drv.switched } (.rxBufReleased buf))
          else none
      | none => none
  | .rxBufReleased buf =>
      if m.drv.stopping ∧ buf ∈ m.drv.owned then
        some (callback c none { m with drv := m.drv.release buf } (.rxBufReleased buf))
      else none
  | .rxStopped reason =>
      if m.drv.phase = .on then
        some (callback c none { m with drv := { m.drv with phase := .stopping true } }
          (.rxStopped reason))
      else none
  | .rxDisabled alloc =>
      if m.drv.stopping ∧ m.drv.owned = [] ∧ ∀ buf ∈ alloc, Fresh c m.app buf then
        some (callback c alloc { m with drv := { m.drv with phase := .off } } .rxDisabled)
      else none
  | .uartWork alloc =>
      if m.app.uartWork ∧ ∀ buf ∈ alloc, Fresh c m.app buf then
        let done := uartWorkHandler c alloc { m.app with uartWork := false }
        some { m with app := done.1, drv := done.2.foldl Driver.call m.drv }
      else none
  | .ble =>
      (bleWriteThread m.mem m.app m.ble).map fun done => { m with app := done.1, ble := done.2 }

/-- Before `k_malloc` has been called. -/
def App.zero : App where
  currentBuf := NULL
  abortedLen := 0
  bufRelease := false
  abortedBuf := NULL
  len := fun _ => 0
  heap := []
  fifoUartTxData := []
  fifoUartRxData := []
  uartWork := false
  log := []

/-- Right after `uart_init`. -/
def Init (m : Machine) : Prop :=
  ∃ rx mem, rx ≠ NULL ∧ m =
    { app := App.zero.kMalloc rx
      mem := mem
      drv := { phase := .on, active := some rx, filled := 0, next := none }
      ble := .fifoGet
      received := [] }

/-! ## What the buffers go through -/

/-- A buffer between `k_malloc` and `k_free`, before and after it is put in the FIFO. -/
inductive Life
  | free
  | held
  | queued
  deriving DecidableEq

def Life.observe (life : Buf → Life) : Entry → Buf → Life
  | .allocated buf, b => if b = buf then .held else life b
  | .freed buf, b => if b = buf then .free else life b
  | .rxPut buf _, b => if b = buf then .queued else life b
  | .nusSent _ _, b => life b

def life (log : List Entry) : Buf → Life := present Life.observe (fun _ => .free) log

/-- An allocated buffer is put in the FIFO once at most, and freed once at most. -/
def Once (past : List Entry) : Entry → Prop
  | .allocated buf => life past buf = .free
  | .freed buf => life past buf ≠ .free
  | .rxPut buf _ => life past buf = .held
  | .nusSent buf _ => life past buf = .queued

/-- The buffers put in the FIFO, with their contents at that moment. -/
def puts (log : List Entry) : List (Buf × List UInt8) :=
  log.filterMap fun
    | .rxPut buf bytes => some (buf, bytes)
    | _ => none

/-- The buffers sent over Bluetooth, with their contents at that moment. -/
def sents (log : List Entry) : List (Buf × List UInt8) :=
  log.filterMap fun
    | .nusSent buf bytes => some (buf, bytes)
    | _ => none

/-- The buffer `ble_write_thread` has taken. -/
def BlePc.holds : BlePc → List Buf
  | .fifoGet => []
  | .nusSend buf => [buf]
  | .free buf => [buf]

/-- The buffer `ble_write_thread` is about to send. -/
def BlePc.unsent : BlePc → List Buf
  | .nusSend buf => [buf]
  | _ => []

/-- The bytes in the active buffer that have not been put in the FIFO. -/
def Machine.pending (c : Config) (m : Machine) : List UInt8 :=
  match m.drv.active with
  | some buf =>
      if m.drv.filled < c.uartBufSize ∧ life m.app.log buf = .held then m.mem.load buf m.drv.filled
      else []
  | none => []

/-- What holds of the buffers and of the bytes at every moment. -/
structure Owned (c : Config) (m : Machine) : Prop where
  once : Always Once m.app.log
  /-- What is allocated is with the driver or with `ble_write_thread`, which frees it. -/
  accounted : ∀ b, life m.app.log b ≠ .free →
    b ∈ m.drv.owned ∨ b ∈ m.ble.holds ++ m.app.fifoUartRxData
  /-- A queued buffer still has the contents with which it was put. -/
  unmodified : puts m.app.log = sents m.app.log ++
    (m.ble.unsent ++ m.app.fifoUartRxData).map fun b => (b, m.app.content m.mem b)
  stream : m.received = (puts m.app.log).flatMap (·.2) ++ m.pending c

/-- No buffer is freed before the driver has released it. -/
def ReleasedFirst (m : Machine) : Prop := ∀ b ∈ m.drv.owned, life m.app.log b ≠ .free

/-- No `UART_RX_RDY` comes once the receiver stops, and no error stops it while it has a
buffer that is not full. -/
def undisturbed (c : Config) (m : Machine) : Act → Bool
  | .rxRdy _ => m.drv.phase == .on
  | .rxStopped _ => m.drv.filled == c.uartBufSize && m.drv.next == none
  | _ => true

/-- Moreover, `ble_write_thread` frees no buffer that the driver still has. -/
def patient (c : Config) (m : Machine) : Act → Bool
  | .ble =>
      match m.ble with
      | .free buf => !m.drv.owned.contains buf
      | _ => true
  | a => undisturbed c m a

end NcsExp.NusBridge
