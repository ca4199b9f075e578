/-
# NcsExp.FlashStream.Model -- streaming to flash across the two cores

`throughput_with_flash_write`: the network core forwards each packet it receives to
the application core and waits for an acknowledgement; the application core writes
the packets to flash.  Two RPMsg queues carry the packets and the acknowledgements
in order, and each core's `endpoint_cb` gives a binary `data_rx_sem`.

* The network core is in `throughput_received` (`forward`, then `receiveMessage`)
  or waits for the next packet of the Bluetooth link.
* `appTask` is one statement of `app_task`, by its `pc`.
* A delivery runs the receiving core's `endpoint_cb` on the oldest message.

`forwarded` and `written` record the packets sent and the blocks passed to
`stream_flash_buffered_write`.
-/
import NcsExp.Theory.Runs
import NcsExp.Theory.Semaphore
import Mathlib.Data.List.Basic

namespace NcsExp.FlashStream

open NcsExp.Theory

set_option autoImplicit false

/-! ## Data -/

/-- A packet of the Bluetooth link; `received_data` has room for 250 bytes. -/
structure Packet where
  bytes : List UInt8
  nonempty : 0 < bytes.length
  fits : bytes.length ≤ 250
  deriving DecidableEq

/-- The statements of `app_task`. -/
inductive AppPc
  | sendFirst
  | take
  | test
  | writeLast
  | write
  | sendAck
  | finished
  deriving DecidableEq

/-- The application core; `written` lists the blocks passed to the stream. -/
structure App where
  pc : AppPc
  dataRxSem : Semaphore 1
  receivedData : List UInt8
  receivedDataLen : Nat
  written : List (List UInt8)
  deriving DecidableEq

inductive NetPc
  | idle
  | receiveMessage
  deriving DecidableEq

/-- The network core. -/
structure Net where
  pc : NetPc
  dataRxSem : Semaphore 1
  dummyReceivedData : UInt8
  deriving DecidableEq

/-- Both cores and the messages in flight, oldest first. -/
structure Machine where
  app : App
  net : Net
  toApp : List Packet
  toNet : List UInt32
  forwarded : List Packet
  deriving DecidableEq

/-! ## The application core -/

/-- `data_handler`, lines 71-75. -/
def dataHandler (a : App) (data : List UInt8) : App :=
  { a with
    receivedData := data ++ a.receivedData.drop data.length
    receivedDataLen := data.length }

/-- The application core's `endpoint_cb`, lines 78-85. -/
def App.endpointCb (a : App) (data : List UInt8) : App :=
  let a := dataHandler a data
  { a with dataRxSem := a.dataRxSem.give }

/-- The block `app_task` passes to `stream_flash_buffered_write`. -/
def App.block (a : App) : List UInt8 := a.receivedData.take a.receivedDataLen

/-- The message of every acknowledgement. -/
def message : UInt32 := 0

/-- One statement of `app_task`, lines 135-160; `none` while it waits for the
semaphore or has ended. -/
def appTask (m : Machine) : Option Machine :=
  match m.app.pc with
  | .sendFirst => some { m with app := { m.app with pc := .take }, toNet := m.toNet ++ [message] }
  | .take => m.app.dataRxSem.take.map fun sem =>
      { m with app := { m.app with pc := .test, dataRxSem := sem } }
  | .test => some { m with app :=
      { m.app with pc := if m.app.receivedDataLen = 200 then .writeLast else .write } }
  | .writeLast => some { m with app :=
      { m.app with pc := .finished, written := m.app.written ++ [m.app.block] } }
  | .write => some { m with app :=
      { m.app with pc := .sendAck, written := m.app.written ++ [m.app.block] } }
  | .sendAck => some { m with app := { m.app with pc := .take }, toNet := m.toNet ++ [message] }
  | .finished => none

/-! ## The network core -/

/-- The network core's `endpoint_cb`, lines 71-78. -/
def Net.endpointCb (n : Net) (data : UInt32) : Net :=
  { n with dummyReceivedData := data.toUInt8, dataRxSem := n.dataRxSem.give }

/-- `throughput_received` up to `receive_message`, lines 392-395. -/
def throughputReceived (m : Machine) (p : Packet) : Option Machine :=
  if m.net.pc = .idle then
    some { m with
      net := { m.net with pc := .receiveMessage }
      toApp := m.toApp ++ [p]
      forwarded := m.forwarded ++ [p] }
  else none

/-- `receive_message`, lines 82-86: the semaphore is taken. -/
def receiveMessage (m : Machine) : Option Machine :=
  if m.net.pc = .receiveMessage then
    m.net.dataRxSem.take.map fun sem =>
      { m with net := { m.net with pc := .idle, dataRxSem := sem } }
  else none

/-! ## Steps -/

inductive Act
  | forward (p : Packet)
  | receiveMessage
  | appTask
  | deliverToApp
  | deliverToNet

def step (m : Machine) : Act → Option Machine
  | .forward p => throughputReceived m p
  | .receiveMessage => receiveMessage m
  | .appTask => appTask m
  | .deliverToApp =>
      match m.toApp with
      | [] => none
      | p :: rest => some { m with app := m.app.endpointCb p.bytes, toApp := rest }
  | .deliverToNet =>
      match m.toNet with
      | [] => none
      | data :: rest => some { m with net := m.net.endpointCb data, toNet := rest }

/-- Both cores started, nothing sent yet. -/
def start : Machine where
  app := { pc := .sendFirst, dataRxSem := .empty, receivedData := List.replicate 250 0,
           receivedDataLen := 0, written := [] }
  net := { pc := .idle, dataRxSem := .empty, dummyReceivedData := 0 }
  toApp := []
  toNet := []
  forwarded := []

def Init (m : Machine) : Prop := m = start

theorem init_start : Init start := rfl

/-- The byte blocks forwarded so far. -/
def Machine.blocks (m : Machine) : List (List UInt8) := m.forwarded.map Packet.bytes

/-! ## What a delivery leaves in the buffer -/

@[simp] theorem block_dataHandler (a : App) (data : List UInt8) :
    (dataHandler a data).block = data := by
  simp [dataHandler, App.block]

@[simp] theorem block_endpointCb (a : App) (data : List UInt8) :
    (a.endpointCb data).block = data :=
  block_dataHandler a data

end NcsExp.FlashStream
