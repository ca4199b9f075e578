/-
# NcsExp.NusBridge.Model -- the two ends of the NUS bridge

The peripheral forwards what its UART receives to Bluetooth and back.  `uartCb` is the
callback of the UART driver, for every event of the asynchronous API; the thread
`ble_write_thread` and the callback `bt_receive_cb` are cut into statements where
another party can come between.

* `App` holds the statics of `uart_cb`, the allocated buffers with their `len`, and the
  two FIFOs.  What the buffers contain is in the memory that the driver writes too.
* A callback returns the calls it makes to the driver, in order; the return codes of
  these calls are only logged by the source.
* Whether `k_malloc` succeeds, and which block it returns, is up to the environment
  (`Fresh`).

A `struct uart_data_t` is named by the address of its `data`, so that `CONTAINER_OF`
is the identity.
-/
import NcsExp.UartAdapter.Model
import Mathlib.Algebra.Group.Nat.Defs
import Mathlib.Data.List.Count

namespace NcsExp.NusBridge

open NcsExp.Theory
open NcsExp.UartAdapter (NULL UartEvent SYS_FOREVER_MS)

set_option autoImplicit false

/-! ## Data -/

/-- `CONFIG_BT_NUS_UART_BUFFER_SIZE`, which leaves room for a byte and a line feed and
fits `len`, and `CONFIG_BT_NUS_UART_RX_WAIT_TIME`. -/
structure Config where
  uartBufSize : Nat
  uartWaitForRx : Int
  room : 2 ≤ uartBufSize
  fits : uartBufSize < 2 ^ 16

/-- Buffers of four bytes. -/
def tiny : Config where
  uartBufSize := 4
  uartWaitForRx := 50
  room := by decide
  fits := by decide

/-- The address of the `data` of a `struct uart_data_t`. -/
abbrev Buf := Nat

/-- `'\r'` and `'\n'`. -/
def cr : UInt8 := 13
def lf : UInt8 := 10

inductive Entry
  | allocated (buf : Buf)
  | freed (buf : Buf)
  | rxPut (buf : Buf) (bytes : List UInt8)
  | nusSent (buf : Buf) (bytes : List UInt8)
  deriving DecidableEq

structure App where
  currentBuf : Nat
  abortedLen : Nat
  bufRelease : Bool
  abortedBuf : Nat
  /-- `buf->len`. -/
  len : Buf → Nat
  heap : List Buf
  fifoUartTxData : List Buf
  fifoUartRxData : List Buf
  /-- `uart_work` is scheduled. -/
  uartWork : Bool
  log : List Entry

/-- A call of the driver's API. -/
inductive UartCall
  | tx (buf len : Nat) (timeout : Int)
  | rxEnable (buf len : Nat) (timeout : Int)
  | rxBufRsp (buf len : Nat)
  | rxDisable
  deriving DecidableEq

namespace App

def note (app : App) (entry : Entry) : App := { app with log := app.log ++ [entry] }

def setLen (app : App) (buf : Buf) (len : Nat) : App :=
  { app with len := fun b => if b = buf then len else app.len b }

/-- `k_malloc` that returns `buf`, and `buf->len = 0`. -/
def kMalloc (app : App) (buf : Buf) : App :=
  { (app.note (.allocated buf)).setLen buf 0 with heap := buf :: app.heap }

def kFree (app : App) (buf : Buf) : App :=
  { app.note (.freed buf) with heap := app.heap.erase buf }

/-- What a buffer holds. -/
def content (app : App) (mem : Memory UInt8) (buf : Buf) : List UInt8 := mem.load buf (app.len buf)

/-- `k_fifo_put(&fifo_uart_rx_data, buf)`. -/
def rxPut (app : App) (mem : Memory UInt8) (buf : Buf) : App :=
  { app.note (.rxPut buf (app.content mem buf)) with fifoUartRxData := app.fifoUartRxData ++ [buf] }

end App

/-- Two blocks of `size` bytes do not overlap. -/
def Apart (size p q : Nat) : Prop := p + size ≤ q ∨ q + size ≤ p

instance (size p q : Nat) : Decidable (Apart size p q) := inferInstanceAs (Decidable (_ ∨ _))

/-- What `k_malloc` may return. -/
def Fresh (c : Config) (app : App) (buf : Buf) : Prop :=
  buf ≠ NULL ∧ ∀ p ∈ app.heap, Apart c.uartBufSize buf p

instance (c : Config) (app : App) (buf : Buf) : Decidable (Fresh c app buf) :=
  inferInstanceAs (Decidable (_ ∧ _))

/-! ## The UART callback -/

/-- `uart_work_handler`, lines 207-221; `UART_RX_DISABLED`, lines 147-161, is the same. -/
def uartWorkHandler (c : Config) (alloc : Option Buf) (app : App) : App × List UartCall :=
  match alloc with
  | some buf => (app.kMalloc buf, [.rxEnable buf c.uartBufSize c.uartWaitForRx])
  | none => ({ app with uartWork := true }, [])

/-- `UART_TX_DONE`, lines 99-127. -/
def txDone (app : App) (buf len : Nat) : App × List UartCall :=
  if len = 0 ∨ buf = NULL then (app, [])
  else
    let app :=
      if app.abortedBuf ≠ NULL then
        { app with abortedBuf := NULL, abortedLen := 0 }.kFree app.abortedBuf
      else app.kFree buf
    match app.fifoUartTxData with
    | [] => (app, [])
    | buf :: rest => ({ app with fifoUartTxData := rest }, [.tx buf (app.len buf) SYS_FOREVER_MS])

/-- `UART_RX_RDY`, lines 129-145. -/
def rxRdy (c : Config) (mem : Memory UInt8) (app : App) (buf len : Nat) : App × List UartCall :=
  let app := { app.setLen buf ((app.len buf + len) % 2 ^ 16) with bufRelease := false }
  if app.len buf = c.uartBufSize then (app.rxPut mem buf, [])
  else if mem (buf + (app.len buf - 1)) = lf ∨ mem (buf + (app.len buf - 1)) = cr then
    ({ app.rxPut mem buf with currentBuf := buf, bufRelease := true }, [.rxDisable])
  else (app, [])

/-- `UART_RX_BUF_REQUEST`, lines 163-173. -/
def rxBufRequest (c : Config) (alloc : Option Buf) (app : App) : App × List UartCall :=
  match alloc with
  | some buf => (app.kMalloc buf, [.rxBufRsp buf c.uartBufSize])
  | none => (app, [])

/-- `UART_RX_BUF_RELEASED`, lines 175-185. -/
def rxBufReleased (app : App) (buf : Nat) : App :=
  if app.bufRelease ∧ app.currentBuf ≠ buf then
    { app.kFree buf with bufRelease := false, currentBuf := NULL }
  else app

/-- `size_t` subtraction on the 32-bit target. -/
def sizeSub (a b : Nat) : Nat := (a + 2 ^ 32 - b) % 2 ^ 32

/-- `UART_TX_ABORTED`, lines 187-200. -/
def txAborted (app : App) (buf len : Nat) : App × List UartCall :=
  let app := if app.abortedBuf = NULL then { app with abortedBuf := buf } else app
  let app := { app with abortedLen := (app.abortedLen + len) % 2 ^ 32 }
  (app, [.tx (app.abortedBuf + app.abortedLen) (sizeSub (app.len app.abortedBuf) app.abortedLen)
    SYS_FOREVER_MS])

/-- `uart_cb`, lines 88-205; `alloc` is what `k_malloc` returns if it is called. -/
def uartCb (c : Config) (mem : Memory UInt8) (alloc : Option Buf) (app : App) :
    UartEvent → App × List UartCall
  | .txDone buf len => txDone app buf len
  | .rxRdy buf len _ => rxRdy c mem app buf len
  | .rxDisabled => uartWorkHandler c alloc app
  | .rxBufRequest => rxBufRequest c alloc app
  | .rxBufReleased buf => (rxBufReleased app buf, [])
  | .txAborted buf len => txAborted app buf len
  | .rxStopped _ => (app, [])

/-! ## The Bluetooth side -/

/-- The next statement of `ble_write_thread`, lines 627-637. -/
inductive BlePc
  | fifoGet
  | nusSend (buf : Buf)
  | free (buf : Buf)
  deriving DecidableEq

/-- One statement of `ble_write_thread`; `bt_nus_send` failing is only logged. -/
def bleWriteThread (mem : Memory UInt8) (app : App) : BlePc → Option (App × BlePc)
  | .fifoGet =>
      match app.fifoUartRxData with
      | [] => none
      | buf :: rest => some ({ app with fifoUartRxData := rest }, .nusSend buf)
  | .nusSend buf => some (app.note (.nusSent buf (app.content mem buf)), .free buf)
  | .free buf => some (app.kFree buf, .fifoGet)

/-- The length of the chunk that `bt_receive_cb` copies at `pos`, lines 482-489. -/
def chunkLen (c : Config) (len pos : Nat) : Nat :=
  if c.uartBufSize - 1 < len - pos then c.uartBufSize - 1 else len - pos

/-- The chunk at `pos`, lines 482-501: the last one gets a line feed if the peer's data
ends with a carriage return. -/
def chunk (c : Config) (data : List UInt8) (pos : Nat) : List UInt8 :=
  let bytes := (data.drop pos).take (chunkLen c data.length pos)
  if pos + chunkLen c data.length pos = data.length ∧ data.getLast? = some cr then bytes ++ [lf]
  else bytes

/-- `k_malloc` of `tx` and the copy of its bytes, lines 475-501. -/
def App.fill (app : App) (tx : Buf) (bytes : List UInt8) : App :=
  (app.kMalloc tx).setLen tx bytes.length

/-- `k_fifo_put(&fifo_uart_tx_data, tx)`. -/
def App.txPut (app : App) (tx : Buf) : App :=
  { app with fifoUartTxData := app.fifoUartTxData ++ [tx] }

/-! ## Filled buffers -/

@[simp] theorem App.fill_abortedBuf (app : App) (tx : Buf) (bytes : List UInt8) :
    (app.fill tx bytes).abortedBuf = app.abortedBuf := rfl

@[simp] theorem App.fill_abortedLen (app : App) (tx : Buf) (bytes : List UInt8) :
    (app.fill tx bytes).abortedLen = app.abortedLen := rfl

@[simp] theorem App.txPut_abortedBuf (app : App) (tx : Buf) :
    (app.txPut tx).abortedBuf = app.abortedBuf := rfl

@[simp] theorem App.txPut_abortedLen (app : App) (tx : Buf) :
    (app.txPut tx).abortedLen = app.abortedLen := rfl

theorem Config.pos (c : Config) : 0 < c.uartBufSize := by
  have room := c.room
  omega

section Fill

variable {c : Config} {app : App} {mem : Memory UInt8} {tx b : Buf} {bytes : List UInt8}

/-- There is always another block. -/
theorem exists_fresh (c : Config) (app : App) : ∃ b, Fresh c app b := by
  have bounded : ∀ l : List Nat, ∃ top : Nat, ∀ p ∈ l, p + c.uartBufSize ≤ top := by
    intro l
    induction l with
    | nil => exact ⟨0, by simp⟩
    | cons p rest ih =>
        obtain ⟨top, below⟩ := ih
        refine ⟨max top (p + c.uartBufSize), fun q member => ?_⟩
        rcases List.mem_cons.mp member with rfl | inRest
        · exact Nat.le_max_right ..
        · exact Nat.le_trans (below q inRest) (Nat.le_max_left ..)
  obtain ⟨top, below⟩ := bounded app.heap
  refine ⟨top + 1, Nat.succ_ne_zero top, fun p member => Or.inr ?_⟩
  have fits := below p member
  omega

/-- A fresh block is none of the allocated ones. -/
theorem Fresh.ne (fresh : Fresh c app tx) (live : b ∈ app.heap) : b ≠ tx := by
  rintro rfl
  have overlap := fresh.2 b live
  have pos := c.pos
  unfold Apart at overlap
  omega

theorem fill_content : (app.fill tx bytes).content (mem.store tx bytes) tx = bytes := by
  have len : (app.fill tx bytes).len tx = bytes.length := if_pos rfl
  rw [App.content, len]
  exact Memory.load_store_same ..

theorem fill_len (live : b ≠ tx) : (app.fill tx bytes).len b = app.len b :=
  (if_neg live).trans (if_neg live)

/-- What is copied in a fresh block changes no allocated one. -/
theorem load_fill (fresh : Fresh c app tx) (live : b ∈ app.heap) {offset n : Nat}
    (inside : offset + n ≤ c.uartBufSize) (fits : bytes.length ≤ c.uartBufSize) :
    (mem.store tx bytes).load (b + offset) n = mem.load (b + offset) n := by
  rcases fresh.2 b live with above | below
  · exact Memory.load_store_above mem bytes (by omega)
  · exact Memory.load_store_below mem bytes (by omega)

end Fill

end NcsExp.NusBridge
