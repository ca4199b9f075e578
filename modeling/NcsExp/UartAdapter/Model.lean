/-
# NcsExp.UartAdapter.Model -- the UART async adapter as a machine with a call stack

`uart_async_adapter.c` offers Zephyr's asynchronous UART API on top of a target
driver that only has the interrupt API.  Its functions call the application back
(`user_callback`), and the application may call the adapter again before it
returns.  An activation in progress is therefore kept as the statements it still
has to run, one `Frame` for each, innermost first; what runs between two
callbacks is one step.

* The `Dev` functions follow the source line by line: the API calls (`tx`,
  `txAbort`, `rxEnable`, `rxBufRsp`, `rxDisable`), the interrupt handler
  (`irqPending` and the frames it leaves) and the two timer expiries.
* The environment chooses everything the source does not compute: who calls what
  and when, what the target's FIFOs and status registers answer (`Answer`), and
  what the application does inside a callback.
* `log` records what can be observed, oldest first; each event carries the
  adapter data at the moment it is delivered.

An application buffer is a `Buffer`, which is not `NULL`.  The target's private
data is a second `AdapterData` of arbitrary contents, since `on_error` hands the
target to `rx_disable`, which reads it as such.
-/
import NcsExp.Theory.Runs
import NcsExp.Theory.History
import NcsExp.Theory.Memory

namespace NcsExp.UartAdapter

open NcsExp.Theory

set_option autoImplicit false

/-! ## Data -/

/-- The null pointer; a `uint8_t *` is a flat address. -/
abbrev NULL : Nat := 0

/-- `SYS_FOREVER_MS`: the timeout that never expires. -/
def SYS_FOREVER_MS : Int := -1

def EBUSY : Int := 16

def EFAULT : Int := 14

/-- A buffer of the application. -/
structure Buffer where
  addr : Nat
  nonNull : addr ≠ NULL
  deriving DecidableEq

/-- A numeral that is not 0 is the address of a buffer. -/
instance (n : Nat) : OfNat Buffer (n + 1) := ⟨⟨n + 1, Nat.succ_ne_zero n⟩⟩

/-- The two devices the source handles: the adapter and the device it drives. -/
inductive Dev
  | adapter
  | target
  deriving DecidableEq

/-- The `tx` part of `struct uart_async_adapter_data`; a running timer holds the
duration it was started with. -/
structure TxData where
  buf : Nat
  currBuf : Nat
  sizeLeft : Nat
  timeoutTimer : Option Int
  enabled : Bool
  deriving DecidableEq

/-- The `rx` part of `struct uart_async_adapter_data`. -/
structure RxData where
  buf : Nat
  currBuf : Nat
  lastNotifyBuf : Nat
  sizeLeft : Nat
  nextBuf : Nat
  nextBufLen : Nat
  timeout : Int
  timeoutTimer : Option Int
  enabled : Bool
  deriving DecidableEq

/-- `struct uart_async_adapter_data`; `userCallback` says whether one is set. -/
structure AdapterData where
  target : Dev
  userCallback : Bool
  tx : TxData
  rx : RxData
  deriving DecidableEq

/-- The interrupt enable bits of a device. -/
structure IrqEnable where
  tx : Bool
  rx : Bool
  err : Bool
  deriving DecidableEq

/-- `struct uart_event`. -/
inductive UartEvent
  | txDone (buf len : Nat)
  | txAborted (buf len : Nat)
  | rxRdy (buf : Nat) (len offset : Nat)
  | rxBufRequest
  | rxBufReleased (buf : Nat)
  | rxDisabled
  | rxStopped (reason : Int)
  deriving DecidableEq

/-- A call of the adapter's asynchronous API. -/
inductive ApiCall
  | tx (buf : Buffer) (len : Nat) (timeout : Int)
  | txAbort
  | rxEnable (buf : Buffer) (len : Nat) (timeout : Int)
  | rxBufRsp (buf : Buffer) (len : Nat)
  | rxDisable
  deriving DecidableEq

/-- One observation.  `event` carries the bytes its range shows in memory. -/
inductive Obs
  | call (call : ApiCall) (ret : Int)
  | txTimeout
  | rxTimeout
  | event (dev : Dev) (evt : UartEvent) (shown : List UInt8) (data : AdapterData)
  | switched (dev : Dev) (buf len : Nat)
  | stored (dst : Nat) (bytes : List UInt8)
  | dropped (bytes : List UInt8)
  | pushed (src : Nat) (bytes : List UInt8)
  deriving DecidableEq

/-- Where an activation goes on: inside the callback, after a callback, or with the
target's answer. -/
inductive Frame
  | userCallback (dev : Dev) (evt : UartEvent)
  | notifyRxBufferReq (dev : Dev)
  | rxDisableWhile (dev : Dev)
  | onTxReady
  | onRxReadySwitch
  | onRxReadyRead (notifyNow : Bool)
  | onRxReadyDrop (cnt : Nat) (notifyNow : Bool)
  | irqPending
  | irqTxReady
  | irqTxComplete
  | irqRxReady
  | irqError
  | onErrorStopped (rxErr : Int)
  deriving DecidableEq

/-- The whole system: both devices' data, memory, the call stack and the log. -/
structure Machine where
  data : Dev → AdapterData
  irq : Dev → IrqEnable
  mem : Memory UInt8
  stack : List Frame
  log : List Obs

namespace Machine

def setTx (m : Machine) (dev : Dev) (t : TxData) : Machine :=
  { m with data := fun x => if x = dev then { m.data x with tx := t } else m.data x }

def setRx (m : Machine) (dev : Dev) (r : RxData) : Machine :=
  { m with data := fun x => if x = dev then { m.data x with rx := r } else m.data x }

def setIrq (m : Machine) (dev : Dev) (f : IrqEnable → IrqEnable) : Machine :=
  { m with irq := fun x => if x = dev then f (m.irq x) else m.irq x }

def store (m : Machine) (dst : Nat) (bytes : List UInt8) : Machine :=
  { m with mem := m.mem.store dst bytes }

def push (m : Machine) (frames : List Frame) : Machine := { m with stack := frames ++ m.stack }

def note (m : Machine) (o : Obs) : Machine := { m with log := m.log ++ [o] }

section

variable (m : Machine) (dev x : Dev) (t : TxData) (r : RxData) (f : IrqEnable → IrqEnable)
  (p : Nat) (bytes : List UInt8) (frames : List Frame) (o : Obs)

@[simp] theorem setTx_tx : ((m.setTx dev t).data dev).tx = t := by simp [setTx]
@[simp] theorem setTx_rx : ((m.setTx dev t).data x).rx = (m.data x).rx := by
  simp only [setTx]; split <;> rfl
@[simp] theorem setTx_target : ((m.setTx dev t).data x).target = (m.data x).target := by
  simp only [setTx]; split <;> rfl
@[simp] theorem setTx_userCallback :
    ((m.setTx dev t).data x).userCallback = (m.data x).userCallback := by
  simp only [setTx]; split <;> rfl
@[simp] theorem setTx_mem : (m.setTx dev t).mem = m.mem := rfl
@[simp] theorem setTx_stack : (m.setTx dev t).stack = m.stack := rfl
@[simp] theorem setTx_log : (m.setTx dev t).log = m.log := rfl

@[simp] theorem setRx_rx : ((m.setRx dev r).data dev).rx = r := by simp [setRx]
@[simp] theorem setRx_tx : ((m.setRx dev r).data x).tx = (m.data x).tx := by
  simp only [setRx]; split <;> rfl
@[simp] theorem setRx_target : ((m.setRx dev r).data x).target = (m.data x).target := by
  simp only [setRx]; split <;> rfl
@[simp] theorem setRx_userCallback :
    ((m.setRx dev r).data x).userCallback = (m.data x).userCallback := by
  simp only [setRx]; split <;> rfl
@[simp] theorem setRx_target_rx :
    ((m.setRx .target r).data .adapter).rx = (m.data .adapter).rx := rfl
@[simp] theorem setRx_mem : (m.setRx dev r).mem = m.mem := rfl
@[simp] theorem setRx_stack : (m.setRx dev r).stack = m.stack := rfl
@[simp] theorem setRx_log : (m.setRx dev r).log = m.log := rfl

@[simp] theorem setIrq_data : (m.setIrq dev f).data = m.data := rfl
@[simp] theorem setIrq_mem : (m.setIrq dev f).mem = m.mem := rfl
@[simp] theorem setIrq_stack : (m.setIrq dev f).stack = m.stack := rfl
@[simp] theorem setIrq_log : (m.setIrq dev f).log = m.log := rfl

@[simp] theorem store_data : (m.store p bytes).data = m.data := rfl
@[simp] theorem store_mem : (m.store p bytes).mem = m.mem.store p bytes := rfl
@[simp] theorem store_stack : (m.store p bytes).stack = m.stack := rfl
@[simp] theorem store_log : (m.store p bytes).log = m.log := rfl

@[simp] theorem push_data : (m.push frames).data = m.data := rfl
@[simp] theorem push_mem : (m.push frames).mem = m.mem := rfl
@[simp] theorem push_stack : (m.push frames).stack = frames ++ m.stack := rfl
@[simp] theorem push_log : (m.push frames).log = m.log := rfl

@[simp] theorem note_data : (m.note o).data = m.data := rfl
@[simp] theorem note_mem : (m.note o).mem = m.mem := rfl
@[simp] theorem note_stack : (m.note o).stack = m.stack := rfl
@[simp] theorem note_log : (m.note o).log = m.log ++ [o] := rfl

end

end Machine

open Machine

/-! ## Notifications -/

/-- The bytes an event's range shows. -/
def shown (m : Machine) : UartEvent → List UInt8
  | .rxRdy buf len offset => m.mem.load (buf + offset) len
  | _ => []

/-- `user_callback`, lines 48-55. -/
def userCallback (m : Machine) (dev : Dev) (evt : UartEvent) : Machine :=
  if (m.data dev).userCallback then
    (m.note (.event dev evt (shown m evt) (m.data dev))).push [.userCallback dev evt]
  else m

/-- `notify_rx_buffer`, lines 67-96. -/
def notifyRxBuffer (m : Machine) (dev : Dev) : Machine :=
  let r := (m.data dev).rx
  if r.buf ≠ NULL ∧ r.lastNotifyBuf < r.currBuf then
    userCallback (m.setRx dev { r with lastNotifyBuf := r.currBuf }) dev
      (.rxRdy r.buf (r.currBuf - r.lastNotifyBuf) (r.lastNotifyBuf - r.buf))
  else m

/-- The critical section of `switch_rx_buffer`, lines 124-130. -/
def switched (r : RxData) : RxData :=
  { r with
    buf := r.nextBuf
    currBuf := r.nextBuf
    lastNotifyBuf := r.nextBuf
    sizeLeft := r.nextBufLen
    nextBuf := NULL
    nextBufLen := 0 }

/-- `switch_rx_buffer`, lines 117-140; the request for a new buffer runs once the
release notification has returned. -/
def switchRxBuffer (m : Machine) (dev : Dev) (requestNew : Bool) : Machine :=
  let r := (m.data dev).rx
  let m := (m.setRx dev (switched r)).note (.switched dev r.nextBuf r.nextBufLen)
  let m := if requestNew then m.push [.notifyRxBufferReq dev] else m
  if r.buf ≠ NULL then userCallback m dev (.rxBufReleased r.buf) else m

/-! ## The asynchronous API -/

/-- `tx`, lines 142-175, with its return code. -/
def tx (m : Machine) (dev : Dev) (buf len : Nat) (timeout : Int) : Machine × Int :=
  let t := (m.data dev).tx
  if len = 0 then (m, 0)
  else if t.buf ≠ NULL then (m, -EBUSY)
  else
    let timer := if timeout ≠ SYS_FOREVER_MS then some timeout else t.timeoutTimer
    let m := m.setTx dev
      { buf := buf, currBuf := buf, sizeLeft := len, timeoutTimer := timer, enabled := true }
    (m.setIrq (m.data dev).target fun i => { i with tx := true }, 0)

/-- What `tx_abort` returns. -/
def txAbortRet (t : TxData) : Int := if t.buf = NULL then -EFAULT else 0

/-- `tx_abort`, lines 177-207; `entry` is what is observed of the call. -/
def txAbort (m : Machine) (dev : Dev) (entry : Obs) : Machine :=
  let t := (m.data dev).tx
  let m := (m.note entry).setIrq (m.data dev).target fun i => { i with tx := false }
  if t.buf = NULL then m.setTx dev { t with timeoutTimer := none, enabled := false }
  else
    userCallback
      (m.setTx dev
        { buf := NULL, currBuf := NULL, sizeLeft := 0, timeoutTimer := none, enabled := false })
      dev (.txAborted t.buf (t.currBuf - t.buf))

/-- The critical section of `rx_enable`, lines 217-226, with its return code. -/
def rxEnabled (r : RxData) (buf len : Nat) (timeout : Int) : RxData × Int :=
  let ret := if r.nextBuf ≠ NULL ∨ r.buf ≠ NULL then -EBUSY else 0
  ({ r with
    buf := NULL
    currBuf := NULL
    sizeLeft := 0
    nextBuf := buf
    nextBufLen := len
    timeout := timeout
    enabled := true }, ret)

/-- `rx_enable`, lines 210-233. -/
def rxEnable (m : Machine) (dev : Dev) (buf len : Nat) (timeout : Int) : Machine × Int :=
  let r := rxEnabled (m.data dev).rx buf len timeout
  ((m.setRx dev r.1).setIrq (m.data dev).target fun i => { i with rx := true, err := true }, r.2)

/-- `rx_buf_rsp`, lines 235-253. -/
def rxBufRsp (m : Machine) (dev : Dev) (buf len : Nat) : Machine × Int :=
  let r := (m.data dev).rx
  if r.nextBuf ≠ NULL then (m, -EBUSY)
  else (m.setRx dev { r with nextBuf := buf, nextBufLen := len }, 0)

/-- The loop of `rx_disable` and what follows it, lines 264-268; the loop goes on
when the release notification has returned. -/
def rxDisableWhile (m : Machine) (dev : Dev) : Machine :=
  if (m.data dev).rx.buf ≠ NULL then switchRxBuffer (m.push [.rxDisableWhile dev]) dev false
  else userCallback m dev .rxDisabled

/-- `rx_disable`, lines 255-271. -/
def rxDisable (m : Machine) (dev : Dev) : Machine :=
  let m := m.setRx dev { (m.data dev).rx with enabled := false }
  rxDisableWhile
    (m.setIrq (m.data dev).target fun i => { i with rx := false, err := false }) dev

/-- A call of the adapter by the application; what it returns is observed with
it, except that `rx_disable` always returns 0. -/
def apiCall (m : Machine) : ApiCall → Machine
  | .tx buf len timeout =>
      let done := tx m .adapter buf.addr len timeout
      done.1.note (.call (.tx buf len timeout) done.2)
  | .txAbort => txAbort m .adapter (.call .txAbort (txAbortRet (m.data .adapter).tx))
  | .rxEnable buf len timeout =>
      let done := rxEnable m .adapter buf.addr len timeout
      done.1.note (.call (.rxEnable buf len timeout) done.2)
  | .rxBufRsp buf len =>
      let done := rxBufRsp m .adapter buf.addr len
      done.1.note (.call (.rxBufRsp buf len) done.2)
  | .rxDisable => rxDisable (m.note (.call .rxDisable 0)) .adapter

/-! ## The interrupt handler -/

/-- The outcome of one `uart_fifo_read`: a negative code or the bytes read. -/
inductive FifoRead
  | error (code : Int)
  | bytes (bytes : List UInt8)

/-- What the driver promises of a read of at most `size` bytes. -/
def FifoRead.Fits (size : Nat) : FifoRead → Prop
  | .error code => code < 0
  | .bytes bs => bs.length ≤ size

instance (size : Nat) : (r : FifoRead) → Decidable (r.Fits size)
  | .error code => inferInstanceAs (Decidable (code < 0))
  | .bytes bs => inferInstanceAs (Decidable (bs.length ≤ size))

/-- The bytes read, none on an error (the source sets `ret` to 0). -/
def FifoRead.got : FifoRead → List UInt8
  | .error _ => []
  | .bytes bs => bs

/-- What the environment answers a statement that asks it. -/
inductive Answer
  | go
  | status (flag : Bool)
  | fifoFill (ret : Int)
  | fifoRead (ret : FifoRead)
  | errCheck (err : Int)

/-- `on_tx_ready` once `uart_fifo_fill` has answered, lines 389-396. -/
def onTxReady (m : Machine) (ret : Int) : Machine :=
  let t := (m.data .adapter).tx
  if ret ≤ 0 then m
  else
    let m := m.note (.pushed t.currBuf (m.mem.load t.currBuf ret.toNat))
    m.setTx .adapter
      { t with currBuf := t.currBuf + ret.toNat, sizeLeft := t.sizeLeft - ret.toNat }

/-- `on_tx_complete`, lines 404-438. -/
def onTxComplete (m : Machine) : Machine :=
  let t := (m.data .adapter).tx
  if t.sizeLeft = 0 then
    let m := m.setIrq (m.data .adapter).target fun i => { i with tx := false }
    if t.buf ≠ NULL then
      userCallback
        (m.setTx .adapter { t with buf := NULL, currBuf := NULL, sizeLeft := 0, enabled := false })
        .adapter (.txDone t.buf (t.currBuf - t.buf))
    else m.setTx .adapter { t with enabled := false }
  else m

/-- The loop body up to the second test of `size_left`, lines 450-461; a flushed
buffer is switched once its notification has returned. -/
def onRxReadyDo (m : Machine) (notifyNow : Bool) : Machine :=
  if (m.data .adapter).rx.sizeLeft = 0 then
    notifyRxBuffer (m.push [.onRxReadySwitch, .onRxReadyRead false]) .adapter
  else m.push [.onRxReadyRead notifyNow]

/-- `while (ret)` and the notification after it, lines 493-496. -/
def onRxReadyLoop (m : Machine) (ret : Nat) (notifyNow : Bool) : Machine :=
  if ret ≠ 0 then onRxReadyDo m notifyNow
  else if notifyNow then notifyRxBuffer m .adapter
  else m

/-- `on_rx_ready` up to its first read, lines 440-461. -/
def onRxReady (m : Machine) : Machine :=
  let r := (m.data .adapter).rx
  let timer := if r.timeout ≠ SYS_FOREVER_MS then some r.timeout else r.timeoutTimer
  onRxReadyDo (m.setRx .adapter { r with timeoutTimer := timer }) false

/-- The read into the active buffer once `uart_fifo_read` has answered, lines 477-488. -/
def onRxReadyRead (m : Machine) (notifyNow : Bool) (bytes : List UInt8) : Machine :=
  let r := (m.data .adapter).rx
  let m := (m.store r.currBuf bytes).note (.stored r.currBuf bytes)
  let m := m.setRx .adapter
    { r with currBuf := r.currBuf + bytes.length, sizeLeft := r.sizeLeft - bytes.length }
  onRxReadyLoop m bytes.length (if r.timeout = 0 then true else notifyNow)

/-- One round of the dropping loop, lines 467-475. -/
def onRxReadyDrop (m : Machine) (cnt : Nat) (notifyNow : Bool) (bytes : List UInt8) : Machine :=
  let m := m.note (.dropped bytes)
  if bytes.length ≠ 0 then m.push [.onRxReadyDrop (cnt + bytes.length) notifyNow]
  else onRxReadyLoop m 0 notifyNow

/-- `on_error`, lines 500-513: the device handed to `rx_disable` is the target. -/
def onError (m : Machine) (rxErr : Int) : Machine :=
  rxDisable (m.push [.onErrorStopped rxErr]) (m.data .adapter).target

/-- Run a statement with the environment's answer; `m` is the machine without it. -/
def resume (m : Machine) : Frame → Answer → Option Machine
  | .userCallback _ _, .go => some m
  | .notifyRxBufferReq dev, .go => some (userCallback m dev .rxBufRequest)
  | .rxDisableWhile dev, .go => some (rxDisableWhile m dev)
  | .onTxReady, .fifoFill ret =>
      if (m.data .adapter).tx.sizeLeft = 0 then some m
      else if ret ≤ (m.data .adapter).tx.sizeLeft then some (onTxReady m ret)
      else none
  | .onRxReadySwitch, .go => some (switchRxBuffer m .adapter true)
  | .onRxReadyRead notifyNow, .fifoRead ret =>
      if (m.data .adapter).rx.sizeLeft = 0 then
        if ret.Fits 1 then some (onRxReadyDrop m 0 notifyNow ret.got) else none
      else if ret.Fits (m.data .adapter).rx.sizeLeft then some (onRxReadyRead m notifyNow ret.got)
      else none
  | .onRxReadyDrop cnt notifyNow, .fifoRead ret =>
      if ret.Fits 1 then some (onRxReadyDrop m cnt notifyNow ret.got) else none
  | .irqPending, .status flag =>
      some (if flag then m.push [.irqTxReady, .irqTxComplete, .irqRxReady, .irqError] else m)
  | .irqTxReady, .status flag =>
      some (if (m.data .adapter).tx.enabled && flag then m.push [.onTxReady] else m)
  | .irqTxComplete, .status flag =>
      some (if (m.data .adapter).tx.enabled && flag then onTxComplete m else m)
  | .irqRxReady, .status flag =>
      some (if (m.data .adapter).rx.enabled && flag then onRxReady m else m)
  | .irqError, .errCheck err =>
      let rxErr := if err < 0 then 0 else err
      some (if (m.data .adapter).rx.enabled && decide (rxErr ≠ 0) then onError m rxErr else m)
  | .onErrorStopped rxErr, .go => some (userCallback m .adapter (.rxStopped rxErr))
  | _, _ => none

/-! ## Steps -/

/-- What happens next: the application calls the adapter, the target interrupts,
a timer expires, or the innermost activation goes on. -/
inductive Act
  | call (call : ApiCall)
  | uartIrqHandler
  | txTimeout
  | rxTimeout
  | resume (answer : Answer)

/-- The application runs: no activation is in progress, or a callback is. -/
def callable : List Frame → Bool
  | [] => true
  | .userCallback _ _ :: _ => true
  | _ => false

/-- `rx_timeout`, lines 581-586; the expired timer has stopped. -/
def rxTimeout (m : Machine) : Machine :=
  notifyRxBuffer
    ((m.note .rxTimeout).setRx .adapter { (m.data .adapter).rx with timeoutTimer := none }) .adapter

/-- One step.  Interrupts and expiries do not preempt an activation. -/
def step (m : Machine) : Act → Option Machine
  | .call c => if callable m.stack then some (apiCall m c) else none
  | .uartIrqHandler => if m.stack = [] then some (m.push [.irqPending]) else none
  | .txTimeout => if m.stack = [] then some (txAbort m .adapter .txTimeout) else none
  | .rxTimeout => if m.stack = [] then some (rxTimeout m) else none
  | .resume answer =>
      match m.stack with
      | [] => none
      | frame :: rest => UartAdapter.resume { m with stack := rest } frame answer

/-- The adapter's zeroed data with `target` set and a callback registered. -/
def initData : AdapterData where
  target := .target
  userCallback := true
  tx := { buf := NULL, currBuf := NULL, sizeLeft := 0, timeoutTimer := none, enabled := false }
  rx := { buf := NULL, currBuf := NULL, lastNotifyBuf := NULL, sizeLeft := 0, nextBuf := NULL,
          nextBufLen := 0, timeout := 0, timeoutTimer := none, enabled := false }

/-- Right after `uart_async_adapter_init` and `callback_set`. -/
structure Init (m : Machine) : Prop where
  data : m.data .adapter = initData
  stack : m.stack = []
  log : m.log = []

end NcsExp.UartAdapter
