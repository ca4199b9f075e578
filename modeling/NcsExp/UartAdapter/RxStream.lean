/-
# NcsExp.UartAdapter.RxStream -- the activations of the receive buffers

`RxInv` ties the receive pointers to the activation of the ledger: `lastNotifyBuf`
stands after the bytes notified, `currBuf` after the bytes filled, and `sizeLeft`
counts the rest of the buffer.  Every step of every run keeps it
(`reachable_rxInv`), whatever the application does inside the notifications, so
`rx_moments`: each activation is filled in order inside its buffer, and its
notifications are contiguous and start at offset 0.
-/
import NcsExp.UartAdapter.RxLedger

namespace NcsExp.UartAdapter

open NcsExp.Theory
open Machine

set_option autoImplicit false

/-! ## The invariant of the receive side -/

/-- What the observations of the receive side say of the buffer in use: bytes are
stored at the end of what is filled, a notification reports what is filled and not
yet notified. -/
def StreamMoment (past : List Obs) : Obs → Prop
  | .stored dst bytes =>
      ∃ a, (rxLedger past).active = some a ∧ dst = a.base + a.filled ∧
        a.filled + bytes.length ≤ a.len
  | .event .adapter (.rxRdy buf len offset) shown _ =>
      ∃ a, (rxLedger past).active = some a ∧ buf = a.base ∧ offset = a.notified ∧ 0 < len ∧
        offset + len = a.filled ∧ shown.length = len
  | _ => True

/-- The adapter's `rx` is that of the activation `a`. -/
structure InUse (r : RxData) (a : Activation) : Prop where
  buf : r.buf = a.base
  nonNull : a.base ≠ NULL
  lastNotifyBuf : r.lastNotifyBuf = a.base + a.notified
  currBuf : r.currBuf = a.base + a.filled
  notified : a.notified ≤ a.filled
  sizeLeft : a.filled + r.sizeLeft = a.len

structure RxInv (m : Machine) : Prop where
  target : (m.data .adapter).target = .target
  callback : (m.data .adapter).userCallback = true
  spare : (m.data .adapter).rx.nextBuf = NULL → (m.data .adapter).rx.nextBufLen = 0
  idle : (rxLedger m.log).active = none →
    (m.data .adapter).rx.buf = NULL ∧ (m.data .adapter).rx.sizeLeft = 0
  busy : ∀ a, (rxLedger m.log).active = some a → InUse (m.data .adapter).rx a
  moments : Always StreamMoment m.log

theorem init_rxInv {m : Machine} (init : Init m) : RxInv m where
  target := by simp [init.data, initData]
  callback := by simp [init.data, initData]
  spare := by simp [init.data, initData]
  idle := by simp [init.data, initData]
  busy := by simp [init.log, RxLedger.empty]
  moments := by simp [init.log, always_nil]

theorem streamMoment_of_rxQuiet {o : Obs} (quiet : o.rxQuiet) (past : List Obs) :
    StreamMoment past o := by
  unfold StreamMoment
  split
  · exact quiet.elim
  · exact absurd trivial quiet
  · trivial

theorem rxLedger_of_rxUnmoved {m m' : Machine} (unmoved : RxUnmoved m m') :
    rxLedger m'.log = rxLedger m.log := by
  obtain ⟨new, grown, quiet⟩ := unmoved.log
  rw [grown]
  exact present_append_of_quiet fun o member l => rxObserve_of_rxQuiet l (quiet o member)

/-- A notification of the adapter, whose callback is set. -/
theorem userCallback_of_set {m : Machine} {dev : Dev}
    (set_ : (m.data dev).userCallback = true) (evt : UartEvent) :
    userCallback m dev evt =
      (m.note (.event dev evt (shown m evt) (m.data dev))).push [.userCallback dev evt] :=
  if_pos set_

namespace RxInv

variable {m m' : Machine}

theorem of_rxUnmoved (inv : RxInv m) (unmoved : RxUnmoved m m') : RxInv m' where
  target := by rw [unmoved.target]; exact inv.target
  callback := by rw [unmoved.callback]; exact inv.callback
  spare := by rw [unmoved.rx]; exact inv.spare
  idle := by rw [rxLedger_of_rxUnmoved unmoved, unmoved.rx]; exact inv.idle
  busy := by rw [rxLedger_of_rxUnmoved unmoved, unmoved.rx]; exact inv.busy
  moments := by
    obtain ⟨new, grown, quiet⟩ := unmoved.log
    rw [grown]
    exact inv.moments.append fun o member past => streamMoment_of_rxQuiet (quiet o member) past

/-- The stack plays no part. -/
theorem of_stack (inv : RxInv m) (rest : List Frame) : RxInv { m with stack := rest } :=
  ⟨inv.target, inv.callback, inv.spare, inv.idle, inv.busy, inv.moments⟩

theorem push (inv : RxInv m) (frames : List Frame) : RxInv (m.push frames) :=
  inv.of_stack _

/-- A buffer is in use exactly when the ledger has an activation. -/
theorem active_eq_none (inv : RxInv m) :
    (rxLedger m.log).active = none ↔ (m.data .adapter).rx.buf = NULL := by
  constructor
  · exact fun none_ => (inv.idle none_).1
  · intro null
    cases active : (rxLedger m.log).active with
    | none => rfl
    | some a =>
        have used := inv.busy a active
        exact absurd (used.buf.symm.trans null) used.nonNull

theorem inUse (inv : RxInv m) (busy : (m.data .adapter).rx.buf ≠ NULL) :
    ∃ a, (rxLedger m.log).active = some a ∧ InUse (m.data .adapter).rx a := by
  obtain ⟨a, active⟩ := Option.ne_none_iff_exists'.mp (mt inv.active_eq_none.mp busy)
  exact ⟨a, active, inv.busy a active⟩

/-- No buffer in use, no room. -/
theorem buf_of_room (inv : RxInv m) (room : (m.data .adapter).rx.sizeLeft ≠ 0) :
    (m.data .adapter).rx.buf ≠ NULL :=
  fun null => room (inv.idle (inv.active_eq_none.mpr null)).2

/-- One more observation that neither concerns the buffer in use nor is a moment of
the stream. -/
theorem note (inv : RxInv m) {o : Obs}
    (kept : ((rxLedger m.log).observe o).active = (rxLedger m.log).active)
    (moment : StreamMoment m.log o) : RxInv (m.note o) where
  target := inv.target
  callback := inv.callback
  spare := inv.spare
  idle := by rw [note_log, rxLedger_snoc, kept]; exact inv.idle
  busy := by rw [note_log, rxLedger_snoc, kept]; exact inv.busy
  moments := always_snoc.mpr ⟨inv.moments, moment⟩

/-- `rx` changes outside the fields of the buffer in use. -/
theorem setRx (inv : RxInv m) {r : RxData} (buf : r.buf = (m.data .adapter).rx.buf)
    (currBuf : r.currBuf = (m.data .adapter).rx.currBuf)
    (last : r.lastNotifyBuf = (m.data .adapter).rx.lastNotifyBuf)
    (sizeLeft : r.sizeLeft = (m.data .adapter).rx.sizeLeft)
    (spare : r.nextBuf = NULL → r.nextBufLen = 0) : RxInv (m.setRx .adapter r) where
  target := by simpa using inv.target
  callback := by simpa using inv.callback
  spare := by simpa using spare
  idle := by simpa [buf, sizeLeft] using inv.idle
  busy := by
    intro a active
    have used := inv.busy a active
    exact ⟨by simpa [buf] using used.buf, used.nonNull, by simpa [last] using used.lastNotifyBuf,
      by simpa [currBuf] using used.currBuf, used.notified,
      by simpa [sizeLeft] using used.sizeLeft⟩
  moments := inv.moments

theorem event (inv : RxInv m) {evt : UartEvent}
    (other : ∀ buf len offset, evt ≠ .rxRdy buf len offset) :
    RxInv (userCallback m .adapter evt) := by
  rw [userCallback_of_set inv.callback]
  refine RxInv.push (inv.note ?_ ?_) _
  · cases evt <;> first | rfl | exact absurd rfl (other _ _ _)
  · cases evt <;> first | trivial | exact absurd rfl (other _ _ _)

end RxInv

/-! ## The moves keep it -/

theorem rxInv_notifyRxBuffer {m : Machine} (inv : RxInv m) : RxInv (notifyRxBuffer m .adapter) := by
  unfold notifyRxBuffer
  dsimp only
  split
  · rename_i more
    obtain ⟨busy, more⟩ := more
    obtain ⟨a, active, used⟩ := inv.inUse busy
    have offset : (m.data .adapter).rx.lastNotifyBuf - (m.data .adapter).rx.buf = a.notified := by
      rw [used.lastNotifyBuf, used.buf]
      omega
    have len : (m.data .adapter).rx.currBuf - (m.data .adapter).rx.lastNotifyBuf =
        a.filled - a.notified := by
      rw [used.currBuf, used.lastNotifyBuf]
      omega
    have notified := used.notified
    have room : a.notified < a.filled := by
      rw [used.currBuf, used.lastNotifyBuf] at more
      omega
    rw [userCallback_of_set (by simpa using inv.callback), offset, len]
    refine ⟨by simpa using inv.target, by simpa using inv.callback, by simpa using inv.spare,
      ?_, ?_, ?_⟩
    · rw [push_log, note_log, rxLedger_snoc]
      simp [RxLedger.observe, active]
    · rw [push_log, note_log, rxLedger_snoc]
      intro b active'
      simp only [setRx_log, RxLedger.observe, active, Option.map_some, Option.some.injEq] at active'
      subst active'
      refine ⟨by simpa using used.buf, used.nonNull, ?_, by simpa using used.currBuf, ?_,
        by simpa using used.sizeLeft⟩
      · simp only [push_data, note_data, setRx_rx, used.currBuf]
        omega
      · dsimp only
        omega
    · refine always_snoc.mpr ⟨inv.moments, a, active, used.buf, rfl, by omega, by omega, ?_⟩
      simp [shown]
  · exact inv

/-- The critical section of `switch_rx_buffer`. -/
theorem rxInv_switched {m : Machine} (inv : RxInv m) :
    RxInv ((m.setRx .adapter (switched (m.data .adapter).rx)).note
      (.switched .adapter (m.data .adapter).rx.nextBuf (m.data .adapter).rx.nextBufLen)) := by
  refine ⟨by simpa using inv.target, by simpa using inv.callback, by simp [switched], ?_, ?_,
    always_snoc.mpr ⟨inv.moments, trivial⟩⟩
  · by_cases null : (m.data .adapter).rx.nextBuf = NULL
    · simp [switched, null, inv.spare null]
    · simp [RxLedger.observe, null]
  · intro a active
    by_cases null : (m.data .adapter).rx.nextBuf = NULL
    · simp [RxLedger.observe, null] at active
    · simp only [note_log, setRx_log, rxLedger_snoc, RxLedger.observe, null, if_false,
        Option.some.injEq] at active
      subst active
      constructor <;> simp [switched, null]

theorem rxInv_switchRxBuffer {m : Machine} (inv : RxInv m) (requestNew : Bool) :
    RxInv (switchRxBuffer m .adapter requestNew) := by
  have moved := rxInv_switched inv
  unfold switchRxBuffer
  cases requestNew <;> dsimp only [Bool.false_eq_true, if_false, if_true] <;> split
  · exact moved.event (by simp)
  · exact moved
  · exact (moved.push _).event (by simp)
  · exact moved.push _

theorem rxInv_rxEnable {m : Machine} (inv : RxInv m) (buf : Buffer) (len : Nat) (timeout : Int) :
    RxInv (apiCall m (.rxEnable buf len timeout)) where
  target := by simpa [apiCall, rxEnable] using inv.target
  callback := by simpa [apiCall, rxEnable] using inv.callback
  spare := by simp [apiCall, rxEnable, rxEnabled, buf.nonNull]
  idle := by simp [apiCall, rxEnable, rxEnabled]
  busy := by simp [apiCall, rxEnable, RxLedger.observe]
  moments := always_snoc.mpr ⟨inv.moments, trivial⟩

theorem rxInv_rxBufRsp {m : Machine} (inv : RxInv m) (buf : Buffer) (len : Nat) :
    RxInv (apiCall m (.rxBufRsp buf len)) := by
  unfold apiCall rxBufRsp
  dsimp only
  split
  · exact inv.note (o := .call (.rxBufRsp buf len) (-EBUSY)) rfl trivial
  · have spared : RxInv (m.setRx .adapter
        { (m.data .adapter).rx with nextBuf := buf.addr, nextBufLen := len }) :=
      inv.setRx rfl rfl rfl rfl fun null => absurd null buf.nonNull
    exact spared.note (o := .call (.rxBufRsp buf len) 0) rfl trivial

theorem rxInv_rxDisableWhile {m : Machine} (inv : RxInv m) :
    RxInv (rxDisableWhile m .adapter) := by
  unfold rxDisableWhile
  split
  · exact rxInv_switchRxBuffer (inv.push _) false
  · exact inv.event (by simp)

/-- `rx_disable` before its loop. -/
theorem rxInv_rxDisabling {m : Machine} (inv : RxInv m) {dev : Dev} {f : IrqEnable → IrqEnable} :
    RxInv ((m.setRx .adapter { (m.data .adapter).rx with enabled := false }).setIrq dev f) := by
  have off : RxInv (m.setRx .adapter { (m.data .adapter).rx with enabled := false }) :=
    inv.setRx rfl rfl rfl rfl inv.spare
  exact ⟨off.target, off.callback, off.spare, off.idle, off.busy, off.moments⟩

theorem rxInv_rxDisable {m : Machine} (inv : RxInv m) : RxInv (rxDisable m .adapter) :=
  rxInv_rxDisableWhile (rxInv_rxDisabling inv)

theorem rxInv_onRxReadyDo {m : Machine} (inv : RxInv m) (notifyNow : Bool) :
    RxInv (onRxReadyDo m notifyNow) := by
  unfold onRxReadyDo
  split
  · exact rxInv_notifyRxBuffer (inv.push _)
  · exact inv.push _

theorem rxInv_onRxReadyLoop {m : Machine} (inv : RxInv m) (ret : Nat) (notifyNow : Bool) :
    RxInv (onRxReadyLoop m ret notifyNow) := by
  unfold onRxReadyLoop
  split
  · exact rxInv_onRxReadyDo inv notifyNow
  · split
    · exact rxInv_notifyRxBuffer inv
    · exact inv

/-- The receive timer started or stopped. -/
theorem rxInv_timer {m : Machine} (inv : RxInv m) (timer : Option Int) :
    RxInv (m.setRx .adapter { (m.data .adapter).rx with timeoutTimer := timer }) :=
  inv.setRx rfl rfl rfl rfl inv.spare

theorem rxInv_onRxReady {m : Machine} (inv : RxInv m) : RxInv (onRxReady m) :=
  rxInv_onRxReadyDo (rxInv_timer inv _) false

/-- Filling the buffer in use. -/
theorem rxInv_filled {m : Machine} (inv : RxInv m) {bytes : List UInt8}
    (room : (m.data .adapter).rx.sizeLeft ≠ 0)
    (fits : bytes.length ≤ (m.data .adapter).rx.sizeLeft) :
    RxInv (((m.store (m.data .adapter).rx.currBuf bytes).note
      (.stored (m.data .adapter).rx.currBuf bytes)).setRx .adapter
        { (m.data .adapter).rx with
          currBuf := (m.data .adapter).rx.currBuf + bytes.length
          sizeLeft := (m.data .adapter).rx.sizeLeft - bytes.length }) := by
  obtain ⟨a, active, used⟩ := inv.inUse (inv.buf_of_room room)
  have size := used.sizeLeft
  refine ⟨by simpa using inv.target, by simpa using inv.callback, by simpa using inv.spare,
    ?_, ?_, ?_⟩
  · simp [RxLedger.observe, active]
  · intro b active'
    simp only [setRx_log, note_log, store_log, rxLedger_snoc, RxLedger.observe, active,
      Option.map_some, Option.some.injEq] at active'
    subst active'
    refine ⟨by simpa using used.buf, used.nonNull, by simpa using used.lastNotifyBuf, ?_,
      Nat.le_add_right_of_le used.notified, ?_⟩
    · simp only [setRx_rx, used.currBuf]
      omega
    · simp only [setRx_rx]
      omega
  · exact always_snoc.mpr ⟨inv.moments, a, active, used.currBuf, by omega⟩

theorem FifoRead.length_got {size : Nat} {ret : FifoRead} (fits : ret.Fits size) :
    ret.got.length ≤ size := by
  cases ret with
  | error code => exact Nat.zero_le _
  | bytes bs => exact fits

theorem rxInv_onRxReadyRead {m : Machine} (inv : RxInv m) (notifyNow : Bool) {bytes : List UInt8}
    (room : (m.data .adapter).rx.sizeLeft ≠ 0)
    (fits : bytes.length ≤ (m.data .adapter).rx.sizeLeft) :
    RxInv (onRxReadyRead m notifyNow bytes) :=
  rxInv_onRxReadyLoop (rxInv_filled inv room fits) _ _

theorem rxInv_onRxReadyDrop {m : Machine} (inv : RxInv m) (cnt : Nat) (notifyNow : Bool)
    (bytes : List UInt8) : RxInv (onRxReadyDrop m cnt notifyNow bytes) := by
  have noted : RxInv (m.note (.dropped bytes)) := inv.note rfl trivial
  unfold onRxReadyDrop
  dsimp only
  split
  · exact noted.push _
  · exact rxInv_onRxReadyLoop noted _ _

theorem rxInv_rxTimeout {m : Machine} (inv : RxInv m) : RxInv (rxTimeout m) := by
  have noted : RxInv (m.note .rxTimeout) := inv.note rfl trivial
  exact rxInv_notifyRxBuffer (rxInv_timer noted none)

theorem step_rxInv {m m' : Machine} {a : Act} (inv : RxInv m) (taken : step m a = some m') :
    RxInv m' := by
  rcases step_rx inv.target taken with ⟨rest, -, unmoved⟩ | moved
  · exact (inv.of_stack rest).of_rxUnmoved unmoved
  · cases moved with
    | rxEnable buf len timeout => exact rxInv_rxEnable inv buf len timeout
    | rxBufRsp buf len => exact rxInv_rxBufRsp inv buf len
    | rxDisable => exact rxInv_rxDisable (inv.note rfl trivial)
    | rxTimeout => exact rxInv_rxTimeout inv
    | notifyRxBufferReq => exact (inv.of_stack _).event (by simp)
    | rxDisableWhile => exact rxInv_rxDisableWhile (inv.of_stack _)
    | onRxReadySwitch => exact rxInv_switchRxBuffer (inv.of_stack _) true
    | onRxReady => exact rxInv_onRxReady (inv.of_stack _)
    | onRxReadyRead here room fits =>
        exact rxInv_onRxReadyRead (inv.of_stack _) _ room (FifoRead.length_got fits)
    | onRxReadyDrop => exact rxInv_onRxReadyDrop (inv.of_stack _) _ _ _

theorem reachable_rxInv {ok : Machine → Act → Bool} {m : Machine}
    (run : Reachable step Init ok m) : RxInv m := by
  apply run.invariant
  · intro s init
    exact init_rxInv init
  · intro s a t inv _ taken
    exact step_rxInv inv taken

/-- **The notifications of every run** are contiguous from offset 0 in each
activation, and bytes are stored in order inside the buffer in use. -/
theorem rx_moments {ok : Machine → Act → Bool} {m : Machine} (run : Reachable step Init ok m) :
    Always StreamMoment m.log :=
  (reachable_rxInv run).moments

end NcsExp.UartAdapter
