/-
# NcsExp.UartAdapter.RxConservation -- what is reported of the bytes stored

The bytes of the buffer in use between `lastNotifyBuf` and `currBuf` are pending:
stored and not yet notified.  `on_rx_ready` notifies them before it switches
buffers; `rx_disable` releases a buffer and `rx_enable` replaces one without doing
so, and what is pending then is never reported (`disable_loses_bytes`).

`stream_order` is the exact positive half: in the runs whose calls of `rx_disable`
and `rx_enable` find nothing pending, what was reported and what is pending is what
was stored, in order (`Conserves`).
-/
import NcsExp.UartAdapter.RxStream
import NcsExp.UartAdapter.TxConservation

namespace NcsExp.UartAdapter

open NcsExp.Theory
open Machine

set_option autoImplicit false

/-- The bytes stored and not yet notified. -/
def pending (m : Machine) : List UInt8 :=
  if (m.data .adapter).rx.buf = NULL then []
  else m.mem.load (m.data .adapter).rx.lastNotifyBuf
    ((m.data .adapter).rx.currBuf - (m.data .adapter).rx.lastNotifyBuf)

/-- No bytes are pending in the buffer in use. -/
def Drained (r : RxData) : Prop := r.buf ≠ NULL → r.lastNotifyBuf = r.currBuf

instance (r : RxData) : Decidable (Drained r) :=
  inferInstanceAs (Decidable (r.buf ≠ NULL → r.lastNotifyBuf = r.currBuf))

/-- What was reported and what is pending is what was stored. -/
def Conserves (m : Machine) : Prop :=
  (rxLedger m.log).reported ++ pending m = (rxLedger m.log).stored

/-- The stream of the receive side in a state: the notifications so far, the bytes
reported, and the pointers into the buffer in use. -/
structure StreamOrder (m : Machine) : Prop where
  moments : Always StreamMoment m.log
  conserves : Conserves m
  pointers : (m.data .adapter).rx.buf ≠ NULL →
    ∃ a, (rxLedger m.log).active = some a ∧ (m.data .adapter).rx.buf = a.base ∧
      (m.data .adapter).rx.currBuf + (m.data .adapter).rx.sizeLeft = a.base + a.len ∧
      (m.data .adapter).rx.buf ≤ (m.data .adapter).rx.lastNotifyBuf ∧
      (m.data .adapter).rx.lastNotifyBuf ≤ (m.data .adapter).rx.currBuf

/-- `rx_disable` and `rx_enable` are called with nothing pending. -/
def drainedCalls (m : Machine) : Act → Bool
  | .call (.rxEnable _ _ _) => decide (Drained (m.data .adapter).rx)
  | .call .rxDisable => decide (Drained (m.data .adapter).rx)
  | _ => true

/-! ## What is pending -/

theorem pending_of_drained {m : Machine} (drained : Drained (m.data .adapter).rx) :
    pending m = [] := by
  unfold pending
  split
  · rfl
  · rename_i busy
    rw [drained busy, Nat.sub_self, Memory.load_zero]

/-- Nothing is pending right after a buffer is switched. -/
theorem drained_switched (r : RxData) : Drained (switched r) := fun _ => rfl

/-- `m'` is `m` for the stream: same pointers, same memory, nothing stored or
reported. -/
structure SameStream (m m' : Machine) : Prop where
  buf : (m'.data .adapter).rx.buf = (m.data .adapter).rx.buf
  currBuf : (m'.data .adapter).rx.currBuf = (m.data .adapter).rx.currBuf
  lastNotifyBuf : (m'.data .adapter).rx.lastNotifyBuf = (m.data .adapter).rx.lastNotifyBuf
  mem : m'.mem = m.mem
  stored : (rxLedger m'.log).stored = (rxLedger m.log).stored
  reported : (rxLedger m'.log).reported = (rxLedger m.log).reported

theorem SameStream.conserves {m m' : Machine} (same : SameStream m m') (conserves : Conserves m) :
    Conserves m' := by
  have pending_eq : pending m' = pending m := by
    simp only [pending, same.buf, same.currBuf, same.lastNotifyBuf, same.mem]
  rw [Conserves, pending_eq, same.stored, same.reported]
  exact conserves

theorem SameStream.drained {m m' : Machine} (same : SameStream m m')
    (drained : Drained (m.data .adapter).rx) : Drained (m'.data .adapter).rx := by
  unfold Drained
  rw [same.buf, same.currBuf, same.lastNotifyBuf]
  exact drained

/-- An observation that stores and reports nothing. -/
theorem sameStream_note (m : Machine) {o : Obs}
    (stored : ((rxLedger m.log).observe o).stored = (rxLedger m.log).stored)
    (reported : ((rxLedger m.log).observe o).reported = (rxLedger m.log).reported) :
    SameStream m (m.note o) :=
  ⟨rfl, rfl, rfl, rfl, by simp [stored], by simp [reported]⟩

theorem sameStream_timer (m : Machine) (timer : Option Int) :
    SameStream m (m.setRx .adapter { (m.data .adapter).rx with timeoutTimer := timer }) :=
  ⟨by simp, by simp, by simp, rfl, rfl, rfl⟩

theorem sameStream_event {m : Machine} (inv : RxInv m) {evt : UartEvent}
    (other : ∀ buf len offset, evt ≠ .rxRdy buf len offset) :
    SameStream m (userCallback m .adapter evt) := by
  rw [userCallback_of_set inv.callback]
  refine ⟨rfl, rfl, rfl, rfl, ?_, ?_⟩ <;> rw [push_log, note_log, rxLedger_snoc] <;>
    cases evt <;> first | rfl | exact absurd rfl (other _ _ _)

/-- What the two halves of the stream say of a machine that has been flushed. -/
def Flushed (m : Machine) : Prop := Conserves m ∧ Drained (m.data .adapter).rx

theorem SameStream.flushed {m m' : Machine} (same : SameStream m m') (flushed : Flushed m) :
    Flushed m' :=
  ⟨same.conserves flushed.1, same.drained flushed.2⟩

/-- `notify_rx_buffer` flushes. -/
theorem flushed_notifyRxBuffer {m : Machine} (inv : RxInv m) (conserves : Conserves m) :
    Flushed (notifyRxBuffer m .adapter) := by
  unfold notifyRxBuffer
  dsimp only
  split
  · rename_i more
    obtain ⟨busy, more⟩ := more
    obtain ⟨a, active, used⟩ := inv.inUse busy
    have at_last : (m.data .adapter).rx.buf +
        ((m.data .adapter).rx.lastNotifyBuf - (m.data .adapter).rx.buf) =
          (m.data .adapter).rx.lastNotifyBuf := by
      have := used.lastNotifyBuf
      have := used.buf
      omega
    rw [userCallback_of_set (by simpa using inv.callback)]
    have drained : Drained { (m.data .adapter).rx with
        lastNotifyBuf := (m.data .adapter).rx.currBuf } := fun _ => rfl
    refine ⟨?_, by simpa using drained⟩
    rw [Conserves, pending_of_drained (by simpa using drained), push_log, note_log, rxLedger_snoc]
    rw [Conserves, pending, if_neg busy] at conserves
    simpa [RxLedger.observe, shown, at_last] using conserves
  · rename_i none_
    refine ⟨conserves, fun busy => ?_⟩
    obtain ⟨a, active, used⟩ := inv.inUse busy
    have := used.lastNotifyBuf
    have := used.currBuf
    have := used.notified
    have : ¬ (m.data .adapter).rx.lastNotifyBuf < (m.data .adapter).rx.currBuf :=
      fun less => none_ ⟨busy, less⟩
    omega

/-- A switch with nothing pending leaves nothing pending. -/
theorem flushed_switchRxBuffer {m : Machine} (inv : RxInv m) (flushed : Flushed m)
    (requestNew : Bool) : Flushed (switchRxBuffer m .adapter requestNew) := by
  obtain ⟨conserves, drained⟩ := flushed
  have moved : Flushed ((m.setRx .adapter (switched (m.data .adapter).rx)).note
      (.switched .adapter (m.data .adapter).rx.nextBuf (m.data .adapter).rx.nextBufLen)) := by
    have fresh := drained_switched (m.data .adapter).rx
    refine ⟨?_, by simpa using fresh⟩
    rw [Conserves, pending_of_drained (by simpa using fresh)]
    rw [Conserves, pending_of_drained drained] at conserves
    simpa [RxLedger.observe] using conserves
  have movedInv := rxInv_switched inv
  unfold switchRxBuffer
  cases requestNew <;> dsimp only [Bool.false_eq_true, if_false, if_true] <;> split
  · exact (sameStream_event movedInv (by simp)).flushed moved
  · exact moved
  · exact (sameStream_event (movedInv.push _) (by simp)).flushed moved
  · exact moved

theorem flushed_rxDisableWhile {m : Machine} (inv : RxInv m) (flushed : Flushed m) :
    Flushed (rxDisableWhile m .adapter) := by
  unfold rxDisableWhile
  split
  · exact flushed_switchRxBuffer (inv.push _) flushed false
  · exact (sameStream_event inv (by simp)).flushed flushed

theorem flushed_rxDisable {m : Machine} (inv : RxInv m) (flushed : Flushed m) :
    Flushed (rxDisable m .adapter) := by
  have same : SameStream m (m.setRx .adapter { (m.data .adapter).rx with enabled := false }) :=
    ⟨by simp, by simp, by simp, rfl, rfl, rfl⟩
  exact flushed_rxDisableWhile (rxInv_rxDisabling inv) (same.flushed flushed)

theorem flushed_rxTimeout {m : Machine} (inv : RxInv m) (conserves : Conserves m) :
    Flushed (rxTimeout m) := by
  have noted : RxInv (m.note .rxTimeout) := inv.note rfl trivial
  have same : SameStream m (m.note .rxTimeout) := sameStream_note m rfl rfl
  refine flushed_notifyRxBuffer (rxInv_timer noted none) ?_
  exact (sameStream_timer _ none).conserves (same.conserves conserves)

/-! ## The invariant of the stream -/

/-- Nothing is pending while a buffer is being requested or released. -/
structure StreamInv (m : Machine) : Prop where
  conserves : Conserves m
  settled : (∃ f ∈ m.stack, f.rxPending) → Drained (m.data .adapter).rx

theorem Flushed.streamInv {m : Machine} (flushed : Flushed m) : StreamInv m :=
  ⟨flushed.1, fun _ => flushed.2⟩

theorem init_streamInv {m : Machine} (init : Init m) : StreamInv m where
  conserves := by simp [Conserves, pending, init.data, init.log, initData, RxLedger.empty]
  settled := by simp [init.stack]

namespace StreamInv

variable {m m' : Machine}

/-- Where only handler statements are left, nothing is being requested or released. -/
theorem of_inInterrupt (conserves : Conserves m) (inside : InInterrupt m.stack) : StreamInv m := by
  refine ⟨conserves, ?_⟩
  rintro ⟨f, member, waiting⟩
  exact absurd waiting (not_rxPending_of_interrupt (inside f member))

theorem of_below (inv : StreamInv m) {f : Frame} {rest : List Frame} (here : m.stack = f :: rest) :
    StreamInv { m with stack := rest } := by
  refine ⟨inv.conserves, ?_⟩
  rintro ⟨g, member, waiting⟩
  exact inv.settled ⟨g, by rw [here]; exact List.mem_cons_of_mem _ member, waiting⟩

theorem of_left (inv : StreamInv m) {a : Act} {rest : List Frame} (left : Left m a rest) :
    StreamInv { m with stack := rest } := by
  cases left with
  | all => exact inv
  | below here => exact inv.of_below here

theorem of_rxUnmoved (inv : StreamInv m) (unmoved : RxUnmoved m m') : StreamInv m' := by
  have ledger_eq := rxLedger_of_rxUnmoved unmoved
  have same : SameStream m m' :=
    ⟨by rw [unmoved.rx], by rw [unmoved.rx], by rw [unmoved.rx], unmoved.mem,
      by rw [ledger_eq], by rw [ledger_eq]⟩
  refine ⟨same.conserves inv.conserves, ?_⟩
  rintro ⟨f, member, waiting⟩
  obtain ⟨frames, pushed, plain⟩ := unmoved.stack
  rw [pushed] at member
  rcases List.mem_append.mp member with new | old
  · exact absurd waiting (plain f new)
  · exact same.drained (inv.settled ⟨f, old, waiting⟩)

theorem event (rxInv : RxInv m) (inv : StreamInv m) {evt : UartEvent}
    (other : ∀ buf len offset, evt ≠ .rxRdy buf len offset) :
    StreamInv (userCallback m .adapter evt) := by
  have same := sameStream_event rxInv other
  refine ⟨same.conserves inv.conserves, fun waiting => same.drained (inv.settled ?_)⟩
  rw [userCallback_of_set rxInv.callback] at waiting
  obtain ⟨f, member, waiting⟩ := waiting
  rcases List.mem_cons.mp member with rfl | old
  · exact waiting.elim
  · exact ⟨f, old, waiting⟩

end StreamInv

theorem streamInv_onRxReadyDo {m : Machine} (inv : RxInv m) (conserves : Conserves m)
    (inside : InInterrupt m.stack) (notifyNow : Bool) : StreamInv (onRxReadyDo m notifyNow) := by
  unfold onRxReadyDo
  split
  · exact (flushed_notifyRxBuffer (inv.push _) conserves).streamInv
  · refine .of_inInterrupt conserves fun f member => ?_
    rcases List.mem_cons.mp member with rfl | old
    · rfl
    · exact inside f old

theorem streamInv_onRxReadyLoop {m : Machine} (inv : RxInv m) (conserves : Conserves m)
    (inside : InInterrupt m.stack) (ret : Nat) (notifyNow : Bool) :
    StreamInv (onRxReadyLoop m ret notifyNow) := by
  unfold onRxReadyLoop
  split
  · exact streamInv_onRxReadyDo inv conserves inside notifyNow
  · split
    · exact (flushed_notifyRxBuffer inv conserves).streamInv
    · exact .of_inInterrupt conserves inside

theorem streamInv_onRxReady {m : Machine} (inv : RxInv m) (conserves : Conserves m)
    (inside : InInterrupt m.stack) : StreamInv (onRxReady m) :=
  streamInv_onRxReadyDo (rxInv_timer inv _) ((sameStream_timer m _).conserves conserves)
    inside false

/-- What is read into the buffer becomes pending. -/
theorem conserves_filled {m : Machine} (inv : RxInv m) (conserves : Conserves m)
    {bytes : List UInt8} (room : (m.data .adapter).rx.sizeLeft ≠ 0) :
    Conserves (((m.store (m.data .adapter).rx.currBuf bytes).note
      (.stored (m.data .adapter).rx.currBuf bytes)).setRx .adapter
        { (m.data .adapter).rx with
          currBuf := (m.data .adapter).rx.currBuf + bytes.length
          sizeLeft := (m.data .adapter).rx.sizeLeft - bytes.length }) := by
  have busy := inv.buf_of_room room
  obtain ⟨a, active, used⟩ := inv.inUse busy
  obtain ⟨n, curr⟩ :
      ∃ n, (m.data .adapter).rx.currBuf = (m.data .adapter).rx.lastNotifyBuf + n := by
    refine ⟨a.filled - a.notified, ?_⟩
    have := used.notified
    rw [used.currBuf, used.lastNotifyBuf]
    omega
  have grown := Memory.load_store_append m.mem (m.data .adapter).rx.lastNotifyBuf n bytes
  have size : (m.data .adapter).rx.lastNotifyBuf + n + bytes.length -
      (m.data .adapter).rx.lastNotifyBuf = n + bytes.length := by omega
  rw [Conserves, pending, if_neg busy, curr, Nat.add_sub_cancel_left] at conserves
  simp only [Conserves, pending, setRx_rx, if_neg busy, setRx_mem, note_mem, store_mem, setRx_log,
    note_log, store_log, rxLedger_snoc, RxLedger.observe, curr, size, grown]
  rw [← List.append_assoc, conserves]

theorem streamInv_onRxReadyRead {m : Machine} (inv : RxInv m) (conserves : Conserves m)
    (inside : InInterrupt m.stack) (notifyNow : Bool) {bytes : List UInt8}
    (room : (m.data .adapter).rx.sizeLeft ≠ 0)
    (fits : bytes.length ≤ (m.data .adapter).rx.sizeLeft) :
    StreamInv (onRxReadyRead m notifyNow bytes) :=
  streamInv_onRxReadyLoop (rxInv_filled inv room fits) (conserves_filled inv conserves room)
    inside _ _

theorem streamInv_onRxReadyDrop {m : Machine} (inv : RxInv m) (conserves : Conserves m)
    (inside : InInterrupt m.stack) (cnt : Nat) (notifyNow : Bool) (bytes : List UInt8) :
    StreamInv (onRxReadyDrop m cnt notifyNow bytes) := by
  have noted : RxInv (m.note (.dropped bytes)) := inv.note rfl trivial
  have same : SameStream m (m.note (.dropped bytes)) := sameStream_note m rfl rfl
  unfold onRxReadyDrop
  dsimp only
  split
  · refine .of_inInterrupt (same.conserves conserves) fun f member => ?_
    rcases List.mem_cons.mp member with rfl | old
    · rfl
    · exact inside f old
  · exact streamInv_onRxReadyLoop noted (same.conserves conserves) inside _ _

theorem step_streamInv {m m' : Machine} {a : Act} (rxInv : RxInv m) (shape : WellStacked m.stack)
    (inv : StreamInv m) (ok : drainedCalls m a = true) (taken : step m a = some m') :
    StreamInv m' := by
  rcases step_rx rxInv.target taken with ⟨rest, left, unmoved⟩ | moved
  · exact (inv.of_left left).of_rxUnmoved unmoved
  · cases moved with
    | rxEnable buf len timeout =>
        have drained : Drained (m.data .adapter).rx := of_decide_eq_true ok
        have conserves := inv.conserves
        rw [Conserves, pending_of_drained drained] at conserves
        refine Flushed.streamInv ⟨?_, fun busy => ?_⟩
        · simpa [Conserves, pending, apiCall, rxEnable, rxEnabled, RxLedger.observe] using conserves
        · exact absurd (by simp [apiCall, rxEnable, rxEnabled]) busy
    | rxBufRsp buf len =>
        have same : SameStream m (apiCall m (.rxBufRsp buf len)) := by
          simp only [apiCall, rxBufRsp]
          split
          · exact sameStream_note m rfl rfl
          · exact ⟨by simp, by simp, by simp, rfl, by simp [RxLedger.observe],
              by simp [RxLedger.observe]⟩
        refine ⟨same.conserves inv.conserves, fun waiting => same.drained (inv.settled ?_)⟩
        rw [show (apiCall m (.rxBufRsp buf len)).stack = m.stack from
          rxBufRsp_stack _ _ _ _] at waiting
        exact waiting
    | rxDisable =>
        have drained : Drained (m.data .adapter).rx := of_decide_eq_true ok
        have same : SameStream m (m.note (.call .rxDisable 0)) := sameStream_note m rfl rfl
        have noted : RxInv (m.note (.call .rxDisable 0)) := rxInv.note rfl trivial
        exact (flushed_rxDisable noted (same.flushed ⟨inv.conserves, drained⟩)).streamInv
    | rxTimeout => exact (flushed_rxTimeout rxInv inv.conserves).streamInv
    | notifyRxBufferReq here =>
        exact (inv.of_below here).event (rxInv.of_stack _) (by simp)
    | @rxDisableWhile rest here =>
        have drained := inv.settled ⟨.rxDisableWhile .adapter, by simp [here], trivial⟩
        exact (flushed_rxDisableWhile (rxInv.of_stack rest) ⟨inv.conserves, drained⟩).streamInv
    | @onRxReadySwitch rest here =>
        have drained := inv.settled ⟨.onRxReadySwitch, by simp [here], trivial⟩
        exact (flushed_switchRxBuffer (rxInv.of_stack rest) ⟨inv.conserves, drained⟩ true).streamInv
    | @onRxReady rest here =>
        rw [here] at shape
        have inside := interrupt_below shape rfl
        exact streamInv_onRxReady (rxInv.of_stack rest) inv.conserves inside
    | @onRxReadyRead rest notifyNow here ret room fits =>
        rw [here] at shape
        have inside := interrupt_below shape rfl
        exact streamInv_onRxReadyRead (rxInv.of_stack rest) inv.conserves inside _ room
          (FifoRead.length_got fits)
    | @onRxReadyDrop f rest here interrupt =>
        rw [here] at shape
        have inside := interrupt_below shape interrupt
        exact streamInv_onRxReadyDrop (rxInv.of_stack rest) inv.conserves inside _ _ _

theorem reachable_streamInv {m : Machine} (run : Reachable step Init drainedCalls m) :
    StreamInv m := by
  apply run.strengthen (Q := fun m => RxInv m ∧ WellStacked m.stack)
  · intro s before
    exact ⟨reachable_rxInv before, reachable_wellStacked before⟩
  · intro s init
    exact init_streamInv init
  · rintro s a t ⟨rxInv, shape⟩ inv ok taken
    exact step_streamInv rxInv shape inv ok taken

/-- **The order of the stream.**  In every run whose calls of `rx_disable` and
`rx_enable` find nothing pending, the bytes reported and those pending are the bytes
stored, in order; each activation is notified contiguously from offset 0 and never
written past its end. -/
theorem stream_order {m : Machine} (run : Reachable step Init drainedCalls m) :
    StreamOrder m := by
  have rxInv := reachable_rxInv run
  refine ⟨rxInv.moments, (reachable_streamInv run).conserves, fun busy => ?_⟩
  obtain ⟨a, active, used⟩ := rxInv.inUse busy
  have size := used.sizeLeft
  have notified := used.notified
  refine ⟨a, active, used.buf, ?_, ?_, ?_⟩
  · rw [used.currBuf]
    omega
  · rw [used.buf, used.lastNotifyBuf]
    omega
  · rw [used.lastNotifyBuf, used.currBuf]
    omega

/-! ## A run across two buffers, and one that loses its bytes -/

/-- An interrupt that finds only received bytes, up to its first read. -/
def rxInterrupt : List Act :=
  [.uartIrqHandler, .resume (.status true), .resume (.status false), .resume (.status false),
    .resume (.status true)]

/-- One `uart_fifo_read`. -/
def rxRead (bytes : List UInt8) : Act := .resume (.fifoRead (.bytes bytes))

/-- The FIFO is empty and no error is pending. -/
def rxInterruptEnd : List Act := [rxRead [], .resume (.errCheck 0)]

/-- A buffer of 3 bytes is filled, a second one of 2 takes over from inside the
request; the timer reports its byte before `rx_disable`. -/
def rxRun : List Act :=
  [.call (.rxEnable 100 3 50)] ++ rxInterrupt ++
    [.resume .go, .resume .go, .call (.rxBufRsp 200 2), .resume .go,
      rxRead [1, 2], rxRead [3], .resume .go, .resume .go, .resume .go, .resume .go, .resume .go,
      rxRead [4]] ++ rxInterruptEnd ++
    [.rxTimeout, .resume .go, .call .rxDisable, .resume .go, .resume .go, .resume .go]

theorem stream_order_rxRun :
    ∃ m, exec step drainedCalls fresh rxRun = some m ∧ StreamOrder m := by
  have possible : (exec step drainedCalls fresh rxRun).isSome := by decide +kernel
  obtain ⟨m, taken⟩ := Option.isSome_iff_exists.mp possible
  exact ⟨m, taken, stream_order (reachable_of_exec init_fresh taken)⟩

/-- Three bytes arrive in a buffer of eight and `rx_disable` follows before the
timer expires. -/
def disabledRun : List Act :=
  [.call (.rxEnable 100 8 50)] ++ rxInterrupt ++
    [.resume .go, .resume .go, .resume .go, rxRead [1, 2, 3]] ++ rxInterruptEnd ++
    [.call .rxDisable, .resume .go, .resume .go, .resume .go]

/-- No activation is in progress, and bytes stored were neither reported nor are
they pending. -/
def losesBytes (m : Machine) : Bool :=
  decide (m.stack = []) &&
    decide ((rxLedger m.log).reported ++ pending m ≠ (rxLedger m.log).stored)

/-- **`rx_disable` loses the bytes that are pending**: they are stored and their
buffer is released without a notification. -/
theorem disable_loses_bytes : ¬ ∀ m, Reachable step Init unguarded m → StreamOrder m := by
  intro ordered
  have found : (exec step unguarded fresh disabledRun).any losesBytes = true := by decide +kernel
  obtain ⟨m, run, loses⟩ := exists_reachable_of_exec init_fresh found
  have lost := of_decide_eq_true ((Bool.and_eq_true _ _).mp loses).2
  exact lost (ordered m run).conserves

end NcsExp.UartAdapter
