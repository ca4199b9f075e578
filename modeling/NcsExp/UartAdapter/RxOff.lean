/-
# NcsExp.UartAdapter.RxOff -- buffer traffic while reception is off

`rx_disable` clears `enabled`, and `uart_irq_handler` tests it before each of its
branches.  Two functions do not:

* `on_rx_ready` goes on after a notification from inside which the application has
  called `rx_disable`, and requests a buffer (`request_while_disabled`);
* `rx_buf_rsp` accepts a buffer whether or not reception is enabled.

`no_traffic_while_off` is the exact positive half: when the notifications that
`on_rx_ready` waits for return with reception enabled, `rx_buf_rsp` is called only
while it is enabled, and `rx_enable` not while an `rx_disable` is releasing, then
no buffer is requested while `enabled` is clear, and none accepted between
`UART_RX_DISABLED` and the next `rx_enable`.
-/
import NcsExp.UartAdapter.RxOwnership

namespace NcsExp.UartAdapter

open NcsExp.Theory
open Machine

set_option autoImplicit false

/-- A request is made with reception enabled; no buffer is accepted after
`UART_RX_DISABLED` until reception is enabled again. -/
def OffMoment (past : List Obs) : Obs → Prop
  | .event .adapter .rxBufRequest _ d => d.rx.enabled = true
  | .call (.rxBufRsp _ _) ret => ret = 0 → (rxLedger past).off = false
  | _ => True

/-- The statements that lead `on_rx_ready` to the request for a new buffer. -/
def Frame.asks : Frame → Bool
  | .onRxReadySwitch => true
  | .notifyRxBufferReq .adapter => true
  | _ => false

/-- A notification that `on_rx_ready` waits for returns with reception enabled;
`rx_buf_rsp` is called with reception enabled, or refused; `rx_enable` is not called
while an `rx_disable` is releasing. -/
def enabledTraffic (m : Machine) : Act → Bool
  | .call (.rxEnable _ _ _) => !disabling m.stack
  | .call (.rxBufRsp _ _) =>
      (m.data .adapter).rx.enabled || decide ((m.data .adapter).rx.nextBuf ≠ NULL)
  | .resume _ =>
      match m.stack with
      | .userCallback _ _ :: below :: _ => !below.asks || (m.data .adapter).rx.enabled
      | _ => true
  | _ => true

theorem rxPending_of_asks {f : Frame} (asks : f.asks = true) : f.rxPending := by
  unfold Frame.asks at asks
  split at asks
  · trivial
  · trivial
  · cases asks

/-- What asks waits for a notification. -/
theorem not_asks_of_ready {stack : List Frame} (ready : Ready stack) {g : Frame}
    (top : g ∈ stack.head?) : g.asks = false := by
  by_contra asks
  have waits := ready g top .irqPending
  unfold Frame.asks at asks
  split at asks
  · simp [Frame.WaitsFor] at waits
  · simp [Frame.WaitsFor] at waits
  · exact asks rfl

/-! ## The invariant -/

structure OffInv (m : Machine) : Prop where
  off : (rxLedger m.log).off = true → (m.data .adapter).rx.enabled = false
  idle : (m.data .adapter).rx.enabled = false →
    disabling m.stack = true ∨ (m.data .adapter).rx.buf = NULL
  disabling : disabling m.stack = true → (m.data .adapter).rx.enabled = false
  asking : ∀ f ∈ m.stack.head?, f.asks = true → (m.data .adapter).rx.enabled = true
  moments : Always OffMoment m.log

theorem init_offInv {m : Machine} (init : Init m) : OffInv m where
  off := by simp [init.log, RxLedger.empty]
  idle := by simp [init.data, initData]
  disabling := by simp [init.stack, UartAdapter.disabling]
  asking := by simp [init.stack]
  moments := by simp [init.log, always_nil]

theorem offMoment_of_rxQuiet {o : Obs} (quiet : o.rxQuiet) (past : List Obs) :
    OffMoment past o := by
  unfold OffMoment
  split
  · exact absurd trivial quiet
  · exact quiet.elim
  · trivial

namespace OffInv

variable {m m' : Machine}

/-- `enabled`, `buf` and the ledger's `off` stay, and no `rx_disable` starts or ends. -/
theorem of_same (inv : OffInv m)
    (enabled : (m'.data .adapter).rx.enabled = (m.data .adapter).rx.enabled)
    (buf : (m'.data .adapter).rx.buf = (m.data .adapter).rx.buf)
    (off : (rxLedger m'.log).off = (rxLedger m.log).off)
    (same : UartAdapter.disabling m'.stack = UartAdapter.disabling m.stack)
    (asking : ∀ f ∈ m'.stack.head?, f.asks = true → (m.data .adapter).rx.enabled = true)
    (moments : Always OffMoment m'.log) : OffInv m' where
  off := by rw [off, enabled]; exact inv.off
  idle := by rw [enabled, same, buf]; exact inv.idle
  disabling := by rw [same, enabled]; exact inv.disabling
  asking := by rw [enabled]; exact asking
  moments := moments

/-- A statement other than that of `rx_disable` leaves the stack. -/
theorem of_below (inv : OffInv m) {f : Frame} {rest : List Frame} (here : m.stack = f :: rest)
    (other : f ≠ .rxDisableWhile .adapter)
    (asking : ∀ g ∈ rest.head?, g.asks = true → (m.data .adapter).rx.enabled = true) :
    OffInv { m with stack := rest } := by
  refine inv.of_same rfl rfl rfl ?_ asking inv.moments
  simp [UartAdapter.disabling, here, other.symm]

theorem of_left (inv : OffInv m) (shape : WellStacked m.stack) {a : Act}
    (ok : enabledTraffic m a = true) {rest : List Frame} (left : Left m a rest) :
    OffInv { m with stack := rest } := by
  cases left with
  | all => exact inv
  | @below f rest here plain answer =>
      refine inv.of_below here (fun same => plain (by rw [same]; trivial)) fun g top asks => ?_
      obtain ⟨tail, rfl⟩ : ∃ tail, rest = g :: tail := List.head?_eq_some_iff.mp top
      rw [here] at shape
      by_cases notified : ∃ dev evt, f = .userCallback dev evt
      · obtain ⟨dev, evt, rfl⟩ := notified
        simpa [enabledTraffic, here, asks] using ok
      · -- Only a notification lies on a statement that asks.
        have ready := ready_below shape fun dev evt same => notified ⟨dev, evt, same⟩
        exact absurd asks (by simp [not_asks_of_ready ready top])

theorem of_rxUnmoved (inv : OffInv m) (unmoved : RxUnmoved m m') : OffInv m' := by
  have ledger_eq := rxLedger_of_rxUnmoved unmoved
  obtain ⟨frames, pushed, plain⟩ := unmoved.stack
  have other : .rxDisableWhile .adapter ∉ frames := fun member => plain _ member trivial
  refine inv.of_same (by rw [unmoved.rx]) (by rw [unmoved.rx]) (by rw [ledger_eq]) ?_ ?_ ?_
  · simp [UartAdapter.disabling, pushed, other]
  · intro f top asks
    cases frames with
    | nil => exact inv.asking f (by simpa [pushed] using top) asks
    | cons g rest =>
        obtain rfl : g = f := by simpa [pushed] using top
        exact absurd (rxPending_of_asks asks) (plain g List.mem_cons_self)
  · obtain ⟨new, grown, quiet⟩ := unmoved.log
    rw [grown]
    exact inv.moments.append fun o member past => offMoment_of_rxQuiet (quiet o member) past

/-- One more notification, which leaves the ledger's `off`. -/
theorem event (callback : (m.data .adapter).userCallback = true) (inv : OffInv m)
    {evt : UartEvent}
    (moment : ∀ past bytes, OffMoment past (.event .adapter evt bytes (m.data .adapter)))
    (kept : ∀ (l : RxLedger) bytes d, (l.observe (.event .adapter evt bytes d)).off = l.off) :
    OffInv (userCallback m .adapter evt) := by
  rw [userCallback_of_set callback]
  refine inv.of_same rfl rfl ?_ ?_ ?_ (always_snoc.mpr ⟨inv.moments, moment _ _⟩)
  · rw [push_log, note_log, rxLedger_snoc]
    exact kept _ _ _
  · simp [UartAdapter.disabling]
  · simp [Frame.asks]

/-- One more observation. -/
theorem note (inv : OffInv m) {o : Obs}
    (kept : ((rxLedger m.log).observe o).off = (rxLedger m.log).off)
    (moment : OffMoment m.log o) : OffInv (m.note o) :=
  inv.of_same rfl rfl (by simp [kept]) rfl inv.asking (always_snoc.mpr ⟨inv.moments, moment⟩)

theorem timer (inv : OffInv m) (timer : Option Int) :
    OffInv (m.setRx .adapter { (m.data .adapter).rx with timeoutTimer := timer }) :=
  inv.of_same (by simp) (by simp) rfl rfl inv.asking inv.moments

/-- In the handler, outside any notification, reception is enabled while there is
room in a buffer. -/
theorem enabled_of_room (rxInv : RxInv m) (inv : OffInv m) (inside : InInterrupt m.stack)
    (room : (m.data .adapter).rx.sizeLeft ≠ 0) : (m.data .adapter).rx.enabled = true := by
  by_contra off
  rcases inv.idle (by simpa using off) with releasing | free
  · simp [disabling_eq_false inside] at releasing
  · exact rxInv.buf_of_room room free

end OffInv

/-! ## The moves keep it -/

theorem offInv_notifyRxBuffer {m : Machine} (rxInv : RxInv m) (inv : OffInv m) :
    OffInv (notifyRxBuffer m .adapter) := by
  unfold notifyRxBuffer
  dsimp only
  split
  · have notified : OffInv (m.setRx .adapter { (m.data .adapter).rx with
        lastNotifyBuf := (m.data .adapter).rx.currBuf }) :=
      inv.of_same (by simp) (by simp) rfl rfl inv.asking inv.moments
    exact notified.event (by simpa using rxInv.callback) (fun _ _ => trivial) fun _ _ _ => rfl
  · exact inv

/-- A switch for `on_rx_ready`, with reception enabled. -/
theorem offInv_switchRxBuffer {m : Machine} (rxInv : RxInv m) (inv : OffInv m)
    (enabled : (m.data .adapter).rx.enabled = true) :
    OffInv (switchRxBuffer m .adapter true) := by
  have idle : disabling m.stack ≠ true := fun releasing => by
    simp [inv.disabling releasing] at enabled
  have off : (rxLedger m.log).off ≠ true := fun off => by
    simp [inv.off off] at enabled
  have moved : OffInv (((m.setRx .adapter (switched (m.data .adapter).rx)).note
      (.switched .adapter (m.data .adapter).rx.nextBuf (m.data .adapter).rx.nextBufLen)).push
        [.notifyRxBufferReq .adapter]) := by
    refine ⟨fun off' => absurd off' (by simpa [RxLedger.observe] using off), ?_, ?_, ?_,
      always_snoc.mpr ⟨inv.moments, trivial⟩⟩
    · simp [switched, enabled]
    · intro releasing
      exact absurd (by simpa [disabling] using releasing) (by simpa [disabling] using idle)
    · simp [switched, enabled]
  unfold switchRxBuffer
  dsimp only [if_true]
  split
  · exact moved.event (by simpa using rxInv.callback) (fun _ _ => trivial) fun _ _ _ => rfl
  · exact moved

/-- The loop of `rx_disable`, with reception off. -/
theorem offInv_rxDisableWhile {m : Machine} (rxInv : RxInv m)
    (off : (m.data .adapter).rx.enabled = false) (moments : Always OffMoment m.log) :
    OffInv (rxDisableWhile m .adapter) := by
  unfold rxDisableWhile
  split
  · rename_i busy
    unfold switchRxBuffer
    dsimp only [Bool.false_eq_true, if_false]
    rw [if_pos (by simpa using busy), userCallback_of_set (by simpa using rxInv.callback)]
    refine ⟨fun _ => by simpa [switched] using off, fun _ => Or.inl ?_,
      fun _ => by simpa [switched] using off, by simp [Frame.asks], ?_⟩
    · simp [disabling]
    · rw [push_log, note_log]
      exact always_snoc.mpr ⟨always_snoc.mpr ⟨moments, trivial⟩, trivial⟩
  · rename_i free
    rw [userCallback_of_set rxInv.callback]
    exact ⟨fun _ => off, fun _ => Or.inr (not_not.mp free), fun _ => off, by simp [Frame.asks],
      always_snoc.mpr ⟨moments, trivial⟩⟩

theorem offInv_rxEnable {m : Machine} (inv : OffInv m) (buf : Buffer) (len : Nat) (timeout : Int)
    (quiet : disabling m.stack = false) : OffInv (apiCall m (.rxEnable buf len timeout)) where
  off := by simp [apiCall, rxEnable, RxLedger.observe]
  idle := by simp [apiCall, rxEnable, rxEnabled]
  disabling := fun releasing => absurd (releasing.symm.trans quiet) (by simp)
  asking := by simp [apiCall, rxEnable, rxEnabled]
  moments := always_snoc.mpr ⟨inv.moments, trivial⟩

theorem offInv_rxBufRsp {m : Machine} (inv : OffInv m) (buf : Buffer) (len : Nat)
    (ok : (m.data .adapter).rx.enabled = true ∨ (m.data .adapter).rx.nextBuf ≠ NULL) :
    OffInv (apiCall m (.rxBufRsp buf len)) := by
  unfold apiCall rxBufRsp
  dsimp only
  split
  · exact inv.note (o := .call (.rxBufRsp buf len) (-EBUSY)) rfl fun zero => absurd zero (by decide)
  · rename_i spare
    have enabled := ok.resolve_right spare
    have spared : OffInv (m.setRx .adapter
        { (m.data .adapter).rx with nextBuf := buf.addr, nextBufLen := len }) :=
      inv.of_same (by simp) (by simp) rfl rfl inv.asking inv.moments
    refine spared.note (o := .call (.rxBufRsp buf len) 0) rfl fun _ => ?_
    by_contra off
    simp [inv.off (by simpa using off)] at enabled

theorem offInv_onRxReadyDo {m : Machine} (rxInv : RxInv m) (inv : OffInv m)
    (enabled : (m.data .adapter).rx.enabled = true) (notifyNow : Bool) :
    OffInv (onRxReadyDo m notifyNow) := by
  have pushed {frames : List Frame} (other : .rxDisableWhile .adapter ∉ frames) :
      OffInv (m.push frames) :=
    inv.of_same rfl rfl rfl (by simp [disabling, other]) (fun _ _ _ => enabled) inv.moments
  unfold onRxReadyDo
  split
  · exact offInv_notifyRxBuffer (rxInv.push _) (pushed (by simp))
  · exact pushed (by simp)

/-- The end of the loop, or its next round with reception enabled. -/
theorem offInv_onRxReadyLoop {m : Machine} (rxInv : RxInv m) (inv : OffInv m) {ret : Nat}
    (enabled : ret ≠ 0 → (m.data .adapter).rx.enabled = true) (notifyNow : Bool) :
    OffInv (onRxReadyLoop m ret notifyNow) := by
  unfold onRxReadyLoop
  split
  · exact offInv_onRxReadyDo rxInv inv (enabled ‹_›) notifyNow
  · split
    · exact offInv_notifyRxBuffer rxInv inv
    · exact inv

theorem offInv_onRxReadyRead {m : Machine} (rxInv : RxInv m) (inv : OffInv m)
    (enabled : (m.data .adapter).rx.enabled = true) (notifyNow : Bool) {bytes : List UInt8}
    (room : (m.data .adapter).rx.sizeLeft ≠ 0)
    (fits : bytes.length ≤ (m.data .adapter).rx.sizeLeft) :
    OffInv (onRxReadyRead m notifyNow bytes) := by
  refine offInv_onRxReadyLoop (rxInv_filled rxInv room fits) ?_ (fun _ => by simpa using enabled) _
  exact inv.of_same (by simp) (by simp) (by simp [RxLedger.observe]) rfl inv.asking
    (always_snoc.mpr ⟨inv.moments, trivial⟩)

theorem offInv_onRxReadyDrop {m : Machine} (rxInv : RxInv m) (inv : OffInv m) (cnt : Nat)
    (notifyNow : Bool) (bytes : List UInt8) : OffInv (onRxReadyDrop m cnt notifyNow bytes) := by
  have noted : RxInv (m.note (.dropped bytes)) := rxInv.note rfl trivial
  have kept : OffInv (m.note (.dropped bytes)) := inv.note rfl trivial
  unfold onRxReadyDrop
  dsimp only
  split
  · exact kept.of_same rfl rfl rfl (by simp [disabling]) (by simp [Frame.asks]) kept.moments
  · exact offInv_onRxReadyLoop noted kept (fun some_ => absurd rfl some_) _

theorem step_offInv {m m' : Machine} {a : Act} (rxInv : RxInv m) (shape : WellStacked m.stack)
    (inv : OffInv m) (ok : enabledTraffic m a = true) (taken : step m a = some m') : OffInv m' := by
  -- A handler statement leaves only handler statements, which ask for nothing.
  have popped {f : Frame} {rest : List Frame} (here : m.stack = f :: rest)
      (interrupt : f.interrupt = true) : InInterrupt rest ∧ OffInv { m with stack := rest } := by
    rw [here] at shape
    have inside := interrupt_below shape interrupt
    refine ⟨inside, inv.of_below here (fun same => by simp [same, Frame.interrupt] at interrupt) ?_⟩
    intro g top asks
    exact absurd asks (by simp [not_asks_of_ready inside.ready top])
  rcases step_rx rxInv.target taken with ⟨rest, left, unmoved⟩ | moved
  · exact (inv.of_left shape ok left).of_rxUnmoved unmoved
  · cases moved with
    | rxEnable buf len timeout =>
        exact offInv_rxEnable inv buf len timeout (by simpa [enabledTraffic] using ok)
    | rxBufRsp buf len =>
        exact offInv_rxBufRsp inv buf len (by simpa [enabledTraffic] using ok)
    | rxDisable =>
        have noted : RxInv (m.note (.call .rxDisable 0)) := rxInv.note rfl trivial
        exact offInv_rxDisableWhile (rxInv_rxDisabling noted) (by simp)
          (always_snoc.mpr ⟨inv.moments, trivial⟩)
    | rxTimeout =>
        have noted : RxInv (m.note .rxTimeout) := rxInv.note rfl trivial
        have kept : OffInv (m.note .rxTimeout) := inv.note rfl trivial
        exact offInv_notifyRxBuffer (rxInv_timer noted none) (kept.timer none)
    | @notifyRxBufferReq rest here =>
        have enabled := inv.asking (.notifyRxBufferReq .adapter) (by simp [here]) rfl
        have below := inv.of_below here (by simp) fun _ _ _ => enabled
        exact @OffInv.event { m with stack := rest } rxInv.callback below .rxBufRequest
          (fun _ _ => enabled) fun _ _ _ => rfl
    | @rxDisableWhile rest here =>
        have off := inv.disabling (by simp [here, disabling])
        exact offInv_rxDisableWhile (rxInv.of_stack rest) off inv.moments
    | @onRxReadySwitch rest here =>
        have enabled := inv.asking .onRxReadySwitch (by simp [here]) rfl
        have below := inv.of_below here (by simp) fun _ _ _ => enabled
        exact offInv_switchRxBuffer (rxInv.of_stack rest) below enabled
    | @onRxReady rest here flag enabled =>
        have below := (popped here rfl).2
        exact offInv_onRxReadyDo (rxInv_timer (rxInv.of_stack rest) _) (below.timer _)
          (by simpa using enabled) false
    | @onRxReadyRead rest notifyNow here ret room fits =>
        obtain ⟨inside, below⟩ := popped here rfl
        have enabled := below.enabled_of_room (rxInv.of_stack rest) inside room
        exact offInv_onRxReadyRead (rxInv.of_stack rest) below enabled _ room
          (FifoRead.length_got fits)
    | @onRxReadyDrop f rest here interrupt cnt notifyNow ret fits =>
        exact offInv_onRxReadyDrop (rxInv.of_stack rest) (popped here interrupt).2 _ _ _

theorem reachable_offInv {m : Machine} (run : Reachable step Init enabledTraffic m) :
    OffInv m := by
  apply run.strengthen (Q := fun m => RxInv m ∧ WellStacked m.stack)
  · intro s before
    exact ⟨reachable_rxInv before, reachable_wellStacked before⟩
  · intro s init
    exact init_offInv init
  · rintro s a t ⟨rxInv, shape⟩ inv ok taken
    exact step_offInv rxInv shape inv ok taken

/-- **No buffer traffic while reception is off**, in every run whose steps meet
`enabledTraffic`. -/
theorem no_traffic_while_off {m : Machine} (run : Reachable step Init enabledTraffic m) :
    Always OffMoment m.log :=
  (reachable_offInv run).moments

/-! ## A run that stays quiet, and one that asks while off -/

/-- `rx_disable` is called from inside the timer's notification, where nothing waits,
and reception is enabled again from inside `UART_RX_DISABLED`. -/
def quietRun : List Act :=
  [.call (.rxEnable 100 3 50)] ++ rxInterrupt ++
    [.resume .go, .resume .go, .resume .go, rxRead [1, 2]] ++ rxInterruptEnd ++
    [.rxTimeout, .call .rxDisable, .resume .go, .resume .go,
      .call (.rxEnable 200 2 50), .resume .go, .resume .go]

theorem no_traffic_while_off_quietRun :
    ∃ m, exec step enabledTraffic fresh quietRun = some m ∧ Always OffMoment m.log := by
  have possible : (exec step enabledTraffic fresh quietRun).isSome := by decide +kernel
  obtain ⟨m, taken⟩ := Option.isSome_iff_exists.mp possible
  exact ⟨m, taken, no_traffic_while_off (reachable_of_exec init_fresh taken)⟩

/-- A full buffer is flushed by `on_rx_ready`; from inside its `UART_RX_RDY` the
application calls `rx_disable` and does not enable reception again. -/
def disabledInFlushRun : List Act :=
  [.call (.rxEnable 100 1 50)] ++ rxInterrupt ++
    [.resume .go, .resume .go, .resume .go, rxRead [7], .call .rxDisable, .resume .go, .resume .go,
      .resume .go, .resume .go, .resume .go, .resume .go]

/-- The last observation is a request with reception off. -/
def requestsWhileOff (m : Machine) : Bool :=
  match m.log.getLast? with
  | some (.event .adapter .rxBufRequest _ d) => !d.rx.enabled
  | _ => false

/-- **`on_rx_ready` requests a buffer after reception was disabled** from inside the
notification it made. -/
theorem request_while_disabled :
    ¬ ∀ m, Reachable step Init unguarded m → Always OffMoment m.log := by
  intro quiet
  have found : (exec step unguarded fresh disabledInFlushRun).any requestsWhileOff = true := by
    decide +kernel
  obtain ⟨m, run, requested⟩ := exists_reachable_of_exec init_fresh found
  unfold requestsWhileOff at requested
  split at requested
  · rename_i last
    have enabled := (quiet m run).last last
    simp_all [OffMoment]
  · cases requested

end NcsExp.UartAdapter
