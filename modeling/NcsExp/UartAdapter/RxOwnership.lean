/-
# NcsExp.UartAdapter.RxOwnership -- buffers handed over are released by rx_disable

A buffer handed over by the application is the adapter's until its release is
notified: it is `nextBuf`, then `buf`.  The account of a run is that the buffers
handed over are those released and those held (`account`), and `rx_disable` ends
with none held.

The source keeps neither half in general:

* the loop of `rx_disable` runs while `buf` is set, so a buffer that is still in
  `nextBuf` when no buffer is in use is kept (`disable_keeps_next_buf`);
* `rx_disable` releases a buffer without notifying what is pending in it;
* `rx_enable` returns `-EBUSY` while buffers are held, but overwrites them first.

`disabled_accounts` is the exact positive half: without these calls, and without
buffers supplied while an `rx_disable` is still releasing, `UART_RX_DISABLED` finds
every buffer released, every byte reported, and `rx_enable` ready to be called.
-/
import NcsExp.UartAdapter.RxConservation

namespace NcsExp.UartAdapter

open NcsExp.Theory
open Machine

set_option autoImplicit false

/-- The buffers the adapter holds, in the order of their hand-over. -/
def held (r : RxData) : List Nat :=
  (if r.buf = NULL then [] else [r.buf]) ++ (if r.nextBuf = NULL then [] else [r.nextBuf])

/-- What a release and the end of `rx_disable` say of the account. -/
def DisableMoment (past : List Obs) : Obs → Prop
  | .event .adapter (.rxBufReleased _) _ _ =>
      (rxLedger past).reported = (rxLedger past).stored
  | .event .adapter .rxDisabled _ d =>
      d.rx.buf = NULL ∧ d.rx.nextBuf = NULL ∧
        (rxLedger past).released = (rxLedger past).handed ∧
        (rxLedger past).reported = (rxLedger past).stored ∧
        ∀ (buf : Buffer) (len : Nat) (timeout : Int), (rxEnabled d.rx buf.addr len timeout).2 = 0
  | _ => True

/-- A release is being notified. -/
def inRelease (stack : List Frame) : Bool :=
  stack.any fun
    | .userCallback .adapter (.rxBufReleased _) => true
    | _ => false

/-- No buffer is supplied from inside `UART_RX_BUF_RELEASED`. -/
def outsideRelease (m : Machine) : Act → Bool
  | .call (.rxEnable _ _ _) => !inRelease m.stack
  | .call (.rxBufRsp _ _) => !inRelease m.stack
  | _ => true

/-- An `rx_disable` of the adapter is still releasing. -/
def disabling (stack : List Frame) : Bool := stack.contains (.rxDisableWhile .adapter)

/-- Buffers are supplied while no `rx_disable` is releasing; `rx_enable` finds no
buffer held, and `rx_disable` finds nothing pending and no `nextBuf` without `buf`. -/
def ownedCalls (m : Machine) : Act → Bool
  | .call (.rxEnable _ _ _) =>
      decide ((m.data .adapter).rx.buf = NULL ∧ (m.data .adapter).rx.nextBuf = NULL) &&
        !disabling m.stack
  | .call (.rxBufRsp _ _) => !disabling m.stack
  | .call .rxDisable =>
      decide (Drained (m.data .adapter).rx) &&
        decide ((m.data .adapter).rx.buf = NULL → (m.data .adapter).rx.nextBuf = NULL)
  | _ => true

theorem disabling_iff {stack : List Frame} :
    disabling stack = true ↔ .rxDisableWhile .adapter ∈ stack := by
  simp [disabling]

theorem drainedCalls_of_ownedCalls (m : Machine) (a : Act) (ok : ownedCalls m a = true) :
    drainedCalls m a = true := by
  unfold ownedCalls at ok
  split at ok
  · have free := of_decide_eq_true ((Bool.and_eq_true _ _).mp ok).1
    exact decide_eq_true fun busy => absurd free.1 busy
  · rfl
  · exact ((Bool.and_eq_true _ _).mp ok).1
  · unfold drainedCalls
    split <;> simp_all

/-! ## The account -/

/-- `m'` is `m` for the account. -/
structure SameAccount (m m' : Machine) : Prop where
  buf : (m'.data .adapter).rx.buf = (m.data .adapter).rx.buf
  nextBuf : (m'.data .adapter).rx.nextBuf = (m.data .adapter).rx.nextBuf
  handed : (rxLedger m'.log).handed = (rxLedger m.log).handed
  released : (rxLedger m'.log).released = (rxLedger m.log).released

/-- The buffers handed over are those released and those held. -/
def Accounts (m : Machine) : Prop :=
  (rxLedger m.log).handed = (rxLedger m.log).released ++ held (m.data .adapter).rx

theorem SameAccount.accounts {m m' : Machine} (same : SameAccount m m') (accounts : Accounts m) :
    Accounts m' := by
  rw [Accounts, held, same.buf, same.nextBuf, same.handed, same.released]
  exact accounts

structure OwnInv (m : Machine) : Prop where
  accounts : Accounts m
  disabling : disabling m.stack = true → (m.data .adapter).rx.nextBuf = NULL
  moments : Always DisableMoment m.log

theorem init_ownInv {m : Machine} (init : Init m) : OwnInv m where
  accounts := by simp [Accounts, held, init.data, init.log, initData, RxLedger.empty]
  disabling := by simp [init.stack, UartAdapter.disabling]
  moments := by simp [init.log, always_nil]

theorem disableMoment_of_rxQuiet {o : Obs} (quiet : o.rxQuiet) (past : List Obs) :
    DisableMoment past o := by
  unfold DisableMoment
  split
  · exact absurd trivial quiet
  · exact absurd trivial quiet
  · trivial

theorem disabling_eq_false {stack : List Frame} (inside : InInterrupt stack) :
    disabling stack = false := by
  by_contra releasing
  have member := disabling_iff.mp (by simpa using releasing)
  exact absurd (inside _ member) (by simp [Frame.interrupt])

namespace OwnInv

variable {m m' : Machine}

theorem of_below (inv : OwnInv m) {f : Frame} {rest : List Frame} (here : m.stack = f :: rest) :
    OwnInv { m with stack := rest } := by
  refine ⟨inv.accounts, fun releasing => inv.disabling ?_, inv.moments⟩
  rw [here, disabling_iff]
  exact List.mem_cons_of_mem _ (disabling_iff.mp releasing)

theorem of_left (inv : OwnInv m) {a : Act} {rest : List Frame} (left : Left m a rest) :
    OwnInv { m with stack := rest } := by
  cases left with
  | all => exact inv
  | below here => exact inv.of_below here

theorem of_rxUnmoved (inv : OwnInv m) (unmoved : RxUnmoved m m') : OwnInv m' := by
  have ledger_eq := rxLedger_of_rxUnmoved unmoved
  have same : SameAccount m m' :=
    ⟨by rw [unmoved.rx], by rw [unmoved.rx], by rw [ledger_eq], by rw [ledger_eq]⟩
  refine ⟨same.accounts inv.accounts, fun releasing => ?_, ?_⟩
  · obtain ⟨frames, pushed, plain⟩ := unmoved.stack
    rw [disabling_iff, pushed] at releasing
    rw [same.nextBuf]
    refine inv.disabling (disabling_iff.mpr ?_)
    rcases List.mem_append.mp releasing with new | old
    · exact absurd trivial (plain _ new)
    · exact old
  · obtain ⟨new, grown, quiet⟩ := unmoved.log
    rw [grown]
    exact inv.moments.append fun o member past => disableMoment_of_rxQuiet (quiet o member) past

/-- One more notification, of a kind the account does not read. -/
theorem event (callback : (m.data .adapter).userCallback = true) (inv : OwnInv m)
    {evt : UartEvent}
    (kept : ∀ (l : RxLedger) bytes d, (l.observe (.event .adapter evt bytes d)).handed = l.handed ∧
      (l.observe (.event .adapter evt bytes d)).released = l.released)
    (moment : ∀ past bytes d, DisableMoment past (.event .adapter evt bytes d)) :
    OwnInv (userCallback m .adapter evt) := by
  rw [userCallback_of_set callback]
  have same : SameAccount m ((m.note (.event .adapter evt (shown m evt) (m.data .adapter))).push
      [.userCallback .adapter evt]) := by
    refine ⟨rfl, rfl, ?_, ?_⟩ <;> rw [push_log, note_log, rxLedger_snoc]
    · exact (kept _ _ _).1
    · exact (kept _ _ _).2
  refine ⟨same.accounts inv.accounts, fun releasing => inv.disabling ?_,
    always_snoc.mpr ⟨inv.moments, moment _ _ _⟩⟩
  simpa [UartAdapter.disabling] using releasing

/-- `rx` and the log change outside the account. -/
theorem of_same (inv : OwnInv m) (same : SameAccount m m') (stack : m'.stack = m.stack)
    (moments : Always DisableMoment m'.log) : OwnInv m' := by
  refine ⟨same.accounts inv.accounts, fun releasing => ?_, moments⟩
  rw [same.nextBuf]
  exact inv.disabling (by rw [← stack]; exact releasing)

theorem push (inv : OwnInv m) {frames : List Frame} (other : .rxDisableWhile .adapter ∉ frames) :
    OwnInv (m.push frames) := by
  refine ⟨inv.accounts, fun releasing => inv.disabling ?_, inv.moments⟩
  rw [push_stack, disabling_iff] at releasing
  exact disabling_iff.mpr ((List.mem_append.mp releasing).resolve_left other)

/-- One more observation that the account does not read. -/
theorem note (inv : OwnInv m) {o : Obs}
    (handed : ((rxLedger m.log).observe o).handed = (rxLedger m.log).handed)
    (released : ((rxLedger m.log).observe o).released = (rxLedger m.log).released)
    (moment : DisableMoment m.log o) : OwnInv (m.note o) :=
  inv.of_same ⟨rfl, rfl, by simp [handed], by simp [released]⟩ rfl
    (always_snoc.mpr ⟨inv.moments, moment⟩)

theorem timer (inv : OwnInv m) (timer : Option Int) :
    OwnInv (m.setRx .adapter { (m.data .adapter).rx with timeoutTimer := timer }) :=
  inv.of_same ⟨by simp, by simp, rfl, rfl⟩ rfl inv.moments

end OwnInv

theorem Flushed.reported_eq {m : Machine} (flushed : Flushed m) :
    (rxLedger m.log).reported = (rxLedger m.log).stored := by
  have conserves := flushed.1
  rw [Conserves, pending_of_drained flushed.2, List.append_nil] at conserves
  exact conserves

/-! ## The moves keep it -/

theorem ownInv_notifyRxBuffer {m : Machine} (rxInv : RxInv m) (inv : OwnInv m) :
    OwnInv (notifyRxBuffer m .adapter) := by
  unfold notifyRxBuffer
  dsimp only
  split
  · have notified : OwnInv (m.setRx .adapter { (m.data .adapter).rx with
        lastNotifyBuf := (m.data .adapter).rx.currBuf }) :=
      inv.of_same ⟨by simp, by simp, rfl, rfl⟩ rfl inv.moments
    exact notified.event (by simpa using rxInv.callback) (fun _ _ _ => ⟨rfl, rfl⟩)
      fun _ _ _ => trivial
  · exact inv

/-- The release of a switched buffer, on any stack: `nextBuf` is free. -/
theorem ownInv_released {m m₁ : Machine} (callback : (m₁.data .adapter).userCallback = true)
    (rx : (m₁.data .adapter).rx = switched (m.data .adapter).rx)
    (log : m₁.log = m.log ++ [.switched .adapter (m.data .adapter).rx.nextBuf
      (m.data .adapter).rx.nextBufLen])
    (flushed : Flushed m) (accounts : Accounts m) (moments : Always DisableMoment m.log)
    (busy : (m.data .adapter).rx.buf ≠ NULL) :
    OwnInv (userCallback m₁ .adapter (.rxBufReleased (m.data .adapter).rx.buf)) := by
  rw [userCallback_of_set callback]
  refine ⟨?_, fun _ => by simp [rx, switched], ?_⟩
  · rw [Accounts, held, if_neg busy] at accounts
    rw [Accounts, push_log, note_log, rxLedger_snoc, log, rxLedger_snoc]
    simp [RxLedger.observe, held, rx, switched, accounts]
  · rw [push_log, note_log, log]
    refine always_snoc.mpr ⟨always_snoc.mpr ⟨moments, trivial⟩, ?_⟩
    simpa [DisableMoment, RxLedger.observe] using flushed.reported_eq

theorem ownInv_switchRxBuffer {m : Machine} (rxInv : RxInv m) (flushed : Flushed m)
    (accounts : Accounts m) (moments : Always DisableMoment m.log) (requestNew : Bool) :
    OwnInv (switchRxBuffer m .adapter requestNew) := by
  have callback := rxInv.callback
  have unused (stack : List Frame) (free : (m.data .adapter).rx.buf = NULL) :
      OwnInv { (m.setRx .adapter (switched (m.data .adapter).rx)).note
        (.switched .adapter (m.data .adapter).rx.nextBuf (m.data .adapter).rx.nextBufLen) with
        stack := stack } := by
    rw [Accounts, held, if_pos free] at accounts
    refine ⟨?_, fun _ => by simp [switched], always_snoc.mpr ⟨moments, trivial⟩⟩
    simpa [Accounts, held, switched, RxLedger.observe] using accounts
  unfold switchRxBuffer
  cases requestNew <;> dsimp only [Bool.false_eq_true, if_false, if_true] <;> split
  · exact ownInv_released (by simpa using callback) (by simp) rfl flushed accounts moments ‹_›
  · exact unused _ (not_not.mp ‹_›)
  · exact ownInv_released (by simpa using callback) (by simp) rfl flushed accounts moments ‹_›
  · exact unused _ (not_not.mp ‹_›)

theorem ownInv_rxDisableWhile {m : Machine} (rxInv : RxInv m) (flushed : Flushed m)
    (accounts : Accounts m) (moments : Always DisableMoment m.log)
    (idle : (m.data .adapter).rx.buf = NULL → (m.data .adapter).rx.nextBuf = NULL) :
    OwnInv (rxDisableWhile m .adapter) := by
  unfold rxDisableWhile
  split
  · exact ownInv_switchRxBuffer (rxInv.push _) flushed accounts moments false
  · rename_i none_
    have free := not_not.mp none_
    have spare := idle free
    rw [userCallback_of_set rxInv.callback]
    rw [Accounts, held, if_pos free, if_pos spare] at accounts
    refine ⟨?_, fun _ => spare, ?_⟩
    · rw [Accounts, push_log, note_log, rxLedger_snoc]
      simp [RxLedger.observe, held, free, spare]
    · refine always_snoc.mpr ⟨moments, free, spare, ?_, flushed.reported_eq, fun _ _ _ => ?_⟩
      · simpa using accounts.symm
      · simp [rxEnabled, free, spare]

theorem ownInv_rxDisable {m : Machine} (rxInv : RxInv m) (flushed : Flushed m) (inv : OwnInv m)
    (idle : (m.data .adapter).rx.buf = NULL → (m.data .adapter).rx.nextBuf = NULL) :
    OwnInv (rxDisable m .adapter) := by
  have same : SameStream m (m.setRx .adapter { (m.data .adapter).rx with enabled := false }) :=
    ⟨by simp, by simp, by simp, rfl, rfl, rfl⟩
  have sameAccount : SameAccount m
      (m.setRx .adapter { (m.data .adapter).rx with enabled := false }) :=
    ⟨by simp, by simp, rfl, rfl⟩
  exact ownInv_rxDisableWhile (rxInv_rxDisabling rxInv) (same.flushed flushed)
    (sameAccount.accounts inv.accounts) inv.moments (by simpa using idle)

theorem ownInv_rxEnable {m : Machine} (inv : OwnInv m) (buf : Buffer) (len : Nat) (timeout : Int)
    (free : (m.data .adapter).rx.buf = NULL) (spare : (m.data .adapter).rx.nextBuf = NULL)
    (quiet : disabling m.stack = false) : OwnInv (apiCall m (.rxEnable buf len timeout)) := by
  have accounts := inv.accounts
  rw [Accounts, held, if_pos free, if_pos spare] at accounts
  refine ⟨?_, fun releasing => ?_, always_snoc.mpr ⟨inv.moments, trivial⟩⟩
  · simp [Accounts, held, apiCall, rxEnable, rxEnabled, RxLedger.observe, free, spare, buf.nonNull,
      accounts]
  · exact absurd (releasing.symm.trans quiet) (by simp)

theorem ownInv_rxBufRsp {m : Machine} (inv : OwnInv m) (buf : Buffer) (len : Nat)
    (quiet : disabling m.stack = false) : OwnInv (apiCall m (.rxBufRsp buf len)) := by
  unfold apiCall rxBufRsp
  dsimp only
  split
  · exact inv.note (o := .call (.rxBufRsp buf len) (-EBUSY)) rfl rfl trivial
  · rename_i spare
    have accounts := inv.accounts
    rw [Accounts, held, if_pos (not_not.mp spare)] at accounts
    refine ⟨?_, fun releasing => ?_, always_snoc.mpr ⟨inv.moments, trivial⟩⟩
    · simp [Accounts, held, RxLedger.observe, buf.nonNull, accounts]
    · exact absurd (releasing.symm.trans quiet) (by simp)

theorem ownInv_onRxReadyDo {m : Machine} (rxInv : RxInv m) (inv : OwnInv m) (notifyNow : Bool) :
    OwnInv (onRxReadyDo m notifyNow) := by
  unfold onRxReadyDo
  split
  · exact ownInv_notifyRxBuffer (rxInv.push _) (inv.push (by simp))
  · exact inv.push (by simp)

theorem ownInv_onRxReadyLoop {m : Machine} (rxInv : RxInv m) (inv : OwnInv m) (ret : Nat)
    (notifyNow : Bool) : OwnInv (onRxReadyLoop m ret notifyNow) := by
  unfold onRxReadyLoop
  split
  · exact ownInv_onRxReadyDo rxInv inv notifyNow
  · split
    · exact ownInv_notifyRxBuffer rxInv inv
    · exact inv

theorem ownInv_onRxReadyRead {m : Machine} (rxInv : RxInv m) (inv : OwnInv m) (notifyNow : Bool)
    {bytes : List UInt8} (room : (m.data .adapter).rx.sizeLeft ≠ 0)
    (fits : bytes.length ≤ (m.data .adapter).rx.sizeLeft) :
    OwnInv (onRxReadyRead m notifyNow bytes) := by
  refine ownInv_onRxReadyLoop (rxInv_filled rxInv room fits) ?_ _ _
  exact inv.of_same ⟨by simp, by simp, by simp [RxLedger.observe], by simp [RxLedger.observe]⟩ rfl
    (always_snoc.mpr ⟨inv.moments, trivial⟩)

theorem ownInv_onRxReadyDrop {m : Machine} (rxInv : RxInv m) (inv : OwnInv m) (cnt : Nat)
    (notifyNow : Bool) (bytes : List UInt8) : OwnInv (onRxReadyDrop m cnt notifyNow bytes) := by
  have noted : RxInv (m.note (.dropped bytes)) := rxInv.note rfl trivial
  have kept : OwnInv (m.note (.dropped bytes)) := inv.note rfl rfl trivial
  unfold onRxReadyDrop
  dsimp only
  split
  · exact kept.push (by simp)
  · exact ownInv_onRxReadyLoop noted kept _ _

theorem step_ownInv {m m' : Machine} {a : Act} (rxInv : RxInv m) (stream : StreamInv m)
    (inv : OwnInv m) (ok : ownedCalls m a = true) (taken : step m a = some m') : OwnInv m' := by
  rcases step_rx rxInv.target taken with ⟨rest, left, unmoved⟩ | moved
  · exact (inv.of_left left).of_rxUnmoved unmoved
  · cases moved with
    | rxEnable buf len timeout =>
        obtain ⟨free, quiet⟩ := (Bool.and_eq_true _ _).mp ok
        obtain ⟨free, spare⟩ := of_decide_eq_true free
        exact ownInv_rxEnable inv buf len timeout free spare (by simpa using quiet)
    | rxBufRsp buf len => exact ownInv_rxBufRsp inv buf len (by simpa [ownedCalls] using ok)
    | rxDisable =>
        obtain ⟨drained, idle⟩ := (Bool.and_eq_true _ _).mp ok
        have same : SameStream m (m.note (.call .rxDisable 0)) := sameStream_note m rfl rfl
        exact ownInv_rxDisable (rxInv.note rfl trivial)
          (same.flushed ⟨stream.conserves, of_decide_eq_true drained⟩)
          (inv.note rfl rfl trivial) (of_decide_eq_true idle)
    | rxTimeout =>
        have noted : RxInv (m.note .rxTimeout) := rxInv.note rfl trivial
        have kept : OwnInv (m.note .rxTimeout) := inv.note rfl rfl trivial
        exact ownInv_notifyRxBuffer (rxInv_timer noted none) (kept.timer none)
    | @notifyRxBufferReq rest here =>
        have popped := inv.of_below here
        exact @OwnInv.event { m with stack := rest } rxInv.callback popped .rxBufRequest
          (fun _ _ _ => ⟨rfl, rfl⟩) fun _ _ _ => trivial
    | @rxDisableWhile rest here =>
        have drained := stream.settled ⟨.rxDisableWhile .adapter, by simp [here], trivial⟩
        have spare := inv.disabling (by simp [here, disabling])
        exact ownInv_rxDisableWhile (rxInv.of_stack rest) ⟨stream.conserves, drained⟩ inv.accounts
          inv.moments fun _ => spare
    | @onRxReadySwitch rest here =>
        have drained := stream.settled ⟨.onRxReadySwitch, by simp [here], trivial⟩
        exact ownInv_switchRxBuffer (rxInv.of_stack rest) ⟨stream.conserves, drained⟩ inv.accounts
          inv.moments true
    | @onRxReady rest here flag =>
        have popped := inv.of_below here
        exact ownInv_onRxReadyDo (rxInv_timer (rxInv.of_stack rest) _) (popped.timer _) false
    | @onRxReadyRead rest notifyNow here ret room fits =>
        have popped := inv.of_below here
        exact ownInv_onRxReadyRead (rxInv.of_stack rest) popped _ room (FifoRead.length_got fits)
    | @onRxReadyDrop f rest here interrupt cnt notifyNow ret fits =>
        have popped := inv.of_below here
        exact ownInv_onRxReadyDrop (rxInv.of_stack rest) popped _ _ _

theorem reachable_ownInv {m : Machine} (run : Reachable step Init ownedCalls m) : OwnInv m := by
  apply run.strengthen (Q := fun m => RxInv m ∧ StreamInv m)
  · intro s before
    have drained := before.mono drainedCalls_of_ownedCalls
    exact ⟨reachable_rxInv before, reachable_streamInv drained⟩
  · intro s init
    exact init_ownInv init
  · rintro s a t ⟨rxInv, stream⟩ inv ok taken
    exact step_ownInv rxInv stream inv ok taken

/-- **`rx_disable` settles the account.**  In every run whose calls meet
`ownedCalls`, `UART_RX_DISABLED` finds neither `buf` nor `nextBuf` set, each buffer
handed over since the last disable notified as released exactly once and in order,
every byte stored reported, also before each release, and `rx_enable` would return
0. -/
theorem disabled_accounts {m : Machine} (run : Reachable step Init ownedCalls m) :
    Always DisableMoment m.log :=
  (reachable_ownInv run).moments

/-! ## A run that settles, and one that keeps a buffer -/

/-- The run across two buffers settles its account. -/
theorem disabled_accounts_rxRun :
    ∃ m, exec step ownedCalls fresh rxRun = some m ∧ Always DisableMoment m.log := by
  have possible : (exec step ownedCalls fresh rxRun).isSome := by decide +kernel
  obtain ⟨m, taken⟩ := Option.isSome_iff_exists.mp possible
  exact ⟨m, taken, disabled_accounts (reachable_of_exec init_fresh taken)⟩

/-- Reception is enabled and disabled again before any byte arrives. -/
def enableDisableRun : List Act :=
  [.call (.rxEnable 100 8 50), .call .rxDisable]

/-- The last observation is `UART_RX_DISABLED` with a buffer in `nextBuf`, with which
`rx_enable` is refused. -/
def keepsNextBuf (m : Machine) : Bool :=
  match m.log.getLast? with
  | some (.event .adapter .rxDisabled _ d) => decide (d.rx.nextBuf ≠ NULL)
  | _ => false

/-- **`rx_disable` keeps a buffer that was not yet in use.** -/
theorem disable_keeps_next_buf :
    ¬ ∀ m, Reachable step Init outsideRelease m → Always DisableMoment m.log := by
  intro settled
  have found : (exec step outsideRelease fresh enableDisableRun).any keepsNextBuf = true := by
    decide +kernel
  obtain ⟨m, run, kept⟩ := exists_reachable_of_exec init_fresh found
  unfold keepsNextBuf at kept
  split at kept
  · rename_i last
    exact of_decide_eq_true kept ((settled m run).last last).2.1
  · cases kept

end NcsExp.UartAdapter
