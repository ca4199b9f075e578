/-
# NcsExp.UartAdapter.RxLedger -- what a log says of the receive side

`rxLedger log` reads a log as the account of the receive side: the activation of
the buffer in use with how much of it is filled and notified, the bytes stored and
the bytes reported so far, the buffers handed over and released since the last
`UART_RX_DISABLED`, and whether that event is the last word on reception.  Like
the transmit ledger it looks at observations only.

`step_rx` says once what a step can do to the receive side: it leaves `rx` and
memory alone and observes nothing the ledger reads (`RxUnmoved`), or it is one of
the moves of `RxMove`.
-/
import NcsExp.UartAdapter.CallStack

namespace NcsExp.UartAdapter

open NcsExp.Theory
open Machine

set_option autoImplicit false

/-! ## The ledger -/

/-- A buffer in use, from the moment it is switched to. -/
structure Activation where
  base : Nat
  len : Nat
  filled : Nat
  notified : Nat
  deriving DecidableEq

structure RxLedger where
  active : Option Activation
  stored : List UInt8
  reported : List UInt8
  handed : List Nat
  released : List Nat
  off : Bool
  deriving DecidableEq

def RxLedger.empty : RxLedger := ⟨none, [], [], [], [], false⟩

/-- The observer behind the ledger. -/
def RxLedger.observe (l : RxLedger) : Obs → RxLedger
  | .call (.rxEnable buf _ _) ret =>
      { l with
        active := none
        handed := if ret = 0 then l.handed ++ [buf.addr] else l.handed
        off := false }
  | .call (.rxBufRsp buf _) ret =>
      { l with handed := if ret = 0 then l.handed ++ [buf.addr] else l.handed }
  | .switched .adapter buf len =>
      { l with active := if buf = NULL then none else some ⟨buf, len, 0, 0⟩ }
  | .stored _ bytes =>
      { l with
        active := l.active.map fun a => { a with filled := a.filled + bytes.length }
        stored := l.stored ++ bytes }
  | .event .adapter (.rxRdy _ len offset) shown _ =>
      { l with
        active := l.active.map fun a => { a with notified := offset + len }
        reported := l.reported ++ shown }
  | .event .adapter (.rxBufReleased buf) _ _ => { l with released := l.released ++ [buf] }
  | .event .adapter .rxDisabled _ _ => { l with handed := [], released := [], off := true }
  | _ => l

def rxLedger (log : List Obs) : RxLedger := present RxLedger.observe .empty log

@[simp] theorem rxLedger_nil : rxLedger [] = .empty := rfl

@[simp] theorem rxLedger_snoc (log : List Obs) (o : Obs) :
    rxLedger (log ++ [o]) = (rxLedger log).observe o := present_snoc

/-- The events that concern the receive side. -/
def UartEvent.isRx : UartEvent → Prop
  | .rxRdy _ _ _ => True
  | .rxBufRequest => True
  | .rxBufReleased _ => True
  | .rxDisabled => True
  | _ => False

/-- The observations that say nothing about the receive side. -/
def Obs.rxQuiet : Obs → Prop
  | .call (.rxEnable _ _ _) _ => False
  | .call (.rxBufRsp _ _) _ => False
  | .switched .adapter _ _ => False
  | .stored _ _ => False
  | .event .adapter evt _ _ => ¬ evt.isRx
  | _ => True

theorem rxObserve_of_rxQuiet (l : RxLedger) {o : Obs} (quiet : o.rxQuiet) : l.observe o = l := by
  unfold Obs.rxQuiet at quiet
  split at quiet
  case h_5 evt bytes d => cases evt <;> first | rfl | exact absurd trivial quiet
  all_goals simp_all [RxLedger.observe]

theorem rxQuiet_event {dev : Dev} {evt : UartEvent} (other : dev = .target ∨ ¬ evt.isRx)
    (bytes : List UInt8) (d : AdapterData) : (Obs.event dev evt bytes d).rxQuiet := by
  cases dev with
  | target => trivial
  | adapter => exact other.resolve_left (by simp)

/-- The statements of the receive side that decide what is requested or released. -/
def Frame.rxPending : Frame → Prop
  | .onRxReadySwitch => True
  | .notifyRxBufferReq .adapter => True
  | .rxDisableWhile .adapter => True
  | _ => False

theorem not_rxPending_of_interrupt {f : Frame} (interrupt : f.interrupt = true) :
    ¬ f.rxPending := by
  cases f <;> simp_all [Frame.interrupt, Frame.rxPending]

/-! ## Steps that leave the receive side alone -/

/-- `m'` has the adapter's `rx` and the memory of `m`, has pushed none of the
receive side's pending statements, and nothing the ledger reads was observed. -/
structure RxUnmoved (m m' : Machine) : Prop where
  rx : (m'.data .adapter).rx = (m.data .adapter).rx
  target : (m'.data .adapter).target = (m.data .adapter).target
  callback : (m'.data .adapter).userCallback = (m.data .adapter).userCallback
  mem : m'.mem = m.mem
  stack : ∃ frames, m'.stack = frames ++ m.stack ∧ ∀ f ∈ frames, ¬ f.rxPending
  log : ∃ new, m'.log = m.log ++ new ∧ ∀ o ∈ new, o.rxQuiet

namespace RxUnmoved

/-- Same receive side, same memory, same stack, same log. -/
theorem of_same {m m' : Machine} (rx : (m'.data .adapter).rx = (m.data .adapter).rx)
    (target : (m'.data .adapter).target = (m.data .adapter).target)
    (callback : (m'.data .adapter).userCallback = (m.data .adapter).userCallback)
    (mem : m'.mem = m.mem) (stack : m'.stack = m.stack) (log : m'.log = m.log) : RxUnmoved m m' :=
  ⟨rx, target, callback, mem, ⟨[], by simp [stack], by simp⟩, ⟨[], by simp [log], by simp⟩⟩

theorem refl (m : Machine) : RxUnmoved m m := of_same rfl rfl rfl rfl rfl rfl

theorem trans {m₁ m₂ m₃ : Machine} (first : RxUnmoved m₁ m₂) (second : RxUnmoved m₂ m₃) :
    RxUnmoved m₁ m₃ := by
  obtain ⟨new, grown, quiet⟩ := first.log
  obtain ⟨new', grown', quiet'⟩ := second.log
  obtain ⟨frames, pushed, plain⟩ := first.stack
  obtain ⟨frames', pushed', plain'⟩ := second.stack
  refine ⟨second.rx.trans first.rx, second.target.trans first.target,
    second.callback.trans first.callback, second.mem.trans first.mem,
    ⟨frames' ++ frames, ?_, ?_⟩, ⟨new ++ new', ?_, ?_⟩⟩
  · rw [pushed', pushed, List.append_assoc]
  · intro f member
    rcases List.mem_append.mp member with later | earlier
    · exact plain' f later
    · exact plain f earlier
  · rw [grown', grown, List.append_assoc]
  · intro o member
    rcases List.mem_append.mp member with old | fresh
    · exact quiet o old
    · exact quiet' o fresh

theorem setTx (m : Machine) (dev : Dev) (t : TxData) : RxUnmoved m (m.setTx dev t) :=
  of_same (by simp) (by simp) (by simp) rfl rfl rfl

theorem setTargetRx (m : Machine) (r : RxData) : RxUnmoved m (m.setRx .target r) :=
  of_same (by simp) (by simp) (by simp) rfl rfl rfl

theorem setIrq (m : Machine) (dev : Dev) (f : IrqEnable → IrqEnable) :
    RxUnmoved m (m.setIrq dev f) :=
  of_same rfl rfl rfl rfl rfl rfl

theorem push (m : Machine) {frames : List Frame} (plain : ∀ f ∈ frames, ¬ f.rxPending) :
    RxUnmoved m (m.push frames) :=
  ⟨rfl, rfl, rfl, rfl, ⟨frames, rfl, plain⟩, ⟨[], by simp, by simp⟩⟩

theorem note (m : Machine) (o : Obs) (quiet : o.rxQuiet) : RxUnmoved m (m.note o) :=
  ⟨rfl, rfl, rfl, rfl, ⟨[], rfl, by simp⟩, ⟨[o], rfl, by simpa using quiet⟩⟩

theorem ite {m m₁ m₂ : Machine} {c : Prop} [Decidable c] (left : RxUnmoved m m₁)
    (right : RxUnmoved m m₂) : RxUnmoved m (if c then m₁ else m₂) := by
  split
  · exact left
  · exact right

theorem userCallback (m : Machine) {dev : Dev} {evt : UartEvent}
    (other : dev = .target ∨ ¬ evt.isRx) : RxUnmoved m (userCallback m dev evt) := by
  refine .ite ?_ (refl m)
  exact (note m _ (rxQuiet_event other _ _)).trans (push _ (by simp [Frame.rxPending]))

theorem tx (m : Machine) (buf len : Nat) (timeout : Int) :
    RxUnmoved m (tx m .adapter buf len timeout).1 := by
  unfold UartAdapter.tx
  dsimp only
  split
  · exact refl m
  · split
    · exact refl m
    · dsimp only
      exact (setTx m _ _).trans (setIrq _ _ _)

theorem txAbort (m : Machine) {entry : Obs} (quiet : entry.rxQuiet) :
    RxUnmoved m (txAbort m .adapter entry) := by
  have noted := (note m entry quiet).trans (setIrq _ (m.data .adapter).target fun i =>
    { i with tx := false })
  unfold UartAdapter.txAbort
  dsimp only
  split
  · exact noted.trans (setTx _ _ _)
  · exact (noted.trans (setTx _ _ _)).trans (userCallback _ (Or.inr not_false))

theorem switchTarget (m : Machine) : RxUnmoved m (switchRxBuffer m .target false) := by
  have moved : RxUnmoved m ((m.setRx .target (switched (m.data .target).rx)).note
      (.switched .target (m.data .target).rx.nextBuf (m.data .target).rx.nextBufLen)) :=
    (setTargetRx m _).trans (note _ _ trivial)
  exact .ite (moved.trans (userCallback _ (Or.inl rfl))) moved

theorem rxDisableWhileTarget (m : Machine) : RxUnmoved m (rxDisableWhile m .target) := by
  have pushed : RxUnmoved m (m.push [.rxDisableWhile .target]) :=
    push m (by simp [Frame.rxPending])
  exact .ite (pushed.trans (switchTarget _)) (userCallback m (Or.inl rfl))

theorem onError {m : Machine} (target : (m.data .adapter).target = .target) (rxErr : Int) :
    RxUnmoved m (onError m rxErr) := by
  unfold UartAdapter.onError rxDisable
  rw [target]
  exact ((push m (by simp [Frame.rxPending])).trans (setTargetRx _ _)).trans
    ((setIrq _ _ _).trans (rxDisableWhileTarget _))

theorem onTxReady (m : Machine) (ret : Int) : RxUnmoved m (onTxReady m ret) :=
  .ite (refl m) ((note m (.pushed _ _) trivial).trans (setTx _ _ _))

theorem onTxComplete (m : Machine) : RxUnmoved m (onTxComplete m) := by
  have masked := setIrq m (m.data .adapter).target fun i => { i with tx := false }
  refine .ite (.ite ?_ (masked.trans (setTx _ _ _))) (refl m)
  exact (masked.trans (setTx _ _ _)).trans (userCallback _ (Or.inr not_false))

end RxUnmoved

/-! ## What a step can do to the receive side -/

/-- What is left on the stack when a step begins that leaves the receive side
alone. -/
inductive Left (m : Machine) : Act → List Frame → Prop
  | all (a : Act) : Left m a m.stack
  | below {f : Frame} {rest : List Frame} (here : m.stack = f :: rest) (plain : ¬ f.rxPending)
      (answer : Answer) : Left m (.resume answer) rest

/-- The moves of the receive side, from the machine the step starts in; the last
four resume a statement that lies on `rest`. -/
inductive RxMove (m : Machine) : Act → Machine → Prop
  | rxEnable (buf : Buffer) (len : Nat) (timeout : Int) (idle : callable m.stack = true) :
      RxMove m (.call (.rxEnable buf len timeout)) (apiCall m (.rxEnable buf len timeout))
  | rxBufRsp (buf : Buffer) (len : Nat) (idle : callable m.stack = true) :
      RxMove m (.call (.rxBufRsp buf len)) (apiCall m (.rxBufRsp buf len))
  | rxDisable (idle : callable m.stack = true) :
      RxMove m (.call .rxDisable) (apiCall m .rxDisable)
  | rxTimeout (empty : m.stack = []) : RxMove m .rxTimeout (rxTimeout m)
  | notifyRxBufferReq {rest : List Frame} (here : m.stack = .notifyRxBufferReq .adapter :: rest) :
      RxMove m (.resume .go) (userCallback { m with stack := rest } .adapter .rxBufRequest)
  | rxDisableWhile {rest : List Frame} (here : m.stack = .rxDisableWhile .adapter :: rest) :
      RxMove m (.resume .go) (rxDisableWhile { m with stack := rest } .adapter)
  | onRxReadySwitch {rest : List Frame} (here : m.stack = .onRxReadySwitch :: rest) :
      RxMove m (.resume .go) (switchRxBuffer { m with stack := rest } .adapter true)
  | onRxReady {rest : List Frame} (here : m.stack = .irqRxReady :: rest) {flag : Bool}
      (enabled : (m.data .adapter).rx.enabled = true) :
      RxMove m (.resume (.status flag)) (onRxReady { m with stack := rest })
  | onRxReadyRead {rest : List Frame} {notifyNow : Bool}
      (here : m.stack = .onRxReadyRead notifyNow :: rest) {ret : FifoRead}
      (room : (m.data .adapter).rx.sizeLeft ≠ 0) (fits : ret.Fits (m.data .adapter).rx.sizeLeft) :
      RxMove m (.resume (.fifoRead ret)) (onRxReadyRead { m with stack := rest } notifyNow ret.got)
  | onRxReadyDrop {f : Frame} {rest : List Frame} (here : m.stack = f :: rest)
      (interrupt : f.interrupt = true) (cnt : Nat) (notifyNow : Bool) {ret : FifoRead}
      (fits : ret.Fits 1) :
      RxMove m (.resume (.fifoRead ret))
        (onRxReadyDrop { m with stack := rest } cnt notifyNow ret.got)

theorem step_rx {m m' : Machine} {a : Act} (target : (m.data .adapter).target = .target)
    (taken : step m a = some m') :
    (∃ rest, Left m a rest ∧ RxUnmoved { m with stack := rest } m') ∨ RxMove m a m' := by
  cases a with
  | call c =>
      simp only [step, Option.ite_none_right_eq_some, Option.some.injEq] at taken
      obtain ⟨idle, rfl⟩ := taken
      cases c with
      | tx buf len timeout =>
          exact Or.inl ⟨m.stack, .all _, (RxUnmoved.tx m buf.addr len timeout).trans
            (.note _ (.call (.tx buf len timeout) _) trivial)⟩
      | txAbort => exact Or.inl ⟨m.stack, .all _, .txAbort m trivial⟩
      | rxEnable buf len timeout => exact Or.inr (.rxEnable buf len timeout idle)
      | rxBufRsp buf len => exact Or.inr (.rxBufRsp buf len idle)
      | rxDisable => exact Or.inr (.rxDisable idle)
  | uartIrqHandler =>
      simp only [step, Option.ite_none_right_eq_some, Option.some.injEq] at taken
      obtain ⟨-, rfl⟩ := taken
      exact Or.inl ⟨m.stack, .all _, .push m (by simp [Frame.rxPending])⟩
  | txTimeout =>
      simp only [step, Option.ite_none_right_eq_some, Option.some.injEq] at taken
      obtain ⟨-, rfl⟩ := taken
      exact Or.inl ⟨m.stack, .all _, .txAbort m trivial⟩
  | rxTimeout =>
      simp only [step, Option.ite_none_right_eq_some, Option.some.injEq] at taken
      obtain ⟨empty, rfl⟩ := taken
      exact Or.inr (.rxTimeout empty)
  | resume answer =>
      cases hstack : m.stack with
      | nil => simp [step, hstack] at taken
      | cons frame rest =>
          simp only [step, hstack] at taken
          have left {m' : Machine} (unmoved : RxUnmoved { m with stack := rest } m')
              (plain : ¬ frame.rxPending) :
              ∃ rest, Left m (.resume answer) rest ∧ RxUnmoved { m with stack := rest } m' :=
            ⟨rest, .below hstack plain answer, unmoved⟩
          cases frame <;> cases answer <;> simp only [resume, reduceCtorEq] at taken
          case userCallback.go => cases taken; exact Or.inl (left (.refl _) not_false)
          case notifyRxBufferReq.go dev =>
              cases taken
              cases dev with
              | adapter => exact Or.inr (.notifyRxBufferReq hstack)
              | target => exact Or.inl (left (.userCallback _ (Or.inl rfl)) not_false)
          case rxDisableWhile.go dev =>
              cases taken
              cases dev with
              | adapter => exact Or.inr (.rxDisableWhile hstack)
              | target => exact Or.inl (left (.rxDisableWhileTarget _) not_false)
          case onRxReadySwitch.go => cases taken; exact Or.inr (.onRxReadySwitch hstack)
          case onErrorStopped.go =>
              cases taken
              exact Or.inl (left (.userCallback _ (Or.inr not_false)) not_false)
          case onTxReady.fifoFill =>
              split at taken
              · cases taken; exact Or.inl (left (.refl _) not_false)
              · simp only [Option.ite_none_right_eq_some, Option.some.injEq] at taken
                obtain ⟨-, rfl⟩ := taken
                exact Or.inl (left (.onTxReady _ _) not_false)
          case onRxReadyRead.fifoRead =>
              split at taken
              · simp only [Option.ite_none_right_eq_some, Option.some.injEq] at taken
                obtain ⟨fits, rfl⟩ := taken
                exact Or.inr (.onRxReadyDrop hstack rfl 0 _ fits)
              · rename_i room
                simp only [Option.ite_none_right_eq_some, Option.some.injEq] at taken
                obtain ⟨fits, rfl⟩ := taken
                exact Or.inr (.onRxReadyRead hstack room fits)
          case onRxReadyDrop.fifoRead =>
              simp only [Option.ite_none_right_eq_some, Option.some.injEq] at taken
              obtain ⟨fits, rfl⟩ := taken
              exact Or.inr (.onRxReadyDrop hstack rfl _ _ fits)
          case irqPending.status | irqTxReady.status =>
              cases taken
              exact Or.inl (left (.ite (.push _ (by simp [Frame.rxPending])) (.refl _)) not_false)
          case irqTxComplete.status =>
              cases taken
              exact Or.inl (left (.ite (.onTxComplete _) (.refl _)) not_false)
          case irqRxReady.status flag =>
              cases taken
              split
              · rename_i both
                exact Or.inr (.onRxReady hstack ((Bool.and_eq_true _ _).mp both).1)
              · exact Or.inl (left (.refl _) not_false)
          case irqError.errCheck err =>
              cases taken
              generalize (if err < 0 then 0 else err) = rxErr
              have stopped := @RxUnmoved.onError { m with stack := rest } target rxErr
              exact Or.inl (left (.ite stopped (.refl _)) not_false)

end NcsExp.UartAdapter
