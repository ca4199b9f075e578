/-
# NcsExp.UartAdapter.TxLedger -- what a log says of the transmissions

`ledger log` reads a log as the account of the transmissions: the accepted one
that has no terminal event yet with the bytes pushed for it, and the timer with
the transmission whose call started it.  It is a specification: it looks at
observations only, never at the adapter's data.

`step_tx` says once what a step can do to the transmit side: it leaves `tx` alone
and observes nothing the ledger reads (`TxUnmoved`), or it is one of the four
moves of `TxMove`.
-/
import NcsExp.UartAdapter.Model

namespace NcsExp.UartAdapter

open NcsExp.Theory
open Machine

set_option autoImplicit false

/-! ## The ledger -/

/-- An accepted transmission; `serial` counts the acceptances before it. -/
structure Transmission where
  serial : Nat
  buf : Nat
  len : Nat
  timeout : Int
  sent : List UInt8
  deriving DecidableEq

/-- Why the transmission in progress is being given up. -/
inductive AbortCause
  | user
  | expiry (owner : Option Nat)
  deriving DecidableEq

structure Ledger where
  accepted : Nat
  active : Option Transmission
  timer : Option Nat
  cause : Option AbortCause
  deriving DecidableEq

def Ledger.empty : Ledger := ⟨0, none, none, none⟩

def Ledger.accept (l : Ledger) (buf len : Nat) (timeout : Int) : Ledger where
  accepted := l.accepted + 1
  active := some ⟨l.accepted, buf, len, timeout, []⟩
  timer := if timeout ≠ SYS_FOREVER_MS then some l.accepted else l.timer
  cause := none

/-- The observer behind the ledger. -/
def Ledger.observe (l : Ledger) : Obs → Ledger
  | .call (.tx buf len timeout) ret =>
      if len ≠ 0 ∧ ret = 0 then l.accept buf.addr len timeout else l
  | .call .txAbort _ => { l with timer := none, cause := some .user }
  | .txTimeout => { l with timer := none, cause := some (.expiry l.timer) }
  | .pushed _ bytes =>
      { l with active := l.active.map fun t => { t with sent := t.sent ++ bytes } }
  | .event .adapter (.txDone _ _) _ _ => { l with active := none }
  | .event .adapter (.txAborted _ _) _ _ => { l with active := none }
  | _ => l

def ledger (log : List Obs) : Ledger := present Ledger.observe .empty log

@[simp] theorem ledger_nil : ledger [] = .empty := rfl

@[simp] theorem ledger_snoc (log : List Obs) (o : Obs) :
    ledger (log ++ [o]) = (ledger log).observe o := present_snoc

/-- The observations the ledger does not read. -/
def Obs.txQuiet : Obs → Prop
  | .call (.tx _ _ _) _ => False
  | .call .txAbort _ => False
  | .txTimeout => False
  | .pushed _ _ => False
  | .event .adapter (.txDone _ _) _ _ => False
  | .event .adapter (.txAborted _ _) _ _ => False
  | _ => True

/-- The events that concern the transmit side. -/
def UartEvent.isTx : UartEvent → Prop
  | .txDone _ _ => True
  | .txAborted _ _ => True
  | _ => False

theorem observe_of_txQuiet (l : Ledger) {o : Obs} (quiet : o.txQuiet) : l.observe o = l := by
  unfold Obs.txQuiet at quiet
  split at quiet <;> simp_all [Ledger.observe]

theorem txQuiet_event {dev : Dev} {evt : UartEvent} (other : dev = .target ∨ ¬ evt.isTx)
    (bytes : List UInt8) (d : AdapterData) : (Obs.event dev evt bytes d).txQuiet := by
  cases dev <;> cases evt <;> simp_all [Obs.txQuiet, UartEvent.isTx]

/-! ## Steps that leave the transmit side alone -/

/-- `m'` has the adapter's `tx` of `m`, and nothing the ledger reads was observed
on the way. -/
structure TxUnmoved (m m' : Machine) : Prop where
  tx : (m'.data .adapter).tx = (m.data .adapter).tx
  target : (m'.data .adapter).target = (m.data .adapter).target
  callback : (m'.data .adapter).userCallback = (m.data .adapter).userCallback
  log : ∃ new, m'.log = m.log ++ new ∧ ∀ o ∈ new, o.txQuiet

namespace TxUnmoved

theorem refl (m : Machine) : TxUnmoved m m := ⟨rfl, rfl, rfl, [], by simp, by simp⟩

theorem trans {m₁ m₂ m₃ : Machine} (first : TxUnmoved m₁ m₂) (second : TxUnmoved m₂ m₃) :
    TxUnmoved m₁ m₃ := by
  obtain ⟨new, grown, quiet⟩ := first.log
  obtain ⟨new', grown', quiet'⟩ := second.log
  refine ⟨second.tx.trans first.tx, second.target.trans first.target,
    second.callback.trans first.callback, new ++ new', ?_, ?_⟩
  · rw [grown', grown, List.append_assoc]
  · intro o member
    rcases List.mem_append.mp member with old | fresh
    · exact quiet o old
    · exact quiet' o fresh

/-- Same `adapter` data but for `rx`, same log. -/
theorem of_same {m m' : Machine} (tx : (m'.data .adapter).tx = (m.data .adapter).tx)
    (target : (m'.data .adapter).target = (m.data .adapter).target)
    (callback : (m'.data .adapter).userCallback = (m.data .adapter).userCallback)
    (log : m'.log = m.log) : TxUnmoved m m' :=
  ⟨tx, target, callback, [], by simp [log], by simp⟩

theorem setRx (m : Machine) (dev : Dev) (r : RxData) : TxUnmoved m (m.setRx dev r) :=
  of_same (by simp) (by simp) (by simp) rfl

theorem setIrq (m : Machine) (dev : Dev) (f : IrqEnable → IrqEnable) :
    TxUnmoved m (m.setIrq dev f) :=
  of_same rfl rfl rfl rfl

theorem store (m : Machine) (dst : Nat) (bytes : List UInt8) : TxUnmoved m (m.store dst bytes) :=
  of_same rfl rfl rfl rfl

theorem push (m : Machine) (frames : List Frame) : TxUnmoved m (m.push frames) :=
  of_same rfl rfl rfl rfl

theorem note (m : Machine) (o : Obs) (quiet : o.txQuiet) : TxUnmoved m (m.note o) :=
  ⟨rfl, rfl, rfl, [o], rfl, by simpa using quiet⟩

theorem ite {m m₁ m₂ : Machine} {c : Prop} [Decidable c] (left : TxUnmoved m m₁)
    (right : TxUnmoved m m₂) : TxUnmoved m (if c then m₁ else m₂) := by
  split
  · exact left
  · exact right

theorem userCallback (m : Machine) {dev : Dev} {evt : UartEvent}
    (other : dev = .target ∨ ¬ evt.isTx) : TxUnmoved m (userCallback m dev evt) := by
  unfold UartAdapter.userCallback
  split
  · exact (note m _ (txQuiet_event other _ _)).trans (push _ _)
  · exact refl m

theorem notifyRxBuffer (m : Machine) (dev : Dev) : TxUnmoved m (notifyRxBuffer m dev) := by
  unfold UartAdapter.notifyRxBuffer
  dsimp only
  split
  · exact (setRx m dev _).trans (userCallback _ (Or.inr not_false))
  · exact refl m

theorem switchRxBuffer (m : Machine) (dev : Dev) (requestNew : Bool) :
    TxUnmoved m (switchRxBuffer m dev requestNew) := by
  have moved : TxUnmoved m ((m.setRx dev (switched (m.data dev).rx)).note
      (.switched dev (m.data dev).rx.nextBuf (m.data dev).rx.nextBufLen)) :=
    (setRx m dev _).trans (note _ _ trivial)
  unfold UartAdapter.switchRxBuffer
  cases requestNew <;> dsimp only [Bool.false_eq_true, if_false, if_true] <;> split
  · exact moved.trans (userCallback _ (Or.inr not_false))
  · exact moved
  · exact (moved.trans (push _ _)).trans (userCallback _ (Or.inr not_false))
  · exact moved.trans (push _ _)

theorem rxDisableWhile (m : Machine) (dev : Dev) : TxUnmoved m (rxDisableWhile m dev) := by
  unfold UartAdapter.rxDisableWhile
  split
  · exact (push m _).trans (switchRxBuffer _ _ _)
  · exact userCallback m (Or.inr not_false)

theorem rxDisable (m : Machine) (dev : Dev) : TxUnmoved m (rxDisable m dev) :=
  ((setRx m dev _).trans (setIrq _ _ _)).trans (rxDisableWhile _ _)

theorem rxEnable (m : Machine) (dev : Dev) (buf len : Nat) (timeout : Int) :
    TxUnmoved m (rxEnable m dev buf len timeout).1 := by
  unfold UartAdapter.rxEnable
  dsimp only
  exact (setRx m dev _).trans (setIrq _ _ _)

theorem rxBufRsp (m : Machine) (dev : Dev) (buf len : Nat) :
    TxUnmoved m (rxBufRsp m dev buf len).1 := by
  unfold UartAdapter.rxBufRsp
  dsimp only
  split
  · exact refl m
  · exact setRx m dev _

theorem onRxReadyDo (m : Machine) (notifyNow : Bool) :
    TxUnmoved m (onRxReadyDo m notifyNow) :=
  .ite ((push m _).trans (notifyRxBuffer _ _)) (push m _)

theorem onRxReadyLoop (m : Machine) (ret : Nat) (notifyNow : Bool) :
    TxUnmoved m (onRxReadyLoop m ret notifyNow) :=
  .ite (onRxReadyDo m _) (.ite (notifyRxBuffer m _) (refl m))

theorem onRxReady (m : Machine) : TxUnmoved m (onRxReady m) :=
  (setRx m _ _).trans (onRxReadyDo _ _)

theorem onRxReadyRead (m : Machine) (notifyNow : Bool) (bytes : List UInt8) :
    TxUnmoved m (onRxReadyRead m notifyNow bytes) := by
  refine TxUnmoved.trans ?_ (onRxReadyLoop _ _ _)
  refine TxUnmoved.trans ?_ (setRx _ _ _)
  exact (store m _ bytes).trans (note _ (.stored _ _) trivial)

theorem onRxReadyDrop (m : Machine) (cnt : Nat) (notifyNow : Bool) (bytes : List UInt8) :
    TxUnmoved m (onRxReadyDrop m cnt notifyNow bytes) := by
  have noted : TxUnmoved m (m.note (.dropped bytes)) := note m _ trivial
  unfold UartAdapter.onRxReadyDrop
  dsimp only
  split
  · exact noted.trans (push _ _)
  · exact noted.trans (onRxReadyLoop _ _ _)

theorem onError (m : Machine) (rxErr : Int) : TxUnmoved m (onError m rxErr) :=
  (push m _).trans (rxDisable _ _)

end TxUnmoved

/-! ## What a step can do to the transmit side -/

/-- The moves of the transmit side; `m` is the machine the step starts from, and a
resumed statement has left the stack. -/
inductive TxMove (m : Machine) : Act → Machine → Prop
  | tx (buf : Buffer) (len : Nat) (timeout : Int) :
      TxMove m (.call (.tx buf len timeout)) (apiCall m (.tx buf len timeout))
  | txAbort : TxMove m (.call .txAbort) (apiCall m .txAbort)
  | txTimeout : TxMove m .txTimeout (txAbort m .adapter .txTimeout)
  | onTxReady {rest : List Frame} {ret : Int} (more : (m.data .adapter).tx.sizeLeft ≠ 0)
      (fits : ret ≤ (m.data .adapter).tx.sizeLeft) :
      TxMove m (.resume (.fifoFill ret)) (onTxReady { m with stack := rest } ret)
  | onTxComplete {rest : List Frame} {flag : Bool} :
      TxMove m (.resume (.status flag)) (onTxComplete { m with stack := rest })

theorem step_tx {m m' : Machine} {a : Act} (taken : step m a = some m') :
    TxUnmoved m m' ∨ TxMove m a m' := by
  cases a with
  | call c =>
      simp only [step, Option.ite_none_right_eq_some, Option.some.injEq] at taken
      obtain ⟨-, rfl⟩ := taken
      cases c with
      | tx buf len timeout => exact Or.inr (.tx buf len timeout)
      | txAbort => exact Or.inr .txAbort
      | rxEnable buf len timeout =>
          exact Or.inl ((TxUnmoved.rxEnable m .adapter buf.addr len timeout).trans
            (.note _ (.call (.rxEnable buf len timeout) _) trivial))
      | rxBufRsp buf len =>
          exact Or.inl ((TxUnmoved.rxBufRsp m .adapter buf.addr len).trans
        (.note _ (.call (.rxBufRsp buf len) _) trivial))
      | rxDisable =>
          exact Or.inl ((TxUnmoved.note m (.call .rxDisable 0) trivial).trans (.rxDisable _ _))
  | uartIrqHandler =>
      simp only [step, Option.ite_none_right_eq_some, Option.some.injEq] at taken
      obtain ⟨-, rfl⟩ := taken
      exact Or.inl (.push m _)
  | txTimeout =>
      simp only [step, Option.ite_none_right_eq_some, Option.some.injEq] at taken
      obtain ⟨-, rfl⟩ := taken
      exact Or.inr .txTimeout
  | rxTimeout =>
      simp only [step, Option.ite_none_right_eq_some, Option.some.injEq] at taken
      obtain ⟨-, rfl⟩ := taken
      exact Or.inl
        (((TxUnmoved.note m .rxTimeout trivial).trans (.setRx _ _ _)).trans (.notifyRxBuffer _ _))
  | resume answer =>
      cases hstack : m.stack with
      | nil => simp [step, hstack] at taken
      | cons frame rest =>
          simp only [step, hstack] at taken
          have popped : TxUnmoved m { m with stack := rest } := .of_same rfl rfl rfl rfl
          cases frame <;> cases answer <;> simp only [resume, reduceCtorEq] at taken
          case userCallback.go => cases taken; exact Or.inl popped
          case onRxReadySwitch.go =>
              cases taken
              exact Or.inl (popped.trans (.switchRxBuffer _ _ _))
          case notifyRxBufferReq.go =>
              cases taken
              exact Or.inl (popped.trans (.userCallback _ (Or.inr not_false)))
          case rxDisableWhile.go => cases taken; exact Or.inl (popped.trans (.rxDisableWhile _ _))
          case onTxReady.fifoFill ret =>
              split at taken
              · cases taken; exact Or.inl popped
              · rename_i more
                simp only [Option.ite_none_right_eq_some, Option.some.injEq] at taken
                obtain ⟨fits, rfl⟩ := taken
                exact Or.inr (.onTxReady more fits)
          case onRxReadyRead.fifoRead =>
              split at taken <;>
                simp only [Option.ite_none_right_eq_some, Option.some.injEq] at taken <;>
                obtain ⟨-, rfl⟩ := taken
              · exact Or.inl (popped.trans (.onRxReadyDrop _ _ _ _))
              · exact Or.inl (popped.trans (.onRxReadyRead _ _ _))
          case onRxReadyDrop.fifoRead =>
              simp only [Option.ite_none_right_eq_some, Option.some.injEq] at taken
              obtain ⟨-, rfl⟩ := taken
              exact Or.inl (popped.trans (.onRxReadyDrop _ _ _ _))
          case irqPending.status | irqTxReady.status =>
              cases taken
              exact Or.inl (popped.trans (.ite (.push _ _) (.refl _)))
          case irqTxComplete.status =>
              cases taken
              split
              · exact Or.inr .onTxComplete
              · exact Or.inl popped
          case irqRxReady.status =>
              cases taken
              exact Or.inl (popped.trans (.ite (.onRxReady _) (.refl _)))
          case irqError.errCheck =>
              cases taken
              exact Or.inl (popped.trans (.ite (.onError _ _) (.refl _)))
          case onErrorStopped.go =>
              cases taken
              exact Or.inl (popped.trans (.userCallback _ (Or.inr not_false)))

end NcsExp.UartAdapter
