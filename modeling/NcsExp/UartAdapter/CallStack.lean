/-
# NcsExp.UartAdapter.CallStack -- the shape of the call stack

The statements still to run lie on the stack in an order the source fixes: what
waits for a notification to return has that very notification on it
(`Frame.WaitsFor`), and the statements of the interrupt handler outside any
notification lie at the bottom, since interrupts do not nest.  `Above` states both
for two neighbours, `WellStacked` for a whole stack.

* `step_wellStacked`: every step keeps the shape.
* `interrupt_below`: a handler statement on top has only such statements below it,
  so no `rx_disable` is under way while a FIFO is read.
* `released_of_disabling`: while an `rx_disable` has statements left under other
  activations, one of these is the notification of a release.
-/
import NcsExp.UartAdapter.Model
import Mathlib.Data.List.Chain

namespace NcsExp.UartAdapter

open NcsExp.Theory
open Machine

set_option autoImplicit false

/-! ## The shape -/

/-- The statements of the interrupt handler outside any notification. -/
def Frame.interrupt : Frame → Bool
  | .onTxReady => true
  | .onRxReadyRead _ => true
  | .onRxReadyDrop _ _ => true
  | .irqPending => true
  | .irqTxReady => true
  | .irqTxComplete => true
  | .irqRxReady => true
  | .irqError => true
  | _ => false

/-- What a statement waits for: the notification that runs before it. -/
def Frame.WaitsFor : Frame → Frame → Prop
  | .onRxReadySwitch, f => ∃ buf len offset, f = .userCallback .adapter (.rxRdy buf len offset)
  | .notifyRxBufferReq dev, f => ∃ buf, f = .userCallback dev (.rxBufReleased buf)
  | .rxDisableWhile dev, f => ∃ buf, f = .userCallback dev (.rxBufReleased buf)
  | _, _ => True

/-- `f` may lie directly on `g`. -/
structure Above (f g : Frame) : Prop where
  interrupt : f.interrupt = true → g.interrupt = true
  waits : g.WaitsFor f

def WellStacked (stack : List Frame) : Prop := stack.IsChain Above

/-- The top of the stack waits for no particular notification. -/
def Ready (stack : List Frame) : Prop := ∀ g ∈ stack.head?, ∀ f, g.WaitsFor f

/-- Only the interrupt handler is under way, outside any notification. -/
def InInterrupt (stack : List Frame) : Prop := ∀ g ∈ stack, g.interrupt = true

theorem waitsFor_of_interrupt {g : Frame} (interrupt : g.interrupt = true) (f : Frame) :
    g.WaitsFor f := by
  cases g <;> trivial

/-- Below a handler statement there are only handler statements. -/
theorem interrupt_below {f : Frame} {rest : List Frame} (shape : WellStacked (f :: rest))
    (interrupt : f.interrupt = true) : InInterrupt rest := by
  induction rest generalizing f with
  | nil => simp [InInterrupt]
  | cons g rest ih =>
      obtain ⟨above, tail⟩ := List.isChain_cons_cons.mp shape
      have here := above.interrupt interrupt
      intro h member
      rcases List.mem_cons.mp member with rfl | later
      · exact here
      · exact ih tail here h later

theorem InInterrupt.ready {stack : List Frame} (inside : InInterrupt stack) : Ready stack :=
  fun g top => waitsFor_of_interrupt (inside g (List.mem_of_mem_head? top))

/-- Where the application may call, nothing waits for another notification. -/
theorem ready_of_callable {stack : List Frame} (idle : callable stack = true) : Ready stack := by
  unfold callable at idle
  split at idle
  · simp [Ready]
  · simp [Ready, Frame.WaitsFor]
  · cases idle

/-- What lies below anything but a notification waits for nothing. -/
theorem ready_below {f : Frame} {rest : List Frame} (shape : WellStacked (f :: rest))
    (other : ∀ dev evt, f ≠ .userCallback dev evt) : Ready rest := by
  cases rest with
  | nil => simp [Ready]
  | cons g rest =>
      have waits := (List.isChain_cons_cons.mp shape).1.waits
      intro g' top h
      simp only [List.head?_cons, Option.mem_def, Option.some.injEq] at top
      subst top
      cases g
      case notifyRxBufferReq | rxDisableWhile =>
          obtain ⟨buf, rfl⟩ := waits
          exact absurd rfl (other _ _)
      case onRxReadySwitch =>
          obtain ⟨buf, len, offset, rfl⟩ := waits
          exact absurd rfl (other _ _)
      all_goals trivial

/-- An `rx_disable` that has called on has notified a release. -/
theorem released_of_disabling {dev : Dev} {f : Frame} {rest : List Frame}
    (shape : WellStacked (f :: rest)) (disabling : .rxDisableWhile dev ∈ rest) :
    ∃ buf, .userCallback dev (.rxBufReleased buf) ∈ f :: rest := by
  induction rest generalizing f with
  | nil => cases disabling
  | cons g rest ih =>
      obtain ⟨above, tail⟩ := List.isChain_cons_cons.mp shape
      rcases List.mem_cons.mp disabling with rfl | later
      · obtain ⟨buf, rfl⟩ := above.waits
        exact ⟨buf, List.mem_cons_self⟩
      · obtain ⟨buf, member⟩ := ih tail later
        exact ⟨buf, List.mem_cons_of_mem _ member⟩

/-! ## What the functions leave on the stack -/

/-- `m'` has pushed statements in order, the lowest of them a handler statement only
when `irq` says so. -/
def Pushes (irq : Bool) (m m' : Machine) : Prop :=
  ∃ frames, m'.stack = frames ++ m.stack ∧ WellStacked frames ∧
    ∀ f ∈ frames.getLast?, f.interrupt = true → irq = true

namespace Pushes

variable {irq : Bool} {m m' : Machine}

theorem of_same (same : m'.stack = m.stack) : Pushes irq m m' :=
  ⟨[], by simp [same], List.isChain_nil, by simp⟩

theorem one {f : Frame} (pushed : m'.stack = f :: m.stack)
    (allowed : f.interrupt = true → irq = true) : Pushes irq m m' :=
  ⟨[f], by simp [pushed], List.isChain_singleton _, by simpa using allowed⟩

theorem two {f g : Frame} (pushed : m'.stack = f :: g :: m.stack) (above : Above f g)
    (allowed : g.interrupt = true → irq = true) : Pushes irq m m' :=
  ⟨[f, g], by simp [pushed], List.isChain_pair.mpr above, by simpa using allowed⟩

theorem ite {c : Prop} [Decidable c] {m₁ m₂ : Machine} (left : Pushes irq m m₁)
    (right : Pushes irq m m₂) : Pushes irq m (if c then m₁ else m₂) := by
  split
  · exact left
  · exact right

/-- The same statements on the same stack. -/
theorem congr_left {m₀ : Machine} (same : m₀.stack = m.stack) (pushes : Pushes irq m m') :
    Pushes irq m₀ m' := by
  obtain ⟨frames, pushed, shape, last⟩ := pushes
  exact ⟨frames, by rw [pushed, same], shape, last⟩

/-- On a stack that waits for nothing, the shape is kept. -/
theorem wellStacked (pushes : Pushes irq m m') (shape : WellStacked m.stack)
    (ready : Ready m.stack) (inside : irq = true → InInterrupt m.stack) :
    WellStacked m'.stack := by
  obtain ⟨frames, pushed, above, last⟩ := pushes
  rw [pushed]
  refine above.append shape fun f lowest g top => ⟨fun interrupt => ?_, ready g top f⟩
  exact inside (last f lowest interrupt) g (List.mem_of_mem_head? top)

end Pushes

theorem userCallback_stack (m : Machine) (dev : Dev) (evt : UartEvent) :
    (userCallback m dev evt).stack = m.stack ∨
      (userCallback m dev evt).stack = .userCallback dev evt :: m.stack := by
  unfold userCallback
  split
  · exact Or.inr rfl
  · exact Or.inl rfl

theorem notifyRxBuffer_stack (m : Machine) (dev : Dev) :
    (notifyRxBuffer m dev).stack = m.stack ∨
      ∃ buf len offset,
        (notifyRxBuffer m dev).stack = .userCallback dev (.rxRdy buf len offset) :: m.stack := by
  unfold notifyRxBuffer
  dsimp only
  split
  · rcases userCallback_stack (m.setRx dev _) dev (.rxRdy _ _ _) with same | pushed
    · exact Or.inl same
    · exact Or.inr ⟨_, _, _, pushed⟩
  · exact Or.inl rfl

/-- `switch_rx_buffer` pushes the request, when asked to, and the release on it. -/
theorem switchRxBuffer_stack (m : Machine) (dev : Dev) (requestNew : Bool) :
    let below := if requestNew then .notifyRxBufferReq dev :: m.stack else m.stack
    (switchRxBuffer m dev requestNew).stack = below ∨
      ∃ buf, (switchRxBuffer m dev requestNew).stack =
        .userCallback dev (.rxBufReleased buf) :: below := by
  unfold switchRxBuffer
  cases requestNew <;> dsimp only [Bool.false_eq_true, if_false, if_true] <;> split
  · rcases userCallback_stack _ dev (.rxBufReleased _) with same | pushed
    · exact Or.inl same
    · exact Or.inr ⟨_, pushed⟩
  · exact Or.inl rfl
  · rcases userCallback_stack _ dev (.rxBufReleased _) with same | pushed
    · exact Or.inl same
    · exact Or.inr ⟨_, pushed⟩
  · exact Or.inl rfl

theorem pushes_userCallback (irq : Bool) (m : Machine) (dev : Dev) (evt : UartEvent) :
    Pushes irq m (userCallback m dev evt) := by
  rcases userCallback_stack m dev evt with same | pushed
  · exact .of_same same
  · exact .one pushed (by simp [Frame.interrupt])

theorem pushes_notifyRxBuffer (irq : Bool) (m : Machine) (dev : Dev) :
    Pushes irq m (notifyRxBuffer m dev) := by
  rcases notifyRxBuffer_stack m dev with same | ⟨buf, len, offset, pushed⟩
  · exact .of_same same
  · exact .one pushed (by simp [Frame.interrupt])

theorem pushes_switchRxBuffer (irq : Bool) (m : Machine) (dev : Dev) :
    Pushes irq m (switchRxBuffer m dev true) := by
  rcases switchRxBuffer_stack m dev true with same | ⟨buf, pushed⟩
  · exact .one same (by simp [Frame.interrupt])
  · exact .two pushed ⟨by simp [Frame.interrupt], buf, rfl⟩ (by simp [Frame.interrupt])

theorem pushes_rxDisableWhile (irq : Bool) (m : Machine) (dev : Dev) :
    Pushes irq m (rxDisableWhile m dev) := by
  refine .ite ?_ (pushes_userCallback irq m dev .rxDisabled)
  rcases switchRxBuffer_stack (m.push [.rxDisableWhile dev]) dev false with same | ⟨buf, pushed⟩
  · exact .one same (by simp [Frame.interrupt])
  · exact .two pushed ⟨by simp [Frame.interrupt], buf, rfl⟩ (by simp [Frame.interrupt])

theorem pushes_rxDisable (irq : Bool) (m : Machine) (dev : Dev) :
    Pushes irq m (rxDisable m dev) :=
  (pushes_rxDisableWhile irq _ dev).congr_left rfl

theorem pushes_onRxReadyDo (m : Machine) (notifyNow : Bool) :
    Pushes true m (onRxReadyDo m notifyNow) := by
  have read : ∀ n, (Frame.onRxReadyRead n).interrupt = true → true = true := fun _ _ => rfl
  refine .ite ?_ (.one rfl (read notifyNow))
  rcases notifyRxBuffer_stack (m.push [.onRxReadySwitch, .onRxReadyRead false]) .adapter with
    same | ⟨buf, len, offset, pushed⟩
  · exact .two same ⟨by simp [Frame.interrupt], trivial⟩ (read false)
  · refine ⟨[_, _, _], pushed, ?_, by simp⟩
    refine List.isChain_cons_cons.mpr ⟨⟨by simp [Frame.interrupt], buf, len, offset, rfl⟩, ?_⟩
    exact List.isChain_pair.mpr ⟨by simp [Frame.interrupt], trivial⟩

theorem pushes_onRxReadyLoop (m : Machine) (ret : Nat) (notifyNow : Bool) :
    Pushes true m (onRxReadyLoop m ret notifyNow) :=
  .ite (pushes_onRxReadyDo m notifyNow)
    (.ite (pushes_notifyRxBuffer true m .adapter) (.of_same rfl))

theorem pushes_onRxReady (m : Machine) : Pushes true m (onRxReady m) :=
  (pushes_onRxReadyDo _ false).congr_left rfl

theorem pushes_onRxReadyRead (m : Machine) (notifyNow : Bool) (bytes : List UInt8) :
    Pushes true m (onRxReadyRead m notifyNow bytes) :=
  (pushes_onRxReadyLoop _ bytes.length _).congr_left rfl

theorem pushes_onRxReadyDrop (m : Machine) (cnt : Nat) (notifyNow : Bool) (bytes : List UInt8) :
    Pushes true m (onRxReadyDrop m cnt notifyNow bytes) := by
  unfold onRxReadyDrop
  dsimp only
  split
  · exact .one rfl fun _ => rfl
  · exact (pushes_onRxReadyLoop _ 0 notifyNow).congr_left rfl

theorem pushes_onTxComplete (irq : Bool) (m : Machine) : Pushes irq m (onTxComplete m) := by
  unfold onTxComplete
  dsimp only
  split
  · split
    · exact (pushes_userCallback irq _ .adapter (.txDone _ _)).congr_left rfl
    · exact .of_same rfl
  · exact .of_same rfl

theorem onTxReady_stack (m : Machine) (ret : Int) : (onTxReady m ret).stack = m.stack := by
  unfold onTxReady
  dsimp only
  split <;> rfl

theorem pushes_txAbort (irq : Bool) (m : Machine) (entry : Obs) :
    Pushes irq m (txAbort m .adapter entry) := by
  unfold txAbort
  dsimp only
  split
  · exact .of_same rfl
  · exact (pushes_userCallback irq _ .adapter (.txAborted _ _)).congr_left rfl

/-- The branches of the interrupt handler, in their order. -/
theorem wellStacked_handler :
    WellStacked [.irqTxReady, .irqTxComplete, .irqRxReady, .irqError] := by
  have above : ∀ f g : Frame, g.interrupt = true → Above f g := fun f _ interrupt =>
    ⟨fun _ => interrupt, waitsFor_of_interrupt interrupt f⟩
  exact .cons_cons (above _ _ rfl)
    (.cons_cons (above _ _ rfl) (List.isChain_pair.mpr (above _ _ rfl)))

/-- `on_error` leaves its own notification below that of the target's `rx_disable`. -/
theorem wellStacked_onError {m : Machine} (rxErr : Int) (shape : WellStacked m.stack)
    (ready : Ready m.stack) : WellStacked (onError m rxErr).stack := by
  have pushed : WellStacked (m.push [.onErrorStopped rxErr]).stack :=
    List.IsChain.cons shape fun g top => ⟨by simp [Frame.interrupt], ready g top _⟩
  refine (pushes_rxDisable false _ _).wellStacked pushed ?_ (by simp)
  simp [Ready, Frame.WaitsFor]

theorem rxBufRsp_stack (m : Machine) (dev : Dev) (buf len : Nat) :
    (rxBufRsp m dev buf len).1.stack = m.stack := by
  unfold rxBufRsp
  dsimp only
  split <;> rfl

theorem apiCall_pushes (m : Machine) (c : ApiCall) : Pushes false m (apiCall m c) := by
  cases c with
  | tx buf len timeout =>
      apply Pushes.of_same
      simp only [apiCall, note_stack, tx]
      split
      · rfl
      · split <;> rfl
  | txAbort => exact pushes_txAbort false m _
  | rxEnable buf len timeout => exact .of_same rfl
  | rxBufRsp buf len => exact .of_same (rxBufRsp_stack m .adapter buf.addr len)
  | rxDisable => exact (pushes_rxDisable false _ .adapter).congr_left rfl

/-! ## Every step keeps the shape -/

theorem step_wellStacked {m m' : Machine} {a : Act} (shape : WellStacked m.stack)
    (taken : step m a = some m') : WellStacked m'.stack := by
  cases a with
  | call c =>
      simp only [step, Option.ite_none_right_eq_some, Option.some.injEq] at taken
      obtain ⟨idle, rfl⟩ := taken
      exact (apiCall_pushes m c).wellStacked shape (ready_of_callable idle) (by simp)
  | uartIrqHandler =>
      simp only [step, Option.ite_none_right_eq_some, Option.some.injEq] at taken
      obtain ⟨empty, rfl⟩ := taken
      rw [push_stack, empty]
      exact List.isChain_singleton _
  | txTimeout =>
      simp only [step, Option.ite_none_right_eq_some, Option.some.injEq] at taken
      obtain ⟨empty, rfl⟩ := taken
      exact (pushes_txAbort false m _).wellStacked shape (by simp [empty, Ready]) (by simp)
  | rxTimeout =>
      simp only [step, Option.ite_none_right_eq_some, Option.some.injEq] at taken
      obtain ⟨empty, rfl⟩ := taken
      have pushes : Pushes false m (rxTimeout m) :=
        (pushes_notifyRxBuffer false _ .adapter).congr_left rfl
      exact pushes.wellStacked shape (by simp [empty, Ready]) (by simp)
  | resume answer =>
      cases hstack : m.stack with
      | nil => simp [step, hstack] at taken
      | cons frame rest =>
          simp only [step, hstack] at taken
          rw [hstack] at shape
          have tail : WellStacked rest := shape.tail
          have ready := ready_below shape
          have inside := interrupt_below shape
          have keep {irq : Bool} {m' : Machine} (pushes : Pushes irq { m with stack := rest } m')
              (other : ∀ dev evt, frame ≠ .userCallback dev evt)
              (allowed : irq = true → frame.interrupt = true) : WellStacked m'.stack :=
            pushes.wellStacked tail (ready other) fun irq => inside (allowed irq)
          cases frame <;> cases answer <;> simp only [resume, reduceCtorEq] at taken
          case userCallback.go => cases taken; exact tail
          case notifyRxBufferReq.go =>
              cases taken
              exact keep (pushes_userCallback false _ _ _) (by simp) (by simp)
          case rxDisableWhile.go =>
              cases taken
              exact keep (pushes_rxDisableWhile false _ _) (by simp) (by simp)
          case onRxReadySwitch.go =>
              cases taken
              exact keep (pushes_switchRxBuffer false _ _) (by simp) (by simp)
          case onErrorStopped.go =>
              cases taken
              exact keep (pushes_userCallback false _ _ _) (by simp) (by simp)
          case onTxReady.fifoFill =>
              split at taken
              · cases taken; exact tail
              · simp only [Option.ite_none_right_eq_some, Option.some.injEq] at taken
                obtain ⟨-, rfl⟩ := taken
                rw [onTxReady_stack]
                exact tail
          case onRxReadyRead.fifoRead =>
              split at taken <;>
                simp only [Option.ite_none_right_eq_some, Option.some.injEq] at taken <;>
                obtain ⟨-, rfl⟩ := taken
              · exact keep (pushes_onRxReadyDrop _ _ _ _) (by simp) fun _ => rfl
              · exact keep (pushes_onRxReadyRead _ _ _) (by simp) fun _ => rfl
          case onRxReadyDrop.fifoRead =>
              simp only [Option.ite_none_right_eq_some, Option.some.injEq] at taken
              obtain ⟨-, rfl⟩ := taken
              exact keep (pushes_onRxReadyDrop _ _ _ _) (by simp) fun _ => rfl
          case irqPending.status =>
              cases taken
              exact @keep true _ (.ite ⟨_, rfl, wellStacked_handler, by simp⟩ (.of_same rfl))
                (by simp) fun _ => rfl
          case irqTxReady.status =>
              cases taken
              exact @keep true _ (.ite (.one rfl fun _ => rfl) (.of_same rfl)) (by simp)
                fun _ => rfl
          case irqTxComplete.status =>
              cases taken
              exact keep (.ite (pushes_onTxComplete false _) (.of_same rfl)) (by simp) (by simp)
          case irqRxReady.status =>
              cases taken
              exact keep (.ite (pushes_onRxReady _) (.of_same rfl)) (by simp) fun _ => rfl
          case irqError.errCheck err =>
              cases taken
              generalize (if err < 0 then 0 else err) = rxErr
              split
              · exact wellStacked_onError _ tail (ready (by simp))
              · exact tail

theorem reachable_wellStacked {ok : Machine → Act → Bool} {m : Machine}
    (run : Reachable step Init ok m) : WellStacked m.stack := by
  apply run.invariant (P := fun m => WellStacked m.stack)
  · intro s init
    rw [init.stack]
    exact List.isChain_nil
  · intro s a t shape _ taken
    exact step_wellStacked shape taken

end NcsExp.UartAdapter
