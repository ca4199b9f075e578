/-
# NcsExp.HsUart.DoubleBuffer -- the two receive buffers of the high-speed UART example

`uart_cb` of `uart_thread.c` answers a buffer request of the driver with `next_buf`, the
buffer that was released last, and turns reception on again with the first half of
`uart_rx_buf`.

* The driver is Zephyr's asynchronous UART: it owns an active buffer and at most a queued
  one, and gives both back, the active one first, before it says that it is disabled.
* `double_buffered`: the buffers stay the two halves in the runs in which reception stops
  only where the second half is given back last.
* `stop_breaks`: any other stop can be followed by a request that is answered with the
  buffer the driver receives into.
-/
import NcsExp.Theory.Runs

namespace NcsExp.HsUart

open NcsExp.Theory

set_option autoImplicit false

/-! ## The code -/

/-- `UART_BUF_SIZE`. -/
def uartBufSize : Nat := 255

/-- The address of `uart_rx_buf[i]`, where the array is at `base`. -/
def uartRxBuf (base i : Nat) : Nat := base + i * uartBufSize

/-- `struct uart_event`, with the pointer that matters here. -/
inductive UartEvent
  | txDone
  | txAborted
  | rxRdy
  | rxBufRequest
  | rxBufReleased (buf : Nat)
  | rxDisabled
  | rxStopped

/-- A call of the driver's receive side. -/
inductive UartCall
  | rxEnable (buf : Nat)
  | rxBufRsp (buf : Nat)

/-- `uart_cb`, lines 34-105, as far as the receive buffers go: the new `next_buf`, and the call
that it makes. -/
def uartCb (base nextBuf : Nat) : UartEvent → Nat × Option UartCall
  | .txDone => (nextBuf, none)
  | .txAborted => (nextBuf, none)
  | .rxRdy => (nextBuf, none)
  | .rxBufRequest => (nextBuf, some (.rxBufRsp nextBuf))
  | .rxBufReleased buf => (buf, none)
  | .rxDisabled => (nextBuf, some (.rxEnable (uartRxBuf base 0)))
  | .rxStopped => (nextBuf, none)

/-! ## The driver -/

/-- An answer to a request, and the buffer that the driver received into then. -/
structure Supplied where
  buf : Nat
  owned : Nat
  deriving DecidableEq

structure Uart where
  nextBuf : Nat
  active : Option Nat
  queued : Option Nat
  stopping : Bool
  supplied : List Supplied

inductive Act
  /-- An event that is not about the receive buffers. -/
  | notify (evt : UartEvent)
  | request (err : Int)
  | switch
  | stop
  | release
  | disabled (err : Int)

namespace Uart

/-- The driver takes what `uart_cb` supplies, unless the call fails. -/
def accept (m : Uart) (err : Int) : Option UartCall → Uart
  | none => m
  | some (.rxEnable buf) => if err = 0 then { m with active := some buf } else m
  | some (.rxBufRsp buf) => if err = 0 then { m with queued := some buf } else m

/-- An event is delivered, and the driver's return code to the call made in answer is `err`. -/
def deliver (base : Nat) (m : Uart) (evt : UartEvent) (err : Int) : Uart :=
  { m with nextBuf := (uartCb base m.nextBuf evt).1 }.accept err (uartCb base m.nextBuf evt).2

/-- The record of an answer. -/
def supply (base : Nat) (m : Uart) (owned : Nat) : Uart :=
  match (uartCb base m.nextBuf .rxBufRequest).2 with
  | some (.rxBufRsp buf) => { m with supplied := m.supplied ++ [⟨buf, owned⟩] }
  | _ => m

def step (base : Nat) (m : Uart) : Act → Option Uart
  | .notify .rxBufRequest => none
  | .notify (.rxBufReleased _) => none
  | .notify .rxDisabled => none
  | .notify evt => some (m.deliver base evt 0)
  | .request err =>
      match m.stopping, m.active, m.queued with
      | false, some owned, none => some ((m.supply base owned).deliver base .rxBufRequest err)
      | _, _, _ => none
  | .switch =>
      match m.stopping, m.active, m.queued with
      | false, some done, some next =>
          some ({ m with active := some next, queued := none }.deliver base (.rxBufReleased done) 0)
      | _, _, _ => none
  | .stop =>
      match m.stopping, m.active with
      | false, some _ => some { m with stopping := true }
      | _, _ => none
  | .release =>
      match m.stopping, m.active, m.queued with
      | true, some buf, _ => some ({ m with active := none }.deliver base (.rxBufReleased buf) 0)
      | true, none, some buf =>
          some ({ m with queued := none }.deliver base (.rxBufReleased buf) 0)
      | _, _, _ => none
  | .disabled err =>
      match m.stopping, m.active, m.queued with
      | true, none, none => some ({ m with stopping := false }.deliver base .rxDisabled err)
      | _, _, _ => none

/-- After `uart_init`, whose `uart_rx_enable` may have failed. -/
structure Init (base : Nat) (m : Uart) : Prop where
  nextBuf : m.nextBuf = uartRxBuf base 1
  active : m.active = some (uartRxBuf base 0) ∨ m.active = none
  queued : m.queued = none
  stopping : m.stopping = false
  supplied : m.supplied = []

end Uart

/-! ## The invariant -/

/-- The two halves of `uart_rx_buf`, in either order. -/
def Halves (base a b : Nat) : Prop :=
  a = uartRxBuf base 0 ∧ b = uartRxBuf base 1 ∨ a = uartRxBuf base 1 ∧ b = uartRxBuf base 0

theorem Halves.swap {base a b : Nat} (halves : Halves base a b) : Halves base b a :=
  Or.symm (halves.imp And.symm And.symm)

/-- They do not overlap. -/
theorem Halves.ne {base a b : Nat} (halves : Halves base a b) : a ≠ b := by
  simp only [Halves, uartRxBuf, uartBufSize] at halves
  omega

/-- The driver's buffers are the two halves, and it was never given the one it received into. -/
structure DoubleBuffered (base : Nat) (m : Uart) : Prop where
  distinct : ∀ a q, m.active = some a → m.queued = some q → Halves base a q
  supplied : ∀ s ∈ m.supplied, Halves base s.owned s.buf

/-- The buffer that the driver will give back last if it stops. -/
def Uart.lastOwned (m : Uart) : Option Nat := m.queued.or m.active

/-- Reception stops only where the second half will be given back last. -/
def Uart.stopsAtSecond (base : Nat) (m : Uart) : Act → Bool
  | .stop => m.lastOwned == some (uartRxBuf base 1)
  | _ => true

structure Good (base : Nat) (m : Uart) : Prop where
  free : ∀ a, m.active = some a → Halves base a m.nextBuf
  queued : ∀ a q, m.active = some a → m.queued = some q → q = m.nextBuf
  stopping : m.stopping = true → m.lastOwned.getD m.nextBuf = uartRxBuf base 1
  supplied : ∀ s ∈ m.supplied, Halves base s.owned s.buf

/-! ## What a step does -/

/-- The buffer that a request is answered with is queued, if the driver takes it. -/
def Uart.answered (m : Uart) (owned : Nat) (err : Int) : Uart :=
  { m with
    supplied := m.supplied ++ [⟨m.nextBuf, owned⟩]
    queued := if err = 0 then some m.nextBuf else none }

/-- Reception goes on in the queued buffer. -/
def Uart.switched (m : Uart) (done next : Nat) : Uart :=
  { m with nextBuf := done, active := some next, queued := none }

/-- Reception starts again. -/
def Uart.restarted (base : Nat) (m : Uart) (err : Int) : Uart :=
  { m with stopping := false, active := if err = 0 then some (uartRxBuf base 0) else none }

theorem step_cases {base : Nat} {m t : Uart} {a : Act} (taken : m.step base a = some t) :
    t = m ∨
    (∃ err owned, a = .request err ∧ m.stopping = false ∧ m.active = some owned ∧
      m.queued = none ∧ t = m.answered owned err) ∨
    (∃ done next, m.stopping = false ∧ m.active = some done ∧ m.queued = some next ∧
      t = m.switched done next) ∨
    (∃ owned, a = .stop ∧ m.stopping = false ∧ m.active = some owned ∧
      t = { m with stopping := true }) ∨
    (∃ buf, m.stopping = true ∧ m.active = some buf ∧
      t = { m with nextBuf := buf, active := none }) ∨
    (∃ buf, m.stopping = true ∧ m.active = none ∧ m.queued = some buf ∧
      t = { m with nextBuf := buf, queued := none }) ∨
    ∃ err, m.stopping = true ∧ m.active = none ∧ m.queued = none ∧ t = m.restarted base err := by
  cases a with
  | notify evt =>
      left
      cases evt <;> cases taken <;> rfl
  | request err =>
      right; left
      simp only [Uart.step] at taken
      split at taken
      · rename_i owned stopping active queued
        refine ⟨err, owned, rfl, stopping, active, queued, ?_⟩
        rw [← Option.some.inj taken]
        by_cases ok : err = 0 <;>
          simp [Uart.supply, Uart.deliver, uartCb, Uart.accept, Uart.answered, ok, queued]
      · cases taken
  | switch =>
      right; right; left
      simp only [Uart.step] at taken
      split at taken
      · rename_i done next stopping active queued
        exact ⟨done, next, stopping, active, queued, (Option.some.inj taken).symm⟩
      · cases taken
  | stop =>
      right; right; right; left
      simp only [Uart.step] at taken
      split at taken
      · rename_i owned stopping active
        exact ⟨owned, rfl, stopping, active, (Option.some.inj taken).symm⟩
      · cases taken
  | release =>
      right; right; right; right
      simp only [Uart.step] at taken
      split at taken
      · rename_i buf stopping active
        exact Or.inl ⟨buf, stopping, active, (Option.some.inj taken).symm⟩
      · rename_i buf stopping active queued
        exact Or.inr (Or.inl ⟨buf, stopping, active, queued, (Option.some.inj taken).symm⟩)
      · cases taken
  | disabled err =>
      right; right; right; right; right; right
      simp only [Uart.step] at taken
      split at taken
      · rename_i stopping active queued
        refine ⟨err, stopping, active, queued, ?_⟩
        rw [← Option.some.inj taken]
        by_cases ok : err = 0 <;>
          simp [Uart.deliver, uartCb, Uart.accept, Uart.restarted, ok, active]
      · cases taken

/-! ## The invariant is kept -/

namespace Good

variable {base : Nat} {m : Uart}

theorem answered {owned : Nat} (inv : Good base m) (stopping : m.stopping = false)
    (active : m.active = some owned) (err : Int) : Good base (m.answered owned err) := by
  obtain ⟨free, _, _, supplied⟩ := inv
  refine ⟨free, ?_, ?_, ?_⟩
  · intro a q _ queued
    simp only [Uart.answered] at queued ⊢
    split at queued
    · exact (Option.some.inj queued).symm
    · cases queued
  · intro stops
    exact absurd (stops.symm.trans stopping) (by decide)
  · intro s member
    rcases List.mem_append.mp member with before | now
    · exact supplied s before
    · rw [List.mem_singleton.mp now]
      exact free owned active

theorem switched {done next : Nat} (inv : Good base m) (stopping : m.stopping = false)
    (active : m.active = some done) (queued : m.queued = some next) :
    Good base (m.switched done next) := by
  have halves := inv.free done active
  rw [← inv.queued done next active queued] at halves
  refine ⟨?_, ?_, ?_, inv.supplied⟩
  · rintro a ⟨⟩
    exact halves.swap
  · intro a q _ none
    cases none
  · intro stops
    exact absurd (stops.symm.trans stopping) (by decide)

theorem stop (inv : Good base m) (last : m.lastOwned = some (uartRxBuf base 1)) :
    Good base { m with stopping := true } := by
  refine ⟨inv.free, inv.queued, ?_, inv.supplied⟩
  intro _
  exact congrArg (fun buf => buf.getD m.nextBuf) last

theorem releaseActive {buf : Nat} (inv : Good base m) (stopping : m.stopping = true)
    (active : m.active = some buf) : Good base { m with nextBuf := buf, active := none } := by
  have last := inv.stopping stopping
  refine ⟨?_, ?_, ?_, inv.supplied⟩
  · intro a none
    cases none
  · intro a q none
    cases none
  · intro _
    rw [Uart.lastOwned, active] at last
    cases queued : m.queued with
    | none => simpa [Uart.lastOwned, queued] using last
    | some q => simpa [Uart.lastOwned, queued] using last

theorem releaseQueued {buf : Nat} (inv : Good base m) (stopping : m.stopping = true)
    (active : m.active = none) (queued : m.queued = some buf) :
    Good base { m with nextBuf := buf, queued := none } := by
  have last := inv.stopping stopping
  refine ⟨?_, ?_, ?_, inv.supplied⟩
  · intro a some
    exact absurd (some.symm.trans active) (by simp)
  · intro a q some
    exact absurd (some.symm.trans active) (by simp)
  · intro _
    simpa [Uart.lastOwned, active, queued] using last

/-- Reception starts in the first half, and the second one was given back last. -/
theorem restarted (inv : Good base m) (stopping : m.stopping = true) (active : m.active = none)
    (queued : m.queued = none) (err : Int) : Good base (m.restarted base err) := by
  have last := inv.stopping stopping
  have second : m.nextBuf = uartRxBuf base 1 := by
    simpa [Uart.lastOwned, active, queued] using last
  refine ⟨?_, ?_, ?_, inv.supplied⟩
  · intro a some
    simp only [Uart.restarted] at some ⊢
    split at some
    · cases some
      exact Or.inl ⟨rfl, second⟩
    · cases some
  · intro a q _ some
    exact absurd (some.symm.trans queued) (by simp)
  · intro stops
    cases stops

end Good

/-- The step lemma. -/
theorem good_step {base : Nat} {m t : Uart} {a : Act} (inv : Good base m)
    (met : m.stopsAtSecond base a = true) (taken : m.step base a = some t) : Good base t := by
  rcases step_cases taken with same | ⟨err, owned, rfl, stopping, active, queued, rfl⟩ |
    ⟨done, next, stopping, active, queued, rfl⟩ | ⟨owned, rfl, stopping, active, rfl⟩ |
    ⟨buf, stopping, active, rfl⟩ | ⟨buf, stopping, active, queued, rfl⟩ |
    ⟨err, stopping, active, queued, rfl⟩
  · exact same ▸ inv
  · exact inv.answered stopping active err
  · exact inv.switched stopping active queued
  · exact inv.stop (beq_iff_eq.mp met)
  · exact inv.releaseActive stopping active
  · exact inv.releaseQueued stopping active queued
  · exact inv.restarted stopping active queued err

theorem good_init {base : Nat} {m : Uart} (init : m.Init base) : Good base m := by
  obtain ⟨nextBuf, active, queued, stopping, supplied⟩ := init
  refine ⟨?_, ?_, ?_, ?_⟩
  · intro a some
    rcases active with first | none
    · exact Or.inl ⟨Option.some.inj (some.symm.trans first), nextBuf⟩
    · exact absurd (some.symm.trans none) (by simp)
  · intro a q _ some
    exact absurd (some.symm.trans queued) (by simp)
  · intro stops
    exact absurd (stops.symm.trans stopping) (by decide)
  · rw [supplied]
    intro s member
    cases member

theorem reachable_good {base : Nat} {m : Uart}
    (run : Reachable (Uart.step base) (Uart.Init base) (Uart.stopsAtSecond base) m) :
    Good base m := by
  apply run.invariant
  · exact fun _ init => good_init init
  · exact fun _ _ _ inv met taken => good_step inv met taken

/-- **The driver's buffers are the two halves**, where reception stops only at the second. -/
theorem double_buffered {base : Nat} {m : Uart}
    (run : Reachable (Uart.step base) (Uart.Init base) (Uart.stopsAtSecond base) m) :
    DoubleBuffered base m := by
  have inv := reachable_good run
  refine ⟨?_, inv.supplied⟩
  intro a q active queued
  rw [inv.queued a q active queued]
  exact inv.free a active

/-- The state after `uart_init`, with the array at 0. -/
def Uart.started : Uart where
  nextBuf := uartRxBuf 0 1
  active := some (uartRxBuf 0 0)
  queued := none
  stopping := false
  supplied := []

theorem Uart.started_init : Uart.started.Init 0 := ⟨rfl, Or.inl rfl, rfl, rfl, rfl⟩

/-- A stop with the second half queued, a restart and another request. -/
theorem double_buffered_restart :
    ∃ m, Reachable (Uart.step 0) (Uart.Init 0) (Uart.stopsAtSecond 0) m ∧
      m.supplied.length = 2 ∧ DoubleBuffered 0 m := by
  have found : (exec (Uart.step 0) (Uart.stopsAtSecond 0) Uart.started
      [.request 0, .stop, .release, .release, .disabled 0, .request 0]).any
      (fun m => m.supplied.length == 2) = true := by
    decide +kernel
  obtain ⟨m, run, two⟩ := exists_reachable_of_exec Uart.started_init found
  exact ⟨m, run, beq_iff_eq.mp two, double_buffered run⟩

/-- An answer with the buffer received into. -/
theorem not_doubleBuffered {base buf : Nat} {m : Uart} {before : List Supplied}
    (last : m.supplied = before ++ [⟨buf, buf⟩]) : ¬ DoubleBuffered base m := by
  intro buffered
  have halves := buffered.supplied ⟨buf, buf⟩ (by simp [last])
  exact halves.ne rfl

/-- A stop before the first request: the next one is answered with the active buffer. -/
theorem stop_before_request_breaks :
    ¬ ∀ (base : Nat) (m : Uart),
      Reachable (Uart.step base) (Uart.Init base) unguarded m → DoubleBuffered base m := by
  intro never
  have found : (exec (Uart.step 0) unguarded Uart.started
      [.stop, .release, .disabled 0, .request 0]).any
      (fun m => m.supplied == [⟨uartRxBuf 0 0, uartRxBuf 0 0⟩]) = true := by
    decide +kernel
  obtain ⟨m, run, same⟩ := exists_reachable_of_exec Uart.started_init found
  exact not_doubleBuffered ((beq_iff_eq.mp same).trans (List.nil_append _).symm) (never 0 m run)

/-- **Any other stop can be followed by a request that breaks it.** -/
theorem stop_breaks {base : Nat} {m t : Uart}
    (run : Reachable (Uart.step base) (Uart.Init base) (Uart.stopsAtSecond base) m)
    (first : m.stopsAtSecond base .stop = false) (taken : m.step base .stop = some t) :
    ∃ actions t', exec (Uart.step base) unguarded t actions = some t' ∧
      ¬ DoubleBuffered base t' := by
  have inv := reachable_good run
  obtain ⟨nextBuf, active, queued, stopping, supplied⟩ := m
  cases stopping with
  | true => cases taken
  | false =>
      cases active with
      | none => cases taken
      | some owned =>
          cases taken
          have halves := inv.free owned rfl
          cases queued with
          | none =>
              have other : owned ≠ uartRxBuf base 1 := by
                simpa [Uart.stopsAtSecond, Uart.lastOwned] using first
              obtain ⟨rfl, _⟩ := halves.resolve_right fun swapped => other swapped.1
              exact ⟨[.release, .disabled 0, .request 0], _, rfl, not_doubleBuffered rfl⟩
          | some next =>
              have other : next ≠ uartRxBuf base 1 := by
                simpa [Uart.stopsAtSecond, Uart.lastOwned] using first
              obtain rfl := inv.queued owned next rfl rfl
              obtain ⟨_, rfl⟩ := halves.resolve_left fun straight => other straight.2
              exact ⟨[.release, .release, .disabled 0, .request 0], _, rfl, not_doubleBuffered rfl⟩

end NcsExp.HsUart
