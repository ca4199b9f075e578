/-
# NcsExp.UartAdapter.RxError -- what a line error stops

`uart_irq_handler` hands a line error to `on_error`, which should stop the
adapter's own reception.  `on_error` calls `rx_disable(data->target)`: the device
that is switched off is the target, whose private data is read and written as if it
were an adapter's.  The adapter's `rx` stays as it was (`onError_ends`), in no state
is its reception stopped, and in none is the target's data left alone
(`onError_never_stops`).

An activation that calls the application back goes on once the callback has
returned; `Returns rest` runs it, each callback returning at once, until only the
statements of its callers are left.
-/
import NcsExp.UartAdapter.RxConservation

namespace NcsExp.UartAdapter

open NcsExp.Theory
open Machine

set_option autoImplicit false

/-! ## An activation up to its return -/

/-- The activation above `rest` runs from the first machine and returns in the
second; no callback does anything. -/
inductive Returns (rest : List Frame) : Machine → Machine → Prop
  | done {m : Machine} (bare : m.stack = rest) : Returns rest m m
  | go {m m₁ m' : Machine} (inside : m.stack ≠ rest) (taken : step m (.resume .go) = some m₁)
      (returns : Returns rest m₁ m') : Returns rest m m'

/-- An activation returns in one machine only. -/
theorem Returns.unique {rest : List Frame} {m m₁ m₂ : Machine} (first : Returns rest m m₁)
    (second : Returns rest m m₂) : m₁ = m₂ := by
  induction first with
  | done bare =>
      cases second with
      | done _ => rfl
      | go inside _ _ => exact absurd bare inside
  | go inside taken _ ih =>
      cases second with
      | done bare => exact absurd bare inside
      | go _ taken' returns' =>
          cases taken.symm.trans taken'
          exact ih returns'

/-- `uart_err_check` answers `err` where `uart_irq_handler` asks, and `m'` is the
machine once the handler's `on_error` has returned. -/
def OnErrorEnds (m : Machine) (err : Int) (m' : Machine) : Prop :=
  ∃ rest m₁, m.stack = .irqError :: rest ∧ step m (.resume (.errCheck err)) = some m₁ ∧
    Returns rest m₁ m'

theorem OnErrorEnds.unique {m m₁ m₂ : Machine} {err : Int} (first : OnErrorEnds m err m₁)
    (second : OnErrorEnds m err m₂) : m₁ = m₂ := by
  obtain ⟨rest, n, here, taken, returns⟩ := first
  obtain ⟨rest', n', here', taken', returns'⟩ := second
  cases here.symm.trans here'
  cases taken.symm.trans taken'
  exact returns.unique returns'

/-- The machine with other private data in the target device. -/
def Machine.withTarget (m : Machine) (d : AdapterData) : Machine :=
  { m with data := fun x => if x = .target then d else m.data x }

/-- The adapter's own reception is stopped, and its user was told. -/
structure ReceptionStopped (m : Machine) (err : Int) (m' : Machine) : Prop where
  enabled : (m'.data .adapter).rx.enabled = false
  buf : (m'.data .adapter).rx.buf = NULL
  irq : (m'.irq (m.data .adapter).target).rx = false ∧
    (m'.irq (m.data .adapter).target).err = false
  emitted : ∃ new, m'.log = m.log ++ new ∧
    (∀ b, b ≠ NULL → b = (m.data .adapter).rx.buf ∨ b = (m.data .adapter).rx.nextBuf →
      ∃ bytes data, .event .adapter (.rxBufReleased b) bytes data ∈ new) ∧
    (∃ bytes data, .event .adapter .rxDisabled bytes data ∈ new) ∧
    ∃ bytes data, .event .adapter (.rxStopped err) bytes data ∈ new

/-- `on_error` stops the adapter's reception. -/
def StopsReception (m : Machine) (err : Int) : Prop :=
  ∀ m', OnErrorEnds m err m' → ReceptionStopped m err m'

/-- `on_error` does the same whatever the target's private data is, and leaves it
alone. -/
def SparesTarget (m : Machine) (err : Int) : Prop :=
  ∀ m', OnErrorEnds m err m' → ∀ d, OnErrorEnds (m.withTarget d) err (m'.withTarget d)

/-! ## The loop of `rx_disable` on the target -/

theorem RxUnmoved.restack {m m' : Machine} (unmoved : RxUnmoved m m') (stack : List Frame) :
    RxUnmoved { m with stack := stack } { m' with stack := stack } :=
  ⟨unmoved.rx, unmoved.target, unmoved.callback, unmoved.mem, ⟨[], rfl, by simp⟩, unmoved.log⟩

section

variable {rest : List Frame} {m m' : Machine}

/-- Where the activation above `rest` returns to: the adapter's reception is as in
`m`, and the target's private data says of `enabled` what it says in `m`. -/
structure LeftAlone (rest : List Frame) (m m' : Machine) : Prop where
  unmoved : RxUnmoved { m with stack := rest } { m' with stack := rest }
  enabled : (m'.data .target).rx.enabled = (m.data .target).rx.enabled

theorem LeftAlone.trans {m₁ : Machine} (first : LeftAlone rest m m₁)
    (second : LeftAlone rest m₁ m') : LeftAlone rest m m' :=
  ⟨first.unmoved.trans second.unmoved, second.enabled.trans first.enabled⟩

/-- Statements above `rest` are still to be run. -/
theorem ne_of_above {f : Frame} {stack : List Frame} (here : m.stack = f :: stack)
    (above : rest <:+ stack) : m.stack ≠ rest := by
  intro same
  have shorter := above.length_le
  rw [← same, here, List.length_cons] at shorter
  omega

/-- A callback returns at once, to what is below it. -/
theorem returns_userCallback {dev : Dev} {evt : UartEvent} (above : rest <:+ m.stack)
    (other : dev = .target ∨ ¬ evt.isRx)
    (goesOn : ∀ n, n.stack = m.stack → n.data = m.data →
      ∃ m', Returns rest n m' ∧ LeftAlone rest n m') :
    ∃ m', Returns rest (userCallback m dev evt) m' ∧ LeftAlone rest m m' := by
  unfold userCallback
  split
  · have noted := RxUnmoved.note m (.event dev evt (shown m evt) (m.data dev))
      (rxQuiet_event other _ _)
    obtain ⟨m', returns, leftAlone⟩ := goesOn (m.note (.event dev evt (shown m evt) (m.data dev)))
      rfl rfl
    exact ⟨m', .go (ne_of_above rfl above) rfl returns,
      LeftAlone.trans ⟨noted.restack rest, rfl⟩ leftAlone⟩
  · exact goesOn m rfl rfl

/-- The last statement of `on_error`. -/
theorem returns_onErrorStopped {rxErr : Int} (here : m.stack = .onErrorStopped rxErr :: rest) :
    ∃ m', Returns rest m m' ∧ LeftAlone rest m m' := by
  have taken : step m (.resume .go) =
      some (userCallback { m with stack := rest } .adapter (.rxStopped rxErr)) := by
    simp [step, here, resume]
  obtain ⟨m', returns, leftAlone⟩ : ∃ m', Returns rest
      (userCallback { m with stack := rest } .adapter (.rxStopped rxErr)) m' ∧
        LeftAlone rest { m with stack := rest } m' :=
    returns_userCallback List.suffix_rfl (Or.inr not_false)
      fun n bare _ => ⟨n, .done bare, RxUnmoved.refl _, rfl⟩
  exact ⟨m', .go (ne_of_above here List.suffix_rfl) taken returns,
    leftAlone.unmoved, leftAlone.enabled⟩

/-- The buffers that the loop of `rx_disable` has to release. -/
def toRelease (r : RxData) : Nat :=
  if r.buf = NULL then 0 else if r.nextBuf = NULL then 1 else 2

theorem toRelease_switched {r : RxData} (busy : r.buf ≠ NULL) :
    toRelease (switched r) + 1 = toRelease r := by
  by_cases spare : r.nextBuf = NULL <;> simp [toRelease, switched, busy, spare]

/-- The machine in which the loop of `rx_disable` notifies a release of the target. -/
def releasing (m : Machine) : Machine :=
  ((m.push [.rxDisableWhile .target]).setRx .target (switched (m.data .target).rx)).note
    (.switched .target (m.data .target).rx.nextBuf (m.data .target).rx.nextBufLen)

theorem rxDisableWhile_busy (busy : (m.data .target).rx.buf ≠ NULL) :
    rxDisableWhile m .target =
      userCallback (releasing m) .target (.rxBufReleased (m.data .target).rx.buf) := by
  simp [rxDisableWhile, switchRxBuffer, releasing, busy]

theorem leftAlone_releasing : LeftAlone rest m (releasing m) where
  unmoved := ((RxUnmoved.setTargetRx m (switched (m.data .target).rx)).trans
    (.note _ (.switched .target _ _) trivial)).restack rest
  enabled := by simp [releasing, switched]

/-- The loop of `rx_disable` on the target returns. -/
theorem returns_rxDisableWhile {rxErr : Int} {k : Nat}
    (here : m.stack = .onErrorStopped rxErr :: rest)
    (count : toRelease (m.data .target).rx = k) :
    ∃ m', Returns rest (rxDisableWhile m .target) m' ∧ LeftAlone rest m m' := by
  have above : rest <:+ m.stack := here ▸ List.suffix_cons _ _
  induction k generalizing m with
  | zero =>
      have null : (m.data .target).rx.buf = NULL := by
        by_contra busy
        have more := toRelease_switched busy
        omega
      rw [rxDisableWhile, if_neg (not_not.mpr null)]
      refine returns_userCallback above (Or.inl rfl) fun n same _ => ?_
      exact returns_onErrorStopped (same.trans here)
  | succ k ih =>
      have busy : (m.data .target).rx.buf ≠ NULL := by
        intro null
        simp [toRelease, null] at count
      have fewer := toRelease_switched busy
      rw [rxDisableWhile_busy busy]
      obtain ⟨m', returns, leftAlone⟩ :
          ∃ m', Returns rest (userCallback (releasing m) .target
            (.rxBufReleased (m.data .target).rx.buf)) m' ∧ LeftAlone rest (releasing m) m' := by
        refine returns_userCallback (above.trans (List.suffix_cons _ _)) (Or.inl rfl)
          fun n same kept => ?_
        have taken : step n (.resume .go) =
            some (rxDisableWhile { n with stack := m.stack } .target) := by
          simp [step, same, releasing, resume]
        obtain ⟨m', returns, leftAlone⟩ := ih (m := { n with stack := m.stack }) here (by
          simp only [kept, releasing, note_data, setRx_rx]
          omega) above
        exact ⟨m', .go (ne_of_above same above) taken returns, leftAlone.unmoved, leftAlone.enabled⟩
      exact ⟨m', returns, leftAlone_releasing.trans leftAlone⟩

/-- **What `on_error` does.**  It returns; the adapter's reception is then as it was,
no notification of it was emitted, and `enabled` is off in the target's private data. -/
theorem onError_ends (target : (m.data .adapter).target = .target)
    (here : m.stack = .irqError :: rest) (enabled : (m.data .adapter).rx.enabled = true) {err : Int}
    (positive : 0 < err) :
    ∃ m', OnErrorEnds m err m' ∧ RxUnmoved { m with stack := rest } { m' with stack := rest } ∧
      (m'.data .target).rx.enabled = false := by
  have taken : step m (.resume (.errCheck err)) = some (onError { m with stack := rest } err) := by
    have notNeg : ¬ err < 0 := by omega
    have notZero : err ≠ 0 := by omega
    simp [step, here, resume, notNeg, notZero, enabled]
  let begun : Machine := ((m.push [.onErrorStopped err]).setRx .target
    { (m.data .target).rx with enabled := false }).setIrq (m.data .target).target
      fun i => { i with rx := false, err := false }
  have first : RxUnmoved { m with stack := rest } { begun with stack := rest } :=
    .of_same rfl rfl rfl rfl rfl rfl
  obtain ⟨m', returns, leftAlone⟩ :=
    returns_rxDisableWhile (m := { begun with stack := .onErrorStopped err :: rest }) rfl rfl
  have same : onError { m with stack := rest } err =
      rxDisableWhile { begun with stack := .onErrorStopped err :: rest } .target := by
    simp only [onError, rxDisable, target]
    rfl
  refine ⟨m', ⟨rest, _, here, taken, same ▸ returns⟩, first.trans leftAlone.unmoved, ?_⟩
  rw [leftAlone.enabled]
  simp [begun]

end

/-! ## No line error stops the adapter's reception -/

/-- **A line error never stops the adapter's reception**, in no reachable state in
which `uart_irq_handler` calls `on_error`, and `on_error` never leaves the target's
private data alone. -/
theorem onError_never_stops {ok : Machine → Act → Bool} {m : Machine}
    (run : Reachable step Init ok m) {rest : List Frame} (here : m.stack = .irqError :: rest)
    (enabled : (m.data .adapter).rx.enabled = true) {err : Int} (positive : 0 < err) :
    ¬ StopsReception m err ∧ ¬ SparesTarget m err := by
  have target := (reachable_rxInv run).target
  constructor
  · intro stops
    obtain ⟨m', ends, unmoved, -⟩ := onError_ends target here enabled positive
    have off := (stops m' ends).enabled
    rw [show (m'.data .adapter).rx = (m.data .adapter).rx from unmoved.rx, enabled] at off
    cases off
  · intro spares
    -- the target's data with `enabled` on: the run switches it off, a run that
    -- leaves it alone does not
    let d : AdapterData := { m.data .target with
      rx := { (m.data .target).rx with enabled := true } }
    obtain ⟨m', ends, -, -⟩ := onError_ends target here enabled positive
    obtain ⟨m₁, ends₁, -, written⟩ :=
      onError_ends (m := m.withTarget d) target here enabled positive
    rw [← (spares m' ends d).unique ends₁] at written
    cases written

/-- Reception is enabled; an interrupt finds nothing to send or to read and asks for
errors. -/
def errorRun : List Act :=
  [.call (.rxEnable 100 8 50), .uartIrqHandler, .resume (.status true),
    .resume (.status false), .resume (.status false), .resume (.status false)]

/-- The handler asks `uart_err_check` while reception is enabled. -/
def asksForErrors (m : Machine) : Bool :=
  decide (m.stack = [.irqError]) && (m.data .adapter).rx.enabled

theorem exists_asksForErrors :
    ∃ m, Reachable step Init unguarded m ∧ m.stack = [.irqError] ∧
      (m.data .adapter).rx.enabled = true := by
  have found : (exec step unguarded fresh errorRun).any asksForErrors = true := by decide +kernel
  obtain ⟨m, run, asks⟩ := exists_reachable_of_exec init_fresh found
  obtain ⟨here, enabled⟩ := (Bool.and_eq_true _ _).mp asks
  exact ⟨m, run, of_decide_eq_true here, enabled⟩

theorem onError_never_stops_errorRun :
    ∃ m, Reachable step Init unguarded m ∧ m.stack = [.irqError] ∧
      ¬ StopsReception m 1 ∧ ¬ SparesTarget m 1 := by
  obtain ⟨m, run, here, enabled⟩ := exists_asksForErrors
  exact ⟨m, run, here, onError_never_stops run here enabled (by decide)⟩

/-- **An overrun right after `rx_enable` leaves reception enabled.** -/
theorem overrun_leaves_enabled :
    ¬ ∀ m, Reachable step Init unguarded m → ∀ rest, m.stack = .irqError :: rest →
      (m.data .adapter).rx.enabled = true → ∀ err, 0 < err →
        StopsReception m err ∧ SparesTarget m err := by
  intro stopping
  obtain ⟨m, run, here, enabled⟩ := exists_asksForErrors
  obtain ⟨stops, -⟩ := stopping m run [] here enabled 1 (by decide)
  obtain ⟨m', ends, unmoved, -⟩ :=
    onError_ends (reachable_rxInv run).target here enabled Int.one_pos
  have off := (stops m' ends).enabled
  rw [show (m'.data .adapter).rx = (m.data .adapter).rx from unmoved.rx, enabled] at off
  cases off

end NcsExp.UartAdapter
