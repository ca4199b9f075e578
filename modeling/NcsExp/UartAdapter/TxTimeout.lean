/-
# NcsExp.UartAdapter.TxTimeout -- whose timeout aborts a transmission

The one `tx.timeout_timer` serves every transmission.  `tx` starts it for a finite
timeout and `tx_abort` stops it, but `on_tx_complete` does not: after a
transmission with a finite timeout has completed, the timer runs on.  A
transmission accepted with `SYS_FOREVER_MS` does not restart it either and is then
aborted when it expires (`forever_aborted_by_old_timer`).

`abort_is_own` is the exact positive half: when every transmission without a
timeout is accepted on a stopped timer, each abort is the application's or the
expiry of the aborted transmission's own timeout.
-/
import NcsExp.UartAdapter.TxConservation

namespace NcsExp.UartAdapter

open NcsExp.Theory
open Machine

set_option autoImplicit false

/-- An abort is asked for by the application during the transmission, or is the
expiry of the timer that this very transmission's finite timeout started. -/
def OwnAbort (l : Ledger) (t : Transmission) : Prop :=
  l.cause = some .user ∨
    l.cause = some (.expiry (some t.serial)) ∧ t.timeout ≠ SYS_FOREVER_MS

def AbortMoment (past : List Obs) : Obs → Prop
  | .event .adapter (.txAborted _ _) _ _ =>
      ∃ t, (ledger past).active = some t ∧ OwnAbort (ledger past) t
  | _ => True

/-- A kernel timer expires only while it runs. -/
def timerExpires (m : Machine) : Act → Bool
  | .txTimeout => (m.data .adapter).tx.timeoutTimer.isSome
  | _ => true

/-- Moreover, a transmission without a timeout is accepted on a stopped timer. -/
def foreverOnStopped (m : Machine) : Act → Bool
  | .call (.tx _ len timeout) =>
      decide (timeout = SYS_FOREVER_MS → len ≠ 0 → (m.data .adapter).tx.buf = NULL →
        (m.data .adapter).tx.timeoutTimer = none)
  | a => timerExpires m a

/-! ## The timer belongs to the transmission in progress -/

structure TimerInv (m : Machine) : Prop where
  running : (m.data .adapter).tx.timeoutTimer = none ↔ (ledger m.log).timer = none
  own : ∀ t owner, (ledger m.log).active = some t → (ledger m.log).timer = some owner →
    owner = t.serial ∧ t.timeout ≠ SYS_FOREVER_MS
  moments : Always AbortMoment m.log

theorem init_timerInv {m : Machine} (init : Init m) : TimerInv m where
  running := by simp [init.data, init.log, initData, Ledger.empty]
  own := by simp [init.log, Ledger.empty]
  moments := by simp [init.log, always_nil]

theorem abortMoment_of_txQuiet {o : Obs} (quiet : o.txQuiet) (past : List Obs) :
    AbortMoment past o := by
  unfold Obs.txQuiet at quiet
  split at quiet <;> simp_all [AbortMoment]

theorem TimerInv.of_txUnmoved {m m' : Machine} (inv : TimerInv m) (unmoved : TxUnmoved m m') :
    TimerInv m' where
  running := by rw [ledger_of_txUnmoved unmoved, unmoved.tx]; exact inv.running
  own := by rw [ledger_of_txUnmoved unmoved]; exact inv.own
  moments := by
    obtain ⟨new, grown, quiet⟩ := unmoved.log
    rw [grown]
    exact inv.moments.append fun o member past => abortMoment_of_txQuiet (quiet o member) past

theorem timerInv_tx {m : Machine} (inv : TimerInv m) (buf : Buffer) {len : Nat} {timeout : Int}
    (ok : foreverOnStopped m (.call (.tx buf len timeout)) = true) :
    TimerInv (apiCall m (.tx buf len timeout)) := by
  have grown (ret : Int) : Always AbortMoment (m.log ++ [Obs.call (.tx buf len timeout) ret]) :=
    always_snoc.mpr ⟨inv.moments, trivial⟩
  simp only [apiCall]
  by_cases accepts : len ≠ 0 ∧ (m.data .adapter).tx.buf = NULL
  · obtain ⟨some_, free⟩ := accepts
    refine ⟨?_, fun t owner active timer => ?_, by simpa [tx, some_, free] using grown 0⟩
    · by_cases forever : timeout = SYS_FOREVER_MS
      · simpa [tx, some_, free, Ledger.observe, Ledger.accept, forever] using inv.running
      · simp [tx, some_, free, Ledger.observe, Ledger.accept, forever]
    · simp only [tx, some_, free, if_false, note_log, setIrq_log, setTx_log, ledger_snoc,
        Ledger.observe, ne_eq, not_false_eq_true, not_true_eq_false, and_self, if_true,
        Ledger.accept, Option.some.injEq] at active timer
      subst active
      by_cases forever : timeout = SYS_FOREVER_MS
      · -- The guard leaves no timer behind for this transmission.
        have stopped := inv.running.mp (of_decide_eq_true ok forever some_ free)
        simp [forever, stopped] at timer
      · simp only [forever, not_false_eq_true, if_true, Option.some.injEq] at timer
        exact ⟨timer.symm, forever⟩
  · have same : (tx m .adapter buf.addr len timeout).1 = m ∧
        ¬ (len ≠ 0 ∧ (tx m .adapter buf.addr len timeout).2 = 0) := by
      rcases tx_cases m buf.addr len timeout with ⟨same, refused⟩ | ⟨some_, free, -⟩
      · refine ⟨same, fun both => refused.elim both.1 fun busy => ?_⟩
        rw [both.2] at busy
        exact absurd busy (by decide)
      · exact absurd ⟨some_, free⟩ accepts
    obtain ⟨same, ignored⟩ := same
    refine ⟨?_, ?_, by simpa [same] using grown _⟩
    · simpa [same, Ledger.observe, ignored] using inv.running
    · simpa [same, Ledger.observe, ignored] using inv.own

/-- `tx_abort` from an entry that stops the ledger's timer for a cause of the
transmission in progress. -/
theorem timerInv_txAbort {m : Machine} (txInv : TxInv m) (inv : TimerInv m) {entry : Obs}
    (kept : ((ledger m.log).observe entry).active = (ledger m.log).active)
    (stopped : ((ledger m.log).observe entry).timer = none)
    (own : ∀ t, (ledger m.log).active = some t → OwnAbort ((ledger m.log).observe entry) t)
    (moment : AbortMoment m.log entry) : TimerInv (txAbort m .adapter entry) := by
  have grown : Always AbortMoment (m.log ++ [entry]) := always_snoc.mpr ⟨inv.moments, moment⟩
  unfold txAbort
  dsimp only
  split
  · refine ⟨by simp [stopped], fun t owner _ timer => ?_, by simpa using grown⟩
    simp [stopped] at timer
  · rename_i busy
    obtain ⟨t, active⟩ := Option.ne_none_iff_exists'.mp (mt txInv.active_eq_none.mp busy)
    unfold userCallback
    rw [if_pos (by simpa using txInv.callback)]
    refine ⟨?_, fun t owner _ timer => ?_, ?_⟩
    · rw [push_log, note_log, ledger_snoc]
      simp only [push_data, note_data, setTx_tx, setTx_log, setIrq_log, note_log, ledger_snoc,
        true_iff]
      exact stopped
    · rw [push_log, note_log, ledger_snoc] at timer
      simp only [setTx_log, setIrq_log, note_log, ledger_snoc] at timer
      exact absurd (stopped.symm.trans timer) (by simp)
    · refine always_snoc.mpr ⟨by simpa using grown, t, ?_, ?_⟩
      · simpa [kept] using active
      · simpa using own t active

theorem timerInv_onTxReady {m : Machine} (inv : TimerInv m) (ret : Int) :
    TimerInv (onTxReady m ret) := by
  unfold onTxReady
  dsimp only
  split
  · exact inv
  · refine ⟨by simpa [Ledger.observe] using inv.running, fun t owner active timer => ?_, ?_⟩
    · simp only [setTx_log, note_log, ledger_snoc, Ledger.observe, Option.map_eq_some_iff]
        at active timer
      obtain ⟨t₀, active, rfl⟩ := active
      exact inv.own t₀ owner active timer
    · exact always_snoc.mpr ⟨inv.moments, trivial⟩

theorem timerInv_onTxComplete {m : Machine} (txInv : TxInv m) (inv : TimerInv m) :
    TimerInv (onTxComplete m) := by
  unfold onTxComplete
  dsimp only
  split
  · split
    · unfold userCallback
      rw [if_pos (by simpa using txInv.callback)]
      refine ⟨by simpa [Ledger.observe] using inv.running, fun t owner active _ => ?_, ?_⟩
      · simp [Ledger.observe] at active
      · exact always_snoc.mpr ⟨by simpa using inv.moments, trivial⟩
    · exact ⟨by simpa using inv.running, by simpa using inv.own, by simpa using inv.moments⟩
  · exact inv

theorem step_timerInv {m m' : Machine} {a : Act} (txInv : TxInv m) (inv : TimerInv m)
    (ok : foreverOnStopped m a = true) (taken : step m a = some m') : TimerInv m' := by
  rcases step_tx taken with unmoved | moved
  · exact inv.of_txUnmoved unmoved
  · cases moved with
    | tx buf len timeout => exact timerInv_tx inv buf ok
    | txAbort => exact timerInv_txAbort txInv inv rfl rfl (fun _ _ => Or.inl rfl) trivial
    | txTimeout =>
        -- The timer runs, so the ledger knows whose it is: the transmission's own.
        have runs : (m.data .adapter).tx.timeoutTimer ≠ none := Option.isSome_iff_ne_none.mp ok
        obtain ⟨owner, timer⟩ := Option.ne_none_iff_exists'.mp (mt inv.running.mpr runs)
        refine timerInv_txAbort txInv inv rfl rfl (fun t active => Or.inr ?_) trivial
        obtain ⟨rfl, finite⟩ := inv.own t owner active timer
        exact ⟨by simp [Ledger.observe, timer], finite⟩
    | @onTxReady rest ret more fits =>
        have popped : TimerInv { m with stack := rest } :=
          inv.of_txUnmoved (.of_same rfl rfl rfl rfl)
        exact timerInv_onTxReady popped ret
    | @onTxComplete rest flag =>
        have unmoved : TxUnmoved m { m with stack := rest } := .of_same rfl rfl rfl rfl
        exact timerInv_onTxComplete (txInv.of_txUnmoved unmoved) (inv.of_txUnmoved unmoved)

theorem reachable_timerInv {m : Machine} (run : Reachable step Init foreverOnStopped m) :
    TimerInv m := by
  apply run.strengthen (Q := TxInv)
  · intro s before
    exact reachable_txInv before
  · intro s init
    exact init_timerInv init
  · intro s a t txInv inv ok taken
    exact step_timerInv txInv inv ok taken

/-- **An abort is the transmission's own** in every run whose transmissions without
a timeout are accepted on a stopped timer. -/
theorem abort_is_own {m : Machine} (run : Reachable step Init foreverOnStopped m) :
    Always AbortMoment m.log :=
  (reachable_timerInv run).moments

/-- A finite timeout that expires, then a transmission without one that completes. -/
def ownTimeoutRun : List Act :=
  [.call (.tx 100 5 50)] ++ txInterrupt 2 false ++ rxNothing ++
    [.txTimeout, .resume .go, .call (.tx 200 1 SYS_FOREVER_MS)] ++
    txInterrupt 1 true ++ [.resume .go] ++ rxNothing

theorem abort_is_own_ownTimeoutRun :
    ∃ m, exec step foreverOnStopped fresh ownTimeoutRun = some m ∧ Always AbortMoment m.log := by
  have possible : (exec step foreverOnStopped fresh ownTimeoutRun).isSome := by decide +kernel
  obtain ⟨m, taken⟩ := Option.isSome_iff_exists.mp possible
  exact ⟨m, taken, abort_is_own (reachable_of_exec init_fresh taken)⟩

/-- A transmission of one byte with a timeout completes; the next one has none. -/
def oldTimerRun : List Act :=
  [.call (.tx 100 1 50)] ++ txInterrupt 1 true ++ [.resume .go] ++ rxNothing ++
    [.call (.tx 200 1 SYS_FOREVER_MS), .txTimeout]

/-- The last observation is an abort of the second transmission, whose cause is the
timer of the first one. -/
def foreignAbort (m : Machine) : Bool :=
  match m.log.getLast? with
  | some (.event .adapter (.txAborted _ _) _ _) =>
      decide ((ledger m.log.dropLast).cause = some (.expiry (some 0))) &&
        decide ((ledger m.log.dropLast).active.map (·.serial) = some 1)
  | _ => false

/-- **The timer of a completed transmission aborts the next one**, which never had
a timeout. -/
theorem forever_aborted_by_old_timer :
    ¬ ∀ m, Reachable step Init timerExpires m → Always AbortMoment m.log := by
  intro abortsOwn
  have found : (exec step timerExpires fresh oldTimerRun).any foreignAbort = true := by
    decide +kernel
  obtain ⟨m, run, aborted⟩ := exists_reachable_of_exec init_fresh found
  unfold foreignAbort at aborted
  split at aborted
  · rename_i last
    obtain ⟨t, active, own⟩ := (abortsOwn m run).last last
    simp_all [OwnAbort]
  · cases aborted

end NcsExp.UartAdapter
