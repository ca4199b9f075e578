/-
# NcsExp.UartAdapter.RxBusy -- refused receive calls and the buffers already owned

`rx_enable` and `rx_buf_rsp` refuse with -EBUSY while the adapter owns a buffer in
the place they fill.  `rx_buf_rsp` tests, and assigns in the other branch;
`rx_enable` only sets its return code and goes on to the assignments, so a refused
call overwrites `buf` and `next_buf` and the buffers behind them are never
released.  `refused_unchanged_iff` says when a refused call still changes nothing.
-/
import NcsExp.UartAdapter.RxConservation

namespace NcsExp.UartAdapter

open NcsExp.Theory
open Machine

set_option autoImplicit false

/-! ## No buffer in use, no fill pointer -/

/-- Without a buffer in use there is no fill pointer either. -/
def Parked (m : Machine) : Prop :=
  (m.data .adapter).rx.buf = NULL → (m.data .adapter).rx.currBuf = NULL

@[simp] theorem userCallback_data (m : Machine) (dev : Dev) (evt : UartEvent) :
    (userCallback m dev evt).data = m.data := by
  unfold userCallback
  split <;> rfl

namespace Parked

variable {m m' : Machine}

/-- The pointers of the buffer in use are those of `m`. -/
theorem of_same (parked : Parked m)
    (buf : (m'.data .adapter).rx.buf = (m.data .adapter).rx.buf)
    (currBuf : (m'.data .adapter).rx.currBuf = (m.data .adapter).rx.currBuf) : Parked m' := by
  unfold Parked
  rw [buf, currBuf]
  exact parked

theorem notifyRxBuffer (parked : Parked m) : Parked (notifyRxBuffer m .adapter) := by
  unfold UartAdapter.notifyRxBuffer
  dsimp only
  split
  · exact parked.of_same (by simp) (by simp)
  · exact parked

/-- The buffer that comes into use has its fill pointer at its start. -/
theorem switchRxBuffer (m : Machine) (requestNew : Bool) :
    Parked (switchRxBuffer m .adapter requestNew) := by
  unfold UartAdapter.switchRxBuffer Parked
  cases requestNew <;> dsimp only <;> split <;> simp [switched]

theorem rxDisableWhile (parked : Parked m) : Parked (rxDisableWhile m .adapter) := by
  unfold UartAdapter.rxDisableWhile
  split
  · exact switchRxBuffer _ false
  · exact parked.of_same (by simp) (by simp)

theorem onRxReadyDo (parked : Parked m) (notifyNow : Bool) :
    Parked (onRxReadyDo m notifyNow) := by
  unfold UartAdapter.onRxReadyDo
  split
  · exact notifyRxBuffer (m := m.push _) parked
  · exact parked

theorem onRxReadyLoop (parked : Parked m) (ret : Nat) (notifyNow : Bool) :
    Parked (onRxReadyLoop m ret notifyNow) := by
  unfold UartAdapter.onRxReadyLoop
  split
  · exact parked.onRxReadyDo notifyNow
  · split
    · exact parked.notifyRxBuffer
    · exact parked

/-- Only a buffer in use is filled. -/
theorem onRxReadyRead (busy : (m.data .adapter).rx.buf ≠ NULL) (notifyNow : Bool)
    (bytes : List UInt8) : Parked (onRxReadyRead m notifyNow bytes) := by
  unfold UartAdapter.onRxReadyRead
  refine onRxReadyLoop ?_ _ _
  intro null
  exact absurd (by simpa using null) busy

theorem onRxReadyDrop (parked : Parked m) (cnt : Nat) (notifyNow : Bool) (bytes : List UInt8) :
    Parked (onRxReadyDrop m cnt notifyNow bytes) := by
  have noted : Parked (m.note (.dropped bytes)) := parked
  unfold UartAdapter.onRxReadyDrop
  dsimp only
  split
  · exact noted
  · exact noted.onRxReadyLoop _ _

end Parked

theorem step_parked {m m' : Machine} {a : Act} (inv : RxInv m) (parked : Parked m)
    (taken : step m a = some m') : Parked m' := by
  rcases step_rx inv.target taken with ⟨rest, -, unmoved⟩ | moved
  · unfold Parked
    rw [unmoved.rx]
    exact parked
  · cases moved with
    | rxEnable buf len timeout => simp [Parked, apiCall, rxEnable, rxEnabled]
    | rxBufRsp buf len =>
        refine parked.of_same ?_ ?_ <;> simp only [apiCall, rxBufRsp] <;> split <;> simp
    | rxDisable =>
        refine Parked.rxDisableWhile (parked.of_same ?_ ?_) <;> simp
    | rxTimeout =>
        refine Parked.notifyRxBuffer (parked.of_same ?_ ?_) <;> simp
    | notifyRxBufferReq => exact parked.of_same (by simp) (by simp)
    | @rxDisableWhile rest => exact Parked.rxDisableWhile (m := { m with stack := rest }) parked
    | onRxReadySwitch => exact Parked.switchRxBuffer _ true
    | onRxReady =>
        refine Parked.onRxReadyDo (parked.of_same ?_ ?_) false <;> simp
    | @onRxReadyRead rest _ _ _ room _ =>
        exact Parked.onRxReadyRead (m := { m with stack := rest }) (inv.buf_of_room room) _ _
    | @onRxReadyDrop _ rest =>
        exact Parked.onRxReadyDrop (m := { m with stack := rest }) parked _ _ _

theorem reachable_parked {ok : Machine → Act → Bool} {m : Machine}
    (run : Reachable step Init ok m) : Parked m := by
  apply run.strengthen fun s run => reachable_rxInv run
  · intro s init
    simp [Parked, init.data, initData]
  · intro s a t inv parked _ taken
    exact step_parked inv parked taken

/-! ## Refused calls -/

/-- A call of `rx_enable` or `rx_buf_rsp` that returns -EBUSY changes nothing: not
`rx`, and `rx_buf_rsp` nothing at all. -/
structure RefusedUnchanged (m : Machine) (buf : Buffer) (len : Nat) (timeout : Int) : Prop where
  rxEnable : (rxEnable m .adapter buf.addr len timeout).2 = -EBUSY →
    ((rxEnable m .adapter buf.addr len timeout).1.data .adapter).rx = (m.data .adapter).rx
  rxBufRsp : (rxBufRsp m .adapter buf.addr len).2 = -EBUSY →
    (rxBufRsp m .adapter buf.addr len).1 = m

/-- The adapter owns no buffer. -/
def OwnsNone (r : RxData) : Prop := r.nextBuf = NULL ∧ r.buf = NULL

instance (r : RxData) : Decidable (OwnsNone r) := inferInstanceAs (Decidable (_ ∧ _))

/-- Reception waits for its first byte, as a call with these arguments leaves it. -/
structure Awaits (r : RxData) (buf : Buffer) (len : Nat) (timeout : Int) : Prop where
  idle : r.buf = NULL
  first : r.nextBuf = buf.addr
  firstLen : r.nextBufLen = len
  inactivity : r.timeout = timeout
  enabled : r.enabled = true

theorem rxEnabled_busy_iff (r : RxData) (buf len : Nat) (timeout : Int) :
    (rxEnabled r buf len timeout).2 = -EBUSY ↔ ¬ OwnsNone r := by
  have owned : (r.nextBuf ≠ NULL ∨ r.buf ≠ NULL) ↔ ¬ OwnsNone r := not_and_or.symm
  unfold rxEnabled
  dsimp only
  split
  · rename_i busy
    exact iff_of_true rfl (owned.mp busy)
  · rename_i free
    exact iff_of_false (by decide) (mt owned.mpr free)

/-- `rx_buf_rsp` assigns only where it does not refuse. -/
theorem rxBufRsp_refused (m : Machine) (buf len : Nat)
    (refused : (rxBufRsp m .adapter buf len).2 = -EBUSY) : (rxBufRsp m .adapter buf len).1 = m := by
  unfold rxBufRsp at refused ⊢
  dsimp only at refused ⊢
  split
  · rfl
  · rename_i free
    rw [if_neg free] at refused
    have accepted : (0 : Int) = -EBUSY := refused
    simp [EBUSY] at accepted

/-- The assignments of `rx_enable` find their values already there. -/
theorem rxEnabled_fst_eq_iff {m : Machine} (inv : RxInv m) (parked : Parked m) (buf : Buffer)
    (len : Nat) (timeout : Int) :
    (rxEnabled (m.data .adapter).rx buf.addr len timeout).1 = (m.data .adapter).rx ↔
      Awaits (m.data .adapter).rx buf len timeout := by
  have currBuf : (m.data .adapter).rx.buf = NULL → (m.data .adapter).rx.currBuf = NULL := parked
  have sizeLeft : (m.data .adapter).rx.buf = NULL → (m.data .adapter).rx.sizeLeft = 0 :=
    fun null => (inv.idle (inv.active_eq_none.mpr null)).2
  revert currBuf sizeLeft
  generalize (m.data .adapter).rx = r
  intro currBuf sizeLeft
  constructor
  · intro same
    have field (f : RxData → Nat) : f (rxEnabled r buf.addr len timeout).1 = f r := by rw [same]
    exact ⟨(field RxData.buf).symm, (field RxData.nextBuf).symm, (field RxData.nextBufLen).symm,
      by rw [← same, rxEnabled], by rw [← same, rxEnabled]⟩
  · rintro ⟨idle, first, firstLen, inactivity, enabled⟩
    have currNull := currBuf idle
    have noRoom := sizeLeft idle
    cases r
    simp_all [rxEnabled]

/-- **When a refused call changes nothing.**  In every reachable state: exactly when
the adapter owns no buffer, or when the call repeats the `rx_enable` whose first
byte has not arrived. -/
theorem refused_unchanged_iff {ok : Machine → Act → Bool} {m : Machine}
    (run : Reachable step Init ok m) (buf : Buffer) (len : Nat) (timeout : Int) :
    RefusedUnchanged m buf len timeout ↔
      OwnsNone (m.data .adapter).rx ∨ Awaits (m.data .adapter).rx buf len timeout := by
  have assigned := rxEnabled_fst_eq_iff (reachable_rxInv run) (reachable_parked run) buf len timeout
  have refused := rxEnabled_busy_iff (m.data .adapter).rx buf.addr len timeout
  constructor
  · rintro ⟨enable, -⟩
    by_cases free : OwnsNone (m.data .adapter).rx
    · exact Or.inl free
    · refine Or.inr (assigned.mp ?_)
      simpa [rxEnable] using enable (refused.mpr free)
  · intro kept
    refine ⟨fun busy => ?_, rxBufRsp_refused m buf.addr len⟩
    have awaits := kept.resolve_left (refused.mp busy)
    simpa [rxEnable] using assigned.mpr awaits

/-! ## A call repeated in time, and one that drops a buffer -/

/-- The machine once reception was enabled and no byte has arrived. -/
def awaiting : Machine := apiCall fresh (.rxEnable 100 8 50)

/-- The same call once more is refused and changes nothing. -/
theorem refused_unchanged_awaiting : RefusedUnchanged awaiting ⟨100, by decide⟩ 8 50 := by
  have run : Reachable step Init unguarded awaiting :=
    .next (a := .call (.rxEnable ⟨100, by decide⟩ 8 50)) (.start init_fresh) rfl rfl
  exact (refused_unchanged_iff run ⟨100, by decide⟩ 8 50).mpr (Or.inr ⟨rfl, rfl, rfl, rfl, rfl⟩)

/-- Three bytes have arrived in a buffer of eight. -/
def receivingRun : List Act :=
  [.call (.rxEnable 100 8 50)] ++ rxInterrupt ++
    [.resume .go, .resume .go, .resume .go, rxRead [1, 2, 3]] ++ rxInterruptEnd

/-- A buffer is in use that `rx_enable` with another one takes away. -/
def losesBuffer (m : Machine) : Bool :=
  decide (¬ OwnsNone (m.data .adapter).rx) &&
    decide (((rxEnable m .adapter 200 8 50).1.data .adapter).rx.buf ≠ (m.data .adapter).rx.buf)

/-- **A refused `rx_enable` drops the buffer in use**: it is neither filled any
further nor released. -/
theorem refused_rxEnable_drops :
    ¬ ∀ m, Reachable step Init unguarded m →
      ∀ buf len timeout, RefusedUnchanged m buf len timeout := by
  intro unchanged
  have found : (exec step unguarded fresh receivingRun).any losesBuffer = true := by decide +kernel
  obtain ⟨m, run, loses⟩ := exists_reachable_of_exec init_fresh found
  obtain ⟨owned, changed⟩ := (Bool.and_eq_true _ _).mp loses
  have refused := (rxEnabled_busy_iff (m.data .adapter).rx 200 8 50).mpr (of_decide_eq_true owned)
  have kept := (unchanged m run ⟨200, by decide⟩ 8 50).rxEnable refused
  exact of_decide_eq_true changed (by rw [kept])

end NcsExp.UartAdapter
