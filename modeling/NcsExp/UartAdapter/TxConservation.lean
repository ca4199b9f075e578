/-
# NcsExp.UartAdapter.TxConservation -- the transmit side loses and invents nothing

`TxInv` ties `buf`, `currBuf` and `sizeLeft` to the ledger: the adapter's `tx` is
busy exactly while the ledger has a transmission, `currBuf` stands after the bytes
already pushed and `sizeLeft` counts the others.  `step_txInv` shows that every
step of every run keeps it, whatever the receive side does meanwhile.

* `tx_moments`: in every run, each transmission is accepted on an idle adapter,
  pushes its buffer's addresses in order, and ends in one terminal event that
  carries its buffer and the number of bytes pushed.
* `tx_conservation`: in the runs of the transmit side alone, memory is never
  written, so the bytes pushed are the first `len` bytes of the buffer.
-/
import NcsExp.UartAdapter.TxLedger
import Mathlib.Data.List.Induction

namespace NcsExp.UartAdapter

open NcsExp.Theory
open Machine

set_option autoImplicit false

/-! ## The invariant of the transmit side -/

/-- What the observations of the transmit side say, given what was observed before. -/
def TxMoment (past : List Obs) : Obs → Prop
  | .call (.tx _ len _) ret => len ≠ 0 → ret = 0 → (ledger past).active = none
  | .pushed src bytes =>
      ∃ t, (ledger past).active = some t ∧ src = t.buf + t.sent.length ∧
        t.sent.length + bytes.length ≤ t.len
  | .event .adapter (.txDone buf len) _ _ =>
      ∃ t, (ledger past).active = some t ∧ buf = t.buf ∧ len = t.sent.length ∧ len = t.len
  | .event .adapter (.txAborted buf len) _ _ =>
      ∃ t, (ledger past).active = some t ∧ buf = t.buf ∧ len = t.sent.length ∧ len ≤ t.len
  | _ => True

/-- The adapter's `tx` is that of the transmission `t`. -/
structure Carries (d : TxData) (t : Transmission) : Prop where
  buf : d.buf = t.buf
  nonNull : t.buf ≠ NULL
  currBuf : d.currBuf = t.buf + t.sent.length
  sizeLeft : t.sent.length + d.sizeLeft = t.len

structure TxInv (m : Machine) : Prop where
  callback : (m.data .adapter).userCallback = true
  idle : (ledger m.log).active = none →
    (m.data .adapter).tx.buf = NULL ∧ (m.data .adapter).tx.sizeLeft = 0
  busy : ∀ t, (ledger m.log).active = some t → Carries (m.data .adapter).tx t
  moments : Always TxMoment m.log

theorem init_txInv {m : Machine} (init : Init m) : TxInv m where
  callback := by simp [init.data, initData]
  idle := by simp [init.data, initData]
  busy := by simp [init.log, Ledger.empty]
  moments := by simp [init.log, always_nil]

theorem txMoment_of_txQuiet {o : Obs} (quiet : o.txQuiet) (past : List Obs) :
    TxMoment past o := by
  unfold Obs.txQuiet at quiet
  split at quiet <;> simp_all [TxMoment]

theorem ledger_of_txUnmoved {m m' : Machine} (unmoved : TxUnmoved m m') :
    ledger m'.log = ledger m.log := by
  obtain ⟨new, grown, quiet⟩ := unmoved.log
  rw [grown]
  exact present_append_of_quiet fun o member l => observe_of_txQuiet l (quiet o member)

theorem TxInv.of_txUnmoved {m m' : Machine} (inv : TxInv m) (unmoved : TxUnmoved m m') :
    TxInv m' where
  callback := by rw [unmoved.callback]; exact inv.callback
  idle := by rw [ledger_of_txUnmoved unmoved, unmoved.tx]; exact inv.idle
  busy := by rw [ledger_of_txUnmoved unmoved, unmoved.tx]; exact inv.busy
  moments := by
    obtain ⟨new, grown, quiet⟩ := unmoved.log
    rw [grown]
    exact inv.moments.append fun o member past => txMoment_of_txQuiet (quiet o member) past

/-- The adapter is idle exactly when the ledger has no transmission. -/
theorem TxInv.active_eq_none {m : Machine} (inv : TxInv m) :
    (ledger m.log).active = none ↔ (m.data .adapter).tx.buf = NULL := by
  constructor
  · exact fun none_ => (inv.idle none_).1
  · intro null
    cases active : (ledger m.log).active with
    | none => rfl
    | some t =>
        have carried := inv.busy t active
        exact absurd (carried.buf.symm.trans null) carried.nonNull

/-! ## The four moves keep it -/

/-- `tx` refuses without touching anything, or accepts. -/
theorem tx_cases (m : Machine) (buf len : Nat) (timeout : Int) :
    (tx m .adapter buf len timeout).1 = m ∧
        (len = 0 ∨ (tx m .adapter buf len timeout).2 = -EBUSY) ∨
      len ≠ 0 ∧ (m.data .adapter).tx.buf = NULL ∧ (tx m .adapter buf len timeout).2 = 0 := by
  unfold tx
  by_cases empty : len = 0
  · simp [empty]
  · by_cases busy : (m.data .adapter).tx.buf = NULL
    · simp [empty, busy]
    · simp [empty, busy]

theorem txInv_tx {m : Machine} (inv : TxInv m) (buf : Buffer) (len : Nat) (timeout : Int) :
    TxInv (apiCall m (.tx buf len timeout)) := by
  simp only [apiCall]
  rcases tx_cases m buf.addr len timeout with ⟨same, refused⟩ | ⟨some_, free, accepted⟩
  · -- Refused: the call is observed with a length of 0 or with `-EBUSY`.
    have ignored : ¬ (len ≠ 0 ∧ (tx m .adapter buf.addr len timeout).2 = 0) := by
      rintro ⟨some_, zero⟩
      rcases refused with empty | busy
      · exact some_ empty
      · rw [busy] at zero
        exact absurd zero (by decide)
    rw [same]
    refine ⟨inv.callback, ?_, ?_, ?_⟩
    · simpa [Ledger.observe, ignored] using inv.idle
    · simpa [Ledger.observe, ignored] using inv.busy
    · refine always_snoc.mpr ⟨inv.moments, fun some_ zero => ?_⟩
      exact absurd ⟨some_, zero⟩ ignored
  · have idle := inv.active_eq_none.mpr free
    have log : (tx m .adapter buf.addr len timeout).1.log = m.log := by
      simp [tx, some_, free]
    have callback : ((tx m .adapter buf.addr len timeout).1.data .adapter).userCallback = true := by
      simpa [tx, some_, free] using inv.callback
    refine ⟨callback, ?_, ?_, ?_⟩
    · simp [log, accepted, some_, Ledger.observe, Ledger.accept]
    · intro t active
      simp only [note_log, log, ledger_snoc, Ledger.observe, accepted, some_, ne_eq,
        not_false_eq_true, and_self, if_true, Ledger.accept, Option.some.injEq] at active
      subst active
      constructor <;> simp [tx, some_, free, buf.nonNull]
    · rw [note_log, log]
      exact always_snoc.mpr ⟨inv.moments, fun _ _ => idle⟩

theorem txInv_txAbort {m : Machine} (inv : TxInv m) {entry : Obs}
    (kept : ∀ l : Ledger, (l.observe entry).active = l.active)
    (moment : ∀ past, TxMoment past entry) : TxInv (txAbort m .adapter entry) := by
  have grown : Always TxMoment (m.log ++ [entry]) := always_snoc.mpr ⟨inv.moments, moment _⟩
  unfold txAbort
  dsimp only
  split
  · rename_i null
    have idle := inv.active_eq_none.mpr null
    refine ⟨by simpa using inv.callback, fun _ => ?_, fun t active => ?_, by simpa using grown⟩
    · simpa [null] using (inv.idle idle).2
    · simp [kept, idle] at active
  · rename_i busy
    have active := mt inv.active_eq_none.mp busy
    obtain ⟨t, active⟩ := Option.ne_none_iff_exists'.mp active
    have carried := inv.busy t active
    have offset : (m.data .adapter).tx.currBuf - (m.data .adapter).tx.buf = t.sent.length := by
      rw [carried.currBuf, carried.buf]
      omega
    unfold userCallback
    rw [if_pos (by simpa using inv.callback)]
    refine ⟨by simpa using inv.callback, fun _ => by simp, fun t active => ?_, ?_⟩
    · rw [push_log, note_log, ledger_snoc] at active
      simp [Ledger.observe] at active
    · refine always_snoc.mpr ⟨by simpa using grown, t, ?_, carried.buf, offset, ?_⟩
      · simpa [kept] using active
      · have := carried.sizeLeft
        omega

theorem txInv_onTxReady {m : Machine} (inv : TxInv m) {ret : Int}
    (more : (m.data .adapter).tx.sizeLeft ≠ 0) (fits : ret ≤ (m.data .adapter).tx.sizeLeft) :
    TxInv (onTxReady m ret) := by
  unfold onTxReady
  dsimp only
  split
  · exact inv
  · have busy : (ledger m.log).active ≠ none := fun none_ => more (inv.idle none_).2
    obtain ⟨t, active⟩ := Option.ne_none_iff_exists'.mp busy
    have carried := inv.busy t active
    have bound : ret.toNat ≤ (m.data .adapter).tx.sizeLeft := by omega
    have size := carried.sizeLeft
    refine ⟨by simpa using inv.callback, ?_, ?_, ?_⟩
    · simp [Ledger.observe, active]
    · intro t' active'
      simp only [setTx_log, note_log, ledger_snoc, Ledger.observe, active, Option.map_some,
        Option.some.injEq] at active'
      subst active'
      refine ⟨by simpa using carried.buf, carried.nonNull, ?_, ?_⟩
      · simp only [setTx_tx, List.length_append, Memory.length_load, carried.currBuf]
        omega
      · simp only [setTx_tx, List.length_append, Memory.length_load]
        omega
    · refine always_snoc.mpr ⟨inv.moments, t, active, carried.currBuf, ?_⟩
      simp only [Memory.length_load]
      omega

theorem txInv_onTxComplete {m : Machine} (inv : TxInv m) : TxInv (onTxComplete m) := by
  unfold onTxComplete
  dsimp only
  split
  · rename_i done
    split
    · rename_i busy
      have active := mt inv.active_eq_none.mp busy
      obtain ⟨t, active⟩ := Option.ne_none_iff_exists'.mp active
      have carried := inv.busy t active
      have size := carried.sizeLeft
      have offset : (m.data .adapter).tx.currBuf - (m.data .adapter).tx.buf = t.sent.length := by
        rw [carried.currBuf, carried.buf]
        omega
      unfold userCallback
      rw [if_pos (by simpa using inv.callback)]
      refine ⟨by simpa using inv.callback, fun _ => by simp, ?_, ?_⟩
      · simp [Ledger.observe]
      · refine always_snoc.mpr ⟨by simpa using inv.moments, t, ?_, carried.buf, offset, ?_⟩
        · simpa using active
        · omega
    · rename_i null
      have idle := inv.active_eq_none.mpr (not_not.mp null)
      refine ⟨by simpa using inv.callback, fun _ => ?_, ?_, by simpa using inv.moments⟩
      · simpa using inv.idle idle
      · simp [idle]
  · exact inv

theorem step_txInv {m m' : Machine} {a : Act} (inv : TxInv m) (taken : step m a = some m') :
    TxInv m' := by
  rcases step_tx taken with unmoved | moved
  · exact inv.of_txUnmoved unmoved
  · cases moved with
    | tx buf len timeout => exact txInv_tx inv buf len timeout
    | txAbort => exact txInv_txAbort inv (fun _ => rfl) fun _ => trivial
    | txTimeout => exact txInv_txAbort inv (fun _ => rfl) fun _ => trivial
    | @onTxReady rest ret more fits =>
        have popped : TxInv { m with stack := rest } := inv.of_txUnmoved (.of_same rfl rfl rfl rfl)
        exact txInv_onTxReady popped more fits
    | @onTxComplete rest flag =>
        have popped : TxInv { m with stack := rest } := inv.of_txUnmoved (.of_same rfl rfl rfl rfl)
        exact txInv_onTxComplete popped

theorem reachable_txInv {ok : Machine → Act → Bool} {m : Machine}
    (run : Reachable step Init ok m) : TxInv m := by
  apply run.invariant
  · intro s init
    exact init_txInv init
  · intro s a t inv _ taken
    exact step_txInv inv taken

/-- **The transmissions of every run**, receive activity included: one at a time,
addresses pushed in order, one terminal event with the transmission's own buffer. -/
theorem tx_moments {ok : Machine → Act → Bool} {m : Machine} (run : Reachable step Init ok m) :
    Always TxMoment m.log :=
  (reachable_txInv run).moments

/-! ## The runs of the transmit side -/

/-- The steps of the transmit side: `tx`, `tx_abort`, their timer, interrupts. -/
def txOnly (_ : Machine) : Act → Bool
  | .call (.tx _ _ _) => true
  | .call .txAbort => true
  | .uartIrqHandler => true
  | .txTimeout => true
  | .resume _ => true
  | _ => false

/-- The statements these runs leave to run. -/
def Frame.txSide : Frame → Prop
  | .userCallback .adapter _ => True
  | .onTxReady => True
  | .irqPending => True
  | .irqTxReady => True
  | .irqTxComplete => True
  | .irqRxReady => True
  | .irqError => True
  | _ => False

/-- The bytes pushed are those memory holds at the addresses they come from. -/
def TxBytes (mem : Memory UInt8) : Obs → Prop
  | .pushed src bytes => bytes = mem.load src bytes.length
  | _ => True

/-- A transmit move seen from outside: `rx` and memory stay, what it leaves to run
is `txSide`, and what it pushes is read from memory. -/
structure TxLocal (m m' : Machine) : Prop where
  rx : (m'.data .adapter).rx = (m.data .adapter).rx
  mem : m'.mem = m.mem
  frames : ∀ f ∈ m'.stack, f ∈ m.stack ∨ f.txSide
  log : ∃ new, m'.log = m.log ++ new ∧ ∀ o ∈ new, TxBytes m.mem o

theorem txLocal_refl (m : Machine) : TxLocal m m :=
  ⟨rfl, rfl, fun _ => Or.inl, [], by simp, by simp⟩

theorem TxLocal.trans {m₁ m₂ m₃ : Machine} (first : TxLocal m₁ m₂) (second : TxLocal m₂ m₃) :
    TxLocal m₁ m₃ := by
  obtain ⟨new, grown, read⟩ := first.log
  obtain ⟨new', grown', read'⟩ := second.log
  refine ⟨second.rx.trans first.rx, second.mem.trans first.mem, fun f member => ?_,
    new ++ new', by rw [grown', grown, List.append_assoc], fun o member => ?_⟩
  · rcases second.frames f member with before | side
    · exact first.frames f before
    · exact Or.inr side
  · rcases List.mem_append.mp member with old | fresh
    · exact read o old
    · have := read' o fresh
      rwa [first.mem] at this

theorem txLocal_note (m : Machine) (o : Obs) (read : TxBytes m.mem o) : TxLocal m (m.note o) :=
  ⟨rfl, rfl, fun _ => Or.inl, [o], rfl, by simpa using read⟩

theorem txLocal_setTx (m : Machine) (t : TxData) : TxLocal m (m.setTx .adapter t) :=
  ⟨by simp, rfl, fun _ => Or.inl, [], by simp, by simp⟩

theorem txLocal_setIrq (m : Machine) (dev : Dev) (f : IrqEnable → IrqEnable) :
    TxLocal m (m.setIrq dev f) :=
  ⟨rfl, rfl, fun _ => Or.inl, [], by simp, by simp⟩

theorem txLocal_push (m : Machine) {frames : List Frame} (side : ∀ f ∈ frames, f.txSide) :
    TxLocal m (m.push frames) := by
  refine ⟨rfl, rfl, fun f member => ?_, [], by simp, by simp⟩
  rcases List.mem_append.mp member with new | old
  · exact Or.inr (side f new)
  · exact Or.inl old

theorem txLocal_userCallback (m : Machine) (evt : UartEvent) :
    TxLocal m (userCallback m .adapter evt) := by
  unfold userCallback
  split
  · exact (txLocal_note m (.event .adapter evt _ _) trivial).trans
      (txLocal_push _ (by simp [Frame.txSide]))
  · exact txLocal_refl m

theorem txLocal_tx (m : Machine) (buf : Buffer) (len : Nat) (timeout : Int) :
    TxLocal m (apiCall m (.tx buf len timeout)) := by
  have done : TxLocal m (tx m .adapter buf.addr len timeout).1 := by
    unfold tx
    dsimp only
    split
    · exact txLocal_refl m
    · split
      · exact txLocal_refl m
      · dsimp only
        exact (txLocal_setTx m _).trans (txLocal_setIrq _ _ _)
  exact done.trans (txLocal_note _ (.call (.tx buf len timeout) _) trivial)

theorem txLocal_txAbort (m : Machine) {entry : Obs} (read : TxBytes m.mem entry) :
    TxLocal m (txAbort m .adapter entry) := by
  have noted := txLocal_note m entry read
  unfold txAbort
  dsimp only
  split
  · exact (noted.trans (txLocal_setIrq _ _ _)).trans (txLocal_setTx _ _)
  · exact ((noted.trans (txLocal_setIrq _ _ _)).trans (txLocal_setTx _ _)).trans
      (txLocal_userCallback _ _)

theorem txLocal_onTxReady (m : Machine) (ret : Int) : TxLocal m (onTxReady m ret) := by
  unfold onTxReady
  dsimp only
  split
  · exact txLocal_refl m
  · exact (txLocal_note m _ (by simp [TxBytes])).trans (txLocal_setTx _ _)

theorem txLocal_onTxComplete (m : Machine) : TxLocal m (onTxComplete m) := by
  have masked := txLocal_setIrq m (m.data .adapter).target fun i => { i with tx := false }
  unfold onTxComplete
  dsimp only
  split
  · split
    · exact (masked.trans (txLocal_setTx _ _)).trans (txLocal_userCallback _ _)
    · exact masked.trans (txLocal_setTx _ _)
  · exact txLocal_refl m

/-- Reception stays off, so nothing writes memory. -/
structure TxOnlyInv (m : Machine) : Prop where
  off : (m.data .adapter).rx.enabled = false
  frames : ∀ f ∈ m.stack, f.txSide
  bytes : Always (fun _ => TxBytes m.mem) m.log

theorem TxOnlyInv.of_txLocal {m m' : Machine} (inv : TxOnlyInv m) (moved : TxLocal m m') :
    TxOnlyInv m' where
  off := by rw [moved.rx]; exact inv.off
  frames := fun f member => (moved.frames f member).elim (inv.frames f) id
  bytes := by
    obtain ⟨new, grown, read⟩ := moved.log
    rw [grown, moved.mem]
    exact inv.bytes.append fun o member _ => read o member

theorem step_txLocal {m m' : Machine} {a : Act} (inv : TxOnlyInv m) (ok : txOnly m a = true)
    (taken : step m a = some m') : TxLocal m m' := by
  cases a with
  | call c =>
      simp only [step, Option.ite_none_right_eq_some, Option.some.injEq] at taken
      obtain ⟨-, rfl⟩ := taken
      cases c with
      | tx buf len timeout => exact txLocal_tx m buf len timeout
      | txAbort => exact txLocal_txAbort m trivial
      | rxEnable | rxBufRsp | rxDisable => cases ok
  | uartIrqHandler =>
      simp only [step, Option.ite_none_right_eq_some, Option.some.injEq] at taken
      obtain ⟨-, rfl⟩ := taken
      exact txLocal_push m (by simp [Frame.txSide])
  | txTimeout =>
      simp only [step, Option.ite_none_right_eq_some, Option.some.injEq] at taken
      obtain ⟨-, rfl⟩ := taken
      exact txLocal_txAbort m trivial
  | rxTimeout => cases ok
  | resume answer =>
      cases hstack : m.stack with
      | nil => simp [step, hstack] at taken
      | cons frame rest =>
          have side : frame.txSide := inv.frames frame (by simp [hstack])
          have popped : TxLocal m { m with stack := rest } :=
            ⟨rfl, rfl, fun f member => Or.inl (by rw [hstack]; exact List.mem_cons_of_mem _ member),
              [], by simp, by simp⟩
          simp only [step, hstack] at taken
          cases frame <;> cases answer <;> simp only [resume, reduceCtorEq] at taken
          case userCallback.go => cases taken; exact popped
          case onTxReady.fifoFill =>
              split at taken
              · cases taken; exact popped
              · simp only [Option.ite_none_right_eq_some, Option.some.injEq] at taken
                obtain ⟨-, rfl⟩ := taken
                exact popped.trans (txLocal_onTxReady _ _)
          case irqPending.status | irqTxReady.status =>
              cases taken
              split
              · exact popped.trans (txLocal_push _ (by simp [Frame.txSide]))
              · exact popped
          case irqTxComplete.status =>
              cases taken
              split
              · exact popped.trans (txLocal_onTxComplete _)
              · exact popped
          -- Reception is off, so neither the receive nor the error branch is taken.
          case irqRxReady.status | irqError.errCheck =>
              simp only [inv.off, Bool.false_and, Bool.false_eq_true, if_false,
                Option.some.injEq] at taken
              cases taken
              exact popped
          all_goals exact side.elim

theorem init_txOnlyInv {m : Machine} (init : Init m) : TxOnlyInv m where
  off := by simp [init.data, initData]
  frames := by simp [init.stack]
  bytes := by simp [init.log, always_nil]

theorem reachable_txOnlyInv {m : Machine} (run : Reachable step Init txOnly m) : TxOnlyInv m := by
  apply run.invariant
  · intro s init
    exact init_txOnlyInv init
  · intro s a t inv ok taken
    exact inv.of_txLocal (step_txLocal inv ok taken)

/-! ## Conservation -/

/-- When addresses are pushed in order and bytes are read from memory, the bytes
sent are those of the front of the buffer. -/
theorem sent_eq_load {mem : Memory UInt8} {log : List Obs} (moments : Always TxMoment log)
    (bytes : Always (fun _ => TxBytes mem) log) {t : Transmission}
    (active : (ledger log).active = some t) : t.sent = mem.load t.buf t.sent.length := by
  induction log using List.reverseRecOn generalizing t with
  | nil => simp [Ledger.empty] at active
  | append_singleton log o ih =>
      obtain ⟨before, moment⟩ := always_snoc.mp moments
      obtain ⟨beforeBytes, read⟩ := always_snoc.mp bytes
      have ih := @ih before beforeBytes
      rw [ledger_snoc] at active
      by_cases quiet : o.txQuiet
      · rw [observe_of_txQuiet _ quiet] at active
        exact ih active
      · unfold Obs.txQuiet at quiet
        split at quiet
        case h_1 buf len timeout ret =>
          simp only [Ledger.observe] at active
          split at active
          · cases active
            rfl
          · exact ih active
        case h_4 src new =>
          obtain ⟨t₀, sending, same, -⟩ := moment
          simp only [Ledger.observe, sending, Option.map_some, Option.some.injEq] at active
          subst active
          have front := ih sending
          have back : new = mem.load src new.length := read
          rw [List.length_append, Memory.load_add, ← front, ← same, ← back]
        case h_2 | h_3 => exact ih active
        case h_5 | h_6 => simp [Ledger.observe] at active
        case h_7 => exact absurd trivial quiet

/-- What an observation of the transmit side says when the buffers hold `mem`. -/
def TxConserved (mem : Memory UInt8) (past : List Obs) : Obs → Prop
  | .call (.tx _ len _) ret => len ≠ 0 → ret = 0 → (ledger past).active = none
  | .pushed _ _ => (ledger past).active ≠ none
  | .event .adapter (.txDone buf len) _ _ =>
      ∃ t, (ledger past).active = some t ∧ buf = t.buf ∧ len = t.len ∧ t.sent = mem.load buf len
  | .event .adapter (.txAborted buf len) _ _ =>
      ∃ t, (ledger past).active = some t ∧ buf = t.buf ∧ len ≤ t.len ∧ t.sent = mem.load buf len
  | _ => True

theorem always_txConserved {mem : Memory UInt8} {log : List Obs} (moments : Always TxMoment log)
    (bytes : Always (fun _ => TxBytes mem) log) : Always (TxConserved mem) log := by
  intro past now future split
  have moment := moments past now future split
  have sent : ∀ t, (ledger past).active = some t → t.sent = mem.load t.buf t.sent.length :=
    fun _ => sent_eq_load (moments.before split) (bytes.before split)
  unfold TxConserved
  split
  · exact moment
  · obtain ⟨t, active, -⟩ := moment
    simp [active]
  · obtain ⟨t, active, buf, offset, full⟩ := moment
    exact ⟨t, active, buf, full, by rw [buf, offset]; exact sent t active⟩
  · obtain ⟨t, active, buf, offset, short⟩ := moment
    exact ⟨t, active, buf, short, by rw [buf, offset]; exact sent t active⟩
  · trivial

/-- **Conservation of the transmit side.**  Every terminal event closes the one
transmission in progress and carries its buffer; the bytes pushed since it was
accepted are the first `len` bytes of that buffer, all of them for `UART_TX_DONE`;
no other transmission is accepted meanwhile.  A refused or empty `tx` changes
nothing. -/
theorem tx_conservation {m : Machine} (run : Reachable step Init txOnly m) :
    Always (TxConserved m.mem) m.log ∧
      ∀ (buf : Buffer) (len : Nat) (timeout : Int),
        len = 0 ∨ (tx m .adapter buf.addr len timeout).2 = -EBUSY →
          (tx m .adapter buf.addr len timeout).1 = m := by
  refine ⟨always_txConserved (tx_moments run) (reachable_txOnlyInv run).bytes, ?_⟩
  intro buf len timeout refused
  rcases tx_cases m buf.addr len timeout with ⟨same, -⟩ | ⟨some_, -, accepted⟩
  · exact same
  · rcases refused with empty | busy
    · exact absurd empty some_
    · rw [accepted] at busy
      exact absurd busy (by decide)

/-! ## A run: two partial fills, the completion, and a transmission cut short -/

/-- An adapter right after its initialisation; the byte at address `a` is `a`. -/
def fresh : Machine where
  data := fun _ => initData
  irq := fun _ => ⟨false, false, false⟩
  mem := fun a => UInt8.ofNat a
  stack := []
  log := []

theorem init_fresh : Init fresh := ⟨rfl, rfl, rfl⟩

/-- One interrupt in which only the transmit side is served. -/
def txInterrupt (fill : Int) (complete : Bool) : List Act :=
  [.uartIrqHandler, .resume (.status true), .resume (.status true), .resume (.fifoFill fill),
    .resume (.status complete)]

/-- The receive and error branches of an interrupt with nothing to do. -/
def rxNothing : List Act := [.resume (.status false), .resume (.errCheck 0)]

/-- Five bytes go out in two fills; from inside `UART_TX_DONE` the application
starts three more and aborts after the first. -/
def txRun : List Act :=
  [.call (.tx 100 5 SYS_FOREVER_MS)] ++ txInterrupt 3 false ++ rxNothing ++
    txInterrupt 2 true ++ [.call (.tx 200 3 50), .resume .go] ++ rxNothing ++
    txInterrupt 1 false ++ rxNothing ++ [.call .txAbort, .resume .go]

theorem tx_conservation_txRun :
    ∃ m, exec step txOnly fresh txRun = some m ∧ Always (TxConserved m.mem) m.log ∧
      (tx m .adapter 100 0 50).1 = m := by
  have possible : (exec step txOnly fresh txRun).isSome := by decide +kernel
  obtain ⟨m, taken⟩ := Option.isSome_iff_exists.mp possible
  obtain ⟨conserved, refused⟩ := tx_conservation (reachable_of_exec init_fresh taken)
  exact ⟨m, taken, conserved, refused ⟨100, by decide⟩ 0 50 (Or.inl rfl)⟩

end NcsExp.UartAdapter
