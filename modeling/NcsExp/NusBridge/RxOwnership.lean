/-
# NcsExp.NusBridge.RxOwnership -- who owns a receive buffer

`RxInv` adds to the books where the driver stands; each event of the driver has one
lemma.  `buffers_owned` is about the runs in which nothing is reported, and no error
comes, when the receiver stops; `late_rdy_breaks` says that a report breaks it at once.
-/
import NcsExp.NusBridge.RxBooks

namespace NcsExp.NusBridge

open NcsExp.Theory
open NcsExp.UartAdapter (NULL UartEvent)

set_option autoImplicit false

/-! ## Where the driver stands -/

/-- The active buffer, while it has room and the receiver is on. -/
def Driver.filling (c : Config) (d : Driver) : Option Buf :=
  if d.phase = .on ∧ d.filled < c.uartBufSize then d.active else none

/-- The buffers the driver has that have not been put in the FIFO. -/
def Driver.mine (c : Config) (d : Driver) (b : Buf) : Prop := d.filling c = some b ∨ d.next = some b

/-- The flags of `uart_cb` against the phase: the receiver stops with `buf_release` set
and a put buffer in `current_buf`, or with nothing but a full buffer. -/
def Flags (c : Config) (app : App) (d : Driver) : Prop :=
  match d.phase with
  | .off => d.active = none ∧ d.next = none
  | .on => d.active.isSome ∧ d.filled ≤ c.uartBufSize ∧ app.uartWork = false ∧
      (d.filled = c.uartBufSize → app.bufRelease = false)
  | .stopping _ => app.uartWork = false ∧
      (∀ b, d.active = some b → app.bufRelease = true → app.currentBuf = b) ∧
      ∀ b, d.next = some b → app.bufRelease = true ∧ app.currentBuf ≠ b

/-- The bytes in the buffer being filled. -/
def Machine.unput (c : Config) (m : Machine) : List UInt8 :=
  match m.drv.filling c with
  | some buf => m.mem.load buf m.drv.filled
  | none => []

structure RxInv (c : Config) (m : Machine) : Prop where
  books : Books c m.app m.mem m.ble (m.drv.mine c)
  lenFilling : ∀ b, m.drv.filling c = some b → m.app.len b = m.drv.filled
  lenNext : ∀ b, m.drv.next = some b → m.app.len b = 0
  other : ∀ b, m.drv.filling c = some b → m.drv.next ≠ some b
  flags : Flags c m.app m.drv
  stream : m.received = (puts m.app.log).flatMap (·.2) ++ m.unput c

theorem Driver.filling_on {c : Config} {d : Driver} (on : d.phase = .on)
    (room : d.filled < c.uartBufSize) : d.filling c = d.active := by
  simp [filling, on, room]

theorem Driver.filling_full {c : Config} {d : Driver} (full : d.filled = c.uartBufSize) :
    d.filling c = none := by
  simp [filling, full]

theorem Driver.filling_not_on {c : Config} {d : Driver} (notOn : d.phase ≠ .on) :
    d.filling c = none := by
  simp [filling, notOn]

theorem init_rxInv {c : Config} {m : Machine} (init : Init m) : RxInv c m := by
  obtain ⟨rx, mem, nonNull, rfl⟩ := init
  have empty : Books c App.zero mem .fifoGet (fun _ => False) := by
    refine ⟨always_nil, ?_, ?_, ?_, ?_, ?_, ?_, ?_, ?_, rfl⟩ <;> simp [App.zero, BlePc.holds]
  have fresh : Fresh c App.zero rx := ⟨nonNull, by simp [App.zero]⟩
  have pos := c.pos
  refine ⟨(empty.malloc fresh).congr fun b => ?_, ?_, ?_, ?_, ?_, ?_⟩
  · simp [Driver.mine, Driver.filling, pos, eq_comm]
  · simp [Driver.filling, pos, App.kMalloc, App.setLen, App.note]
  · simp
  · simp
  · refine ⟨rfl, Nat.zero_le _, rfl, fun _ => rfl⟩
  · simp [Machine.unput, Driver.filling, pos, App.kMalloc, App.setLen, App.note, App.zero, puts]

/-- The invariant of a machine that fills no buffer. -/
theorem RxInv.of_idle {c : Config} {m : Machine} (idle : m.drv.filling c = none)
    (books : Books c m.app m.mem m.ble (fun b => m.drv.next = some b))
    (lenNext : ∀ b, m.drv.next = some b → m.app.len b = 0) (flags : Flags c m.app m.drv)
    (stream : m.received = (puts m.app.log).flatMap (·.2)) : RxInv c m := by
  refine ⟨books.congr fun b => ?_, ?_, lenNext, ?_, flags, ?_⟩
  · simp [Driver.mine, idle]
  · simp [idle]
  · simp [idle]
  · unfold Machine.unput
    rw [idle, List.append_nil]
    exact stream

section Idle

variable {c : Config} {m : Machine} (inv : RxInv c m) (idle : m.drv.filling c = none)

include inv idle

theorem RxInv.idle_books : Books c m.app m.mem m.ble (fun b => m.drv.next = some b) :=
  inv.books.congr fun b => by simp [Driver.mine, idle]

theorem RxInv.idle_stream : m.received = (puts m.app.log).flatMap (·.2) := by
  have stream := inv.stream
  unfold Machine.unput at stream
  rwa [idle, List.append_nil] at stream

end Idle

/-! ### What the invariant says -/

theorem Driver.active_of_filling {c : Config} {d : Driver} {b : Buf}
    (filling : d.filling c = some b) :
    d.phase = .on ∧ d.filled < c.uartBufSize ∧ d.active = some b := by
  simp only [Driver.filling, Option.ite_none_right_eq_some] at filling
  exact ⟨filling.1.1, filling.1.2, filling.2⟩

/-- A receiver that is not on has put its active buffer. -/
theorem RxInv.not_held {c : Config} {m : Machine} {buf : Buf} (inv : RxInv c m)
    (notOn : m.drv.phase ≠ .on) (active : m.drv.active = some buf) :
    life m.app.log buf ≠ .held := by
  have flags := inv.flags
  rw [Ne, inv.books.held, Driver.mine, Driver.filling_not_on notOn]
  rintro (impossible | next)
  · cases impossible
  unfold Flags at flags
  split at flags
  · cases flags.1.symm.trans active
  · exact absurd ‹_› notOn
  · obtain ⟨release, current⟩ := flags.2.2 buf next
    exact current (flags.2.1 buf active release)

/-- A buffer the driver holds unput is the one it fills, or the next one. -/
theorem RxInv.pending_eq {c : Config} {m : Machine} (inv : RxInv c m) :
    m.pending c = m.unput c := by
  unfold Machine.pending Machine.unput
  cases active : m.drv.active with
  | none => simp [Driver.filling, active]
  | some buf =>
      dsimp only
      by_cases room : m.drv.filled < c.uartBufSize
      · by_cases on : m.drv.phase = .on
        · have filling := (Driver.filling_on on room).trans active
          have held := (inv.books.held buf).mpr (Or.inl filling)
          rw [filling, if_pos ⟨room, held⟩]
        · have notHeld := inv.not_held on active
          rw [Driver.filling_not_on on, if_neg fun both => notHeld both.2]
      · have notRoom : ¬ (m.drv.phase = .on ∧ m.drv.filled < c.uartBufSize) :=
          fun both => room both.2
        simp [room, Driver.filling]

theorem RxInv.toOwned {c : Config} {m : Machine} (inv : RxInv c m) : Owned c m := by
  refine ⟨inv.books.once, fun b live => ?_, inv.books.unmodified, ?_⟩
  · cases stage : life m.app.log b with
    | free => exact absurd stage live
    | queued => exact Or.inr ((inv.books.queued b).mp stage)
    | held =>
        left
        rcases (inv.books.held b).mp stage with filling | next
        · simp [Driver.owned, (Driver.active_of_filling filling).2.2]
        · simp [Driver.owned, next]
  · rw [inv.pending_eq]
    exact inv.stream

/-! ### The events of the driver -/

/-- A report that ends with the buffer in the FIFO. -/
theorem put_inv {c : Config} {m : Machine} {buf : Buf} {bytes : List UInt8} {app : App}
    {mem : Memory UInt8} {d : Driver} (inv : RxInv c m) (filling : m.drv.filling c = some buf)
    (books : Books c app mem m.ble (m.drv.mine c)) (len : ∀ b, b ≠ buf → app.len b = m.app.len b)
    (log : app.log = m.app.log)
    (content : app.content mem buf = m.mem.load buf m.drv.filled ++ bytes)
    {app' : App} (log' : app'.log = (app.rxPut mem buf).log) (heap' : app'.heap = app.heap)
    (len' : app'.len = app.len) (fifo' : app'.fifoUartRxData = app.fifoUartRxData ++ [buf])
    (idle : d.filling c = none) (next : d.next = m.drv.next) (flags : Flags c app' d) :
    RxInv c
      { app := app', mem := mem, drv := d, ble := m.ble, received := m.received ++ bytes } := by
  have put := (books.put (Or.inl filling)).of_same log' heap' len' fifo'
  have notNext := inv.other buf filling
  refine RxInv.of_idle idle (put.congr fun b => ?_) ?_ flags ?_
  · show _ ↔ d.next = some b
    rw [Driver.mine, next, filling]
    constructor
    · rintro ⟨own | own, notBuf⟩
      · exact absurd (Option.some.inj own).symm notBuf
      · exact own
    · intro own
      refine ⟨Or.inr own, ?_⟩
      rintro rfl
      exact notNext own
  · intro b isNext
    rw [next] at isNext
    show app'.len b = 0
    rw [len', len b, inv.lenNext b isNext]
    rintro rfl
    exact notNext isNext
  · have stream := inv.stream
    unfold Machine.unput at stream
    rw [filling] at stream
    show m.received ++ bytes = (puts app'.log).flatMap (·.2)
    rw [stream, log']
    show _ = (puts (app.log ++ [Entry.rxPut buf (app.content mem buf)])).flatMap (·.2)
    rw [puts_snoc, log, content]
    simp [puts]

/-- `buf->len` and `buf_release` after a report. -/
def App.reported (app : App) (buf len : Nat) : App :=
  { app.setLen buf ((app.len buf + len) % 2 ^ 16) with bufRelease := false }

/-- What a report does: the buffer is full, or ends with a terminator, or goes on. -/
theorem rxRdy_cases (c : Config) (mem : Memory UInt8) (app : App) (buf len : Nat) :
    (((app.reported buf len).len buf = c.uartBufSize ∧
        rxRdy c mem app buf len = ((app.reported buf len).rxPut mem buf, [])) ∨
      rxRdy c mem app buf len = ({ (app.reported buf len).rxPut mem buf with
        currentBuf := buf, bufRelease := true }, [.rxDisable])) ∨
    ((app.reported buf len).len buf ≠ c.uartBufSize ∧
      rxRdy c mem app buf len = (app.reported buf len, [])) := by
  show (_ ∧ (if _ then _ else _) = _ ∨ (if _ then _ else _) = _) ∨ _ ∧ (if _ then _ else _) = _
  split
  · rename_i full
    exact Or.inl (Or.inl ⟨full, rfl⟩)
  · rename_i notFull
    split
    · exact Or.inl (Or.inr rfl)
    · exact Or.inr ⟨notFull, rfl⟩

theorem callback_rxRdy (c : Config) (alloc : Option Buf) (m : Machine) (buf len offset : Nat) :
    callback c alloc m (.rxRdy buf len offset) =
      { m with
        app := (rxRdy c m.mem m.app buf len).1
        drv := (rxRdy c m.mem m.app buf len).2.foldl Driver.call m.drv } :=
  rfl

/-- A report of the active buffer, before `uart_cb` looks at what it holds. -/
structure Reported (c : Config) (m : Machine) (buf : Buf) (bytes : List UInt8) : Prop where
  active : m.drv.active = some buf
  filling : m.drv.filling c = some buf
  fits : m.drv.filled + bytes.length ≤ c.uartBufSize
  noWork : m.app.uartWork = false
  stillOn : (m.drv.fill bytes.length).phase = .on
  len : (m.app.reported buf bytes.length).len buf = m.drv.filled + bytes.length
  books : Books c (m.app.reported buf bytes.length) (m.mem.store (buf + m.drv.filled) bytes) m.ble
    (m.drv.mine c)

/-- The machine when the callback of a report is done. -/
def Machine.afterReport (m : Machine) (buf : Buf) (bytes : List UInt8)
    (done : App × List UartCall) : Machine where
  app := done.1
  mem := m.mem.store (buf + m.drv.filled) bytes
  drv := done.2.foldl Driver.call (m.drv.fill bytes.length)
  ble := m.ble
  received := m.received ++ bytes

theorem reported_of_step {c : Config} {m t : Machine} {bytes : List UInt8} (inv : RxInv c m)
    (met : undisturbed c m (.rxRdy bytes) = true) (taken : step c m (.rxRdy bytes) = some t) :
    ∃ buf, Reported c m buf bytes ∧ t = m.afterReport buf bytes
      (rxRdy c (m.mem.store (buf + m.drv.filled) bytes) m.app buf bytes.length) := by
  have on : m.drv.phase = .on := by simpa [undisturbed] using met
  simp only [step] at taken
  split at taken
  · rename_i buf active
    simp only [Option.ite_none_right_eq_some, Option.some.injEq, callback_rxRdy] at taken
    obtain ⟨⟨_, nonempty, fits⟩, rfl⟩ := taken
    have more := List.length_pos_iff.mpr nonempty
    have filling := (Driver.filling_on (c := c) on (by omega)).trans active
    have flags := inv.flags
    rw [Flags, on] at flags
    have small : (m.app.len buf + bytes.length) % 2 ^ 16 = m.drv.filled + bytes.length := by
      have limit := c.fits
      rw [inv.lenFilling buf filling]
      exact Nat.mod_eq_of_lt (by omega)
    refine ⟨buf, ⟨active, filling, fits, flags.2.2.1, if_pos on, (if_pos rfl).trans small, ?_⟩, rfl⟩
    have written := inv.books.write (Or.inl filling) fits fits
    rw [← small] at written
    exact written.of_same rfl rfl rfl rfl
  · cases taken

namespace Reported

variable {c : Config} {m : Machine} {buf : Buf} {bytes : List UInt8}

theorem content (reported : Reported c m buf bytes) :
    (m.app.reported buf bytes.length).content (m.mem.store (buf + m.drv.filled) bytes) buf =
      m.mem.load buf m.drv.filled ++ bytes := by
  rw [App.content, reported.len]
  exact Memory.load_store_append ..

theorem lens {b : Buf} (other : b ≠ buf) :
    (m.app.reported buf bytes.length).len b = m.app.len b :=
  if_neg other

/-- The receiver stays on. -/
theorem flags (reported : Reported c m buf bytes) {app : App} (uartWork : app.uartWork = false)
    (bufRelease : app.bufRelease = false) : Flags c app (m.drv.fill bytes.length) := by
  rw [Flags, reported.stillOn]
  refine ⟨?_, reported.fits, uartWork, fun _ => bufRelease⟩
  show m.drv.active.isSome
  rw [reported.active]
  rfl

/-- A full buffer is put; the receiver goes on. -/
theorem full_inv (reported : Reported c m buf bytes) (inv : RxInv c m)
    (full : m.drv.filled + bytes.length = c.uartBufSize) :
    RxInv c (m.afterReport buf bytes ((m.app.reported buf bytes.length).rxPut
      (m.mem.store (buf + m.drv.filled) bytes) buf, [])) := by
  refine put_inv inv reported.filling reported.books (fun b => lens) rfl reported.content
    rfl rfl rfl rfl ?_ rfl ?_
  · exact Driver.filling_full full
  · exact reported.flags reported.noWork rfl

/-- A buffer that ends with a terminator is put, and the receiver is told to stop. -/
theorem line_inv (reported : Reported c m buf bytes) (inv : RxInv c m) :
    RxInv c (m.afterReport buf bytes ({ (m.app.reported buf bytes.length).rxPut
        (m.mem.store (buf + m.drv.filled) bytes) buf with
      currentBuf := buf, bufRelease := true }, [.rxDisable])) := by
  have stops : [UartCall.rxDisable].foldl Driver.call (m.drv.fill bytes.length) =
      { m.drv.fill bytes.length with phase := .stopping true } := if_pos reported.stillOn
  unfold Machine.afterReport
  dsimp only
  rw [stops]
  refine put_inv inv reported.filling reported.books (fun b => lens) rfl reported.content
    ?_ ?_ ?_ ?_ ?_ rfl ?_
  · rfl
  · rfl
  · rfl
  · rfl
  · exact Driver.filling_not_on (by simp)
  · refine ⟨reported.noWork, fun b isActive _ => ?_, fun b isNext => ⟨rfl, ?_⟩⟩
    · exact Option.some.inj (reported.active.symm.trans isActive)
    · rintro rfl
      exact inv.other _ reported.filling isNext

/-- Anything else stays in the active buffer. -/
theorem rest_inv (reported : Reported c m buf bytes) (inv : RxInv c m)
    (notFull : m.drv.filled + bytes.length ≠ c.uartBufSize) :
    RxInv c (m.afterReport buf bytes (m.app.reported buf bytes.length, [])) := by
  have filling := reported.filling
  have fills : (m.drv.fill bytes.length).filling c = some buf := by
    rw [Driver.filling_on reported.stillOn (Nat.lt_of_le_of_ne reported.fits notFull)]
    exact reported.active
  refine ⟨reported.books.congr fun b => ?_, ?_, ?_, ?_, ?_, ?_⟩
  · show _ ↔ (m.drv.fill bytes.length).filling c = some b ∨ m.drv.next = some b
    rw [fills, Driver.mine, filling]
  · intro b isFilling
    cases fills.symm.trans isFilling
    exact reported.len
  · intro b isNext
    have other : b ≠ buf := by
      rintro rfl
      exact inv.other b filling isNext
    exact (lens other).trans (inv.lenNext b isNext)
  · intro b isFilling
    cases fills.symm.trans isFilling
    exact inv.other buf filling
  · exact reported.flags reported.noWork rfl
  · have stream := inv.stream
    unfold Machine.unput at stream ⊢
    rw [filling] at stream
    show m.received ++ bytes = (puts m.app.log).flatMap (·.2) ++
      (match (m.drv.fill bytes.length).filling c with
        | some b => (m.mem.store (buf + m.drv.filled) bytes).load b (m.drv.filled + bytes.length)
        | none => [])
    rw [fills, stream]
    dsimp only
    rw [Memory.load_store_append, List.append_assoc]

end Reported

theorem rxRdy_inv {c : Config} {m t : Machine} {bytes : List UInt8} (inv : RxInv c m)
    (met : undisturbed c m (.rxRdy bytes) = true) (taken : step c m (.rxRdy bytes) = some t) :
    RxInv c t := by
  obtain ⟨buf, reported, rfl⟩ := reported_of_step inv met taken
  have len := reported.len
  rcases rxRdy_cases c (m.mem.store (buf + m.drv.filled) bytes) m.app buf bytes.length with
    (⟨full, done⟩ | done) | ⟨notFull, done⟩
  · rw [done]
    exact reported.full_inv inv (len.symm.trans full)
  · rw [done]
    exact reported.line_inv inv
  · rw [done]
    exact reported.rest_inv inv fun full => notFull (len.trans full)

/-- A request changes nothing, or the new buffer becomes the next one. -/
theorem rxBufRequest_cases {c : Config} {m t : Machine} {alloc : Option Buf}
    (taken : step c m (.rxBufRequest alloc) = some t) :
    t = m ∨ ∃ buf, m.drv.phase = .on ∧ m.drv.next = none ∧ Fresh c m.app buf ∧
      t = { m with app := m.app.kMalloc buf, drv := { m.drv with next := some buf } } := by
  simp only [step, Option.ite_none_right_eq_some, Option.some.injEq] at taken
  obtain ⟨⟨on, noNext, fresh⟩, rfl⟩ := taken
  cases alloc with
  | none => exact Or.inl rfl
  | some buf =>
      refine Or.inr ⟨buf, on, noNext, fresh buf rfl, ?_⟩
      show { m with app := _, drv := m.drv.call (.rxBufRsp buf c.uartBufSize) } = _
      rw [Driver.call, if_pos ⟨on, noNext⟩]
      rfl

theorem rxBufRequest_inv {c : Config} {m t : Machine} {alloc : Option Buf} (inv : RxInv c m)
    (taken : step c m (.rxBufRequest alloc) = some t) : RxInv c t := by
  rcases rxBufRequest_cases taken with rfl | ⟨buf, on, noNext, fresh, rfl⟩
  · exact inv
  have flags := inv.flags
  rw [Flags, on] at flags
  have notMine : ¬ m.drv.mine c buf := by
    rw [← inv.books.held, inv.books.fresh_free fresh]
    simp
  refine ⟨(inv.books.malloc fresh).congr fun b => ?_, ?_, ?_, ?_, ?_, ?_⟩
  · show b = buf ∨ m.drv.filling c = some b ∨ m.drv.next = some b ↔
      m.drv.filling c = some b ∨ some buf = some b
    rw [noNext, Option.some.injEq, eq_comm (a := buf)]
    simp [or_comm]
  · intro b filling
    have other : b ≠ buf := by
      rintro rfl
      exact notMine (Or.inl filling)
    exact (if_neg other).trans (inv.lenFilling b filling)
  · intro b next
    exact if_pos (Option.some.inj next).symm
  · intro b filling next
    cases Option.some.inj next
    exact notMine (Or.inl filling)
  · show Flags c (m.app.kMalloc buf) { m.drv with next := some buf }
    rw [Flags]
    dsimp only
    rw [on]
    exact flags
  · have same : puts (m.app.kMalloc buf).log = puts m.app.log := puts_kept rfl
    show m.received = (puts (m.app.kMalloc buf).log).flatMap (·.2) ++ _
    rw [same]
    exact inv.stream

theorem callback_rxBufReleased (c : Config) (alloc : Option Buf) (m : Machine) (buf : Buf) :
    callback c alloc m (.rxBufReleased buf) = { m with app := rxBufReleased m.app buf } :=
  rfl

/-- The full buffer has been put, and the flags leave it alone. -/
theorem switch_done {c : Config} {m t : Machine} (inv : RxInv c m)
    (taken : step c m .switch = some t) :
    m.drv.phase = .on ∧ m.drv.filled = c.uartBufSize ∧ t = { m with drv := m.drv.switched } := by
  simp only [step] at taken
  split at taken
  · rename_i buf active
    simp only [Option.ite_none_right_eq_some, Option.some.injEq, callback_rxBufReleased] at taken
    obtain ⟨⟨on, full⟩, rfl⟩ := taken
    have flags := inv.flags
    rw [Flags, on] at flags
    have kept : rxBufReleased m.app buf = m.app := by
      rw [rxBufReleased, if_neg]
      simp [flags.2.2.2 full]
    rw [kept]
    exact ⟨on, full, rfl⟩
  · cases taken

theorem switch_inv {c : Config} {m t : Machine} (inv : RxInv c m)
    (taken : step c m .switch = some t) : RxInv c t := by
  obtain ⟨on, full, rfl⟩ := switch_done inv taken
  have flags := inv.flags
  rw [Flags, on] at flags
  obtain ⟨_, _, noWork, noRelease⟩ := flags
  have wasIdle := Driver.filling_full (c := c) full
  have stream := inv.idle_stream wasIdle
  have pos := c.pos
  cases next : m.drv.next with
  | none =>
      have drv : m.drv.switched =
          { phase := .stopping false, active := none, filled := 0, next := none } := by
        simp [Driver.switched, next]
      rw [drv]
      refine RxInv.of_idle (Driver.filling_not_on (by simp))
        ((inv.idle_books wasIdle).congr fun b => by simp [next]) (by simp) ?_ stream
      exact ⟨noWork, by simp, by simp⟩
  | some buf =>
      have drv : m.drv.switched =
          { phase := .on, active := some buf, filled := 0, next := none } := by
        simp [Driver.switched, next]
      rw [drv]
      refine ⟨(inv.idle_books wasIdle).congr fun b => ?_, ?_, ?_, ?_, ?_, ?_⟩
      · simp [next, Driver.mine, Driver.filling, pos]
      · intro b filling
        have same : some buf = some b := by simpa [Driver.filling, pos] using filling
        exact inv.lenNext b (next.trans same)
      · simp
      · simp
      · exact ⟨rfl, Nat.zero_le _, noWork, fun empty => absurd empty (Nat.ne_of_lt pos)⟩
      · simpa [Machine.unput, Driver.filling, pos] using stream

/-- What `UART_RX_BUF_RELEASED` frees. -/
def App.released (app : App) (buf : Buf) : App :=
  { app.kFree buf with bufRelease := false, currentBuf := NULL }

/-- A stopping receiver gives a buffer back: the active one has been put, the next one is
freed. -/
theorem rxBufReleased_cases {c : Config} {m t : Machine} {buf : Buf} (inv : RxInv c m)
    (taken : step c m (.rxBufReleased buf) = some t) :
    m.drv.stopping = true ∧
    (m.drv.active = some buf ∧
        t = { m with drv := { m.drv with phase := .stopping false, active := none } } ∨
      m.drv.active ≠ some buf ∧ m.drv.next = some buf ∧
        t = { m with
          app := m.app.released buf
          drv := { m.drv with phase := .stopping false, next := none } }) := by
  simp only [step, Option.ite_none_right_eq_some, Option.some.injEq, callback_rxBufReleased]
    at taken
  obtain ⟨⟨stopping, member⟩, rfl⟩ := taken
  refine ⟨stopping, ?_⟩
  have flags := inv.flags
  unfold Driver.stopping at stopping
  split at stopping
  · rename_i late phase
    rw [Flags, phase] at flags
    obtain ⟨_, current, nextFlags⟩ := flags
    by_cases active : m.drv.active = some buf
    · have kept : rxBufReleased m.app buf = m.app := by
        rw [rxBufReleased, if_neg]
        rintro ⟨release, other⟩
        exact other (current buf active release)
      have drv : m.drv.release buf = { m.drv with phase := .stopping false, active := none } :=
        if_pos active
      dsimp only
      rw [kept, drv]
      exact Or.inl ⟨active, rfl⟩
    · have next : m.drv.next = some buf := by simpa [Driver.owned, active] using member
      have freed : rxBufReleased m.app buf = m.app.released buf := if_pos (nextFlags buf next)
      have drv : m.drv.release buf = { m.drv with phase := .stopping false, next := none } :=
        if_neg active
      dsimp only
      rw [freed, drv]
      exact Or.inr ⟨active, next, rfl⟩
  · cases stopping

theorem rxBufReleased_inv {c : Config} {m t : Machine} {buf : Buf} (inv : RxInv c m)
    (taken : step c m (.rxBufReleased buf) = some t) : RxInv c t := by
  obtain ⟨stopping, cases_⟩ := rxBufReleased_cases inv taken
  have flags := inv.flags
  unfold Driver.stopping at stopping
  split at stopping
  · rename_i late phase
    rw [Flags, phase] at flags
    obtain ⟨noWork, current, nextFlags⟩ := flags
    have wasIdle : m.drv.filling c = none := Driver.filling_not_on (by simp [phase])
    have books := inv.idle_books wasIdle
    have stream := inv.idle_stream wasIdle
    rcases cases_ with ⟨active, rfl⟩ | ⟨_, next, rfl⟩
    · refine RxInv.of_idle (Driver.filling_not_on (by simp)) books inv.lenNext ?_ stream
      exact ⟨noWork, by simp, nextFlags⟩
    · have freed : Books c (m.app.released buf) m.mem m.ble
          (fun b => m.drv.next = some b ∧ b ≠ buf) := (books.free_mine next).of_same rfl rfl rfl rfl
      have log : puts (m.app.released buf).log = puts m.app.log := puts_kept rfl
      refine RxInv.of_idle (Driver.filling_not_on (by simp)) (freed.congr fun b => ?_)
        (by simp) ?_ ?_
      · simp [next, eq_comm]
      · exact ⟨noWork, fun _ _ release => absurd release Bool.false_ne_true, by simp⟩
      · show m.received = (puts (m.app.released buf).log).flatMap (·.2)
        rw [log]
        exact stream
  · cases stopping

/-- An error that finds nothing but a full buffer. -/
theorem rxStopped_inv {c : Config} {m t : Machine} {reason : Int} (inv : RxInv c m)
    (met : undisturbed c m (.rxStopped reason) = true)
    (taken : step c m (.rxStopped reason) = some t) : RxInv c t := by
  simp only [step, Option.ite_none_right_eq_some, Option.some.injEq] at taken
  obtain ⟨on, rfl⟩ := taken
  simp only [undisturbed, Bool.and_eq_true, beq_iff_eq] at met
  obtain ⟨full, noNext⟩ := met
  have flags := inv.flags
  rw [Flags, on] at flags
  obtain ⟨_, _, noWork, noRelease⟩ := flags
  have wasIdle := Driver.filling_full (c := c) full
  refine RxInv.of_idle (Driver.filling_full full) (inv.idle_books wasIdle) inv.lenNext ?_
    (inv.idle_stream wasIdle)
  refine ⟨noWork, fun b _ release => ?_, fun b next => ?_⟩
  · exact absurd ((noRelease full).symm.trans release) (by simp)
  · cases noNext.symm.trans next

/-- A receiver that is off is enabled with a new buffer, or `uart_work` is scheduled. -/
theorem uartWorkHandler_inv {c : Config} {m : Machine} {alloc : Option Buf}
    (books : Books c m.app m.mem m.ble (fun _ => False)) (off : m.drv.phase = .off)
    (noActive : m.drv.active = none) (noNext : m.drv.next = none)
    (noWork : m.app.uartWork = false) (stream : m.received = (puts m.app.log).flatMap (·.2))
    (fresh : ∀ buf ∈ alloc, Fresh c m.app buf) :
    RxInv c { m with
      app := (uartWorkHandler c alloc m.app).1
      drv := (uartWorkHandler c alloc m.app).2.foldl Driver.call m.drv } := by
  cases alloc with
  | none =>
      have scheduled : Books c { m.app with uartWork := true } m.mem m.ble
          (fun b => m.drv.next = some b) :=
        (books.congr fun b => by simp [noNext]).of_same rfl rfl rfl rfl
      refine RxInv.of_idle (Driver.filling_not_on ?_) scheduled ?_ ?_ stream
      · show m.drv.phase ≠ .on
        simp [off]
      · intro b next
        cases noNext.symm.trans next
      · show Flags c _ m.drv
        rw [Flags, off]
        exact ⟨noActive, noNext⟩
  | some buf =>
      have drv : (uartWorkHandler c (some buf) m.app).2.foldl Driver.call m.drv =
          { phase := .on, active := some buf, filled := 0, next := none } := if_pos off
      have pos := c.pos
      have log : puts (m.app.kMalloc buf).log = puts m.app.log := puts_kept rfl
      rw [drv]
      refine ⟨(books.malloc (fresh buf rfl)).congr fun b => ?_, ?_, ?_, ?_, ?_, ?_⟩
      · simp [Driver.mine, Driver.filling, pos, eq_comm]
      · simp [Driver.filling, pos, uartWorkHandler, App.kMalloc, App.setLen]
      · simp
      · simp
      · exact ⟨rfl, Nat.zero_le _, noWork, fun empty => absurd empty (Nat.ne_of_lt pos)⟩
      · show m.received = (puts (m.app.kMalloc buf).log).flatMap (·.2) ++ _
        simpa [log, Machine.unput, Driver.filling, pos] using stream

theorem rxDisabled_inv {c : Config} {m t : Machine} {alloc : Option Buf} (inv : RxInv c m)
    (taken : step c m (.rxDisabled alloc) = some t) : RxInv c t := by
  simp only [step, Option.ite_none_right_eq_some, Option.some.injEq] at taken
  obtain ⟨⟨stopping, empty, fresh⟩, rfl⟩ := taken
  have noActive : m.drv.active = none := by
    simp only [Driver.owned, List.append_eq_nil_iff, Option.toList_eq_nil_iff] at empty
    exact empty.1
  have noNext : m.drv.next = none := by
    simp only [Driver.owned, List.append_eq_nil_iff, Option.toList_eq_nil_iff] at empty
    exact empty.2
  have idle : m.drv.filling c = none := by
    unfold Driver.filling
    split
    · exact noActive
    · rfl
  have noWork : m.app.uartWork = false := by
    have flags := inv.flags
    unfold Driver.stopping at stopping
    unfold Flags at flags
    split at flags
    · rename_i off
      simp [off] at stopping
    · rename_i on
      simp [on] at stopping
    · exact flags.1
  have books : Books c m.app m.mem m.ble (fun _ => False) :=
    (inv.idle_books idle).congr fun b => by simp [noNext]
  exact uartWorkHandler_inv (m := { m with drv := { m.drv with phase := .off } }) books rfl noActive
    noNext noWork (inv.idle_stream idle) fresh

/-- While `uart_work` is scheduled the receiver is off. -/
theorem RxInv.off_of_uartWork {c : Config} {m : Machine} (inv : RxInv c m)
    (work : m.app.uartWork = true) :
    m.drv.phase = .off ∧ m.drv.active = none ∧ m.drv.next = none := by
  have flags := inv.flags
  unfold Flags at flags
  split at flags
  · rename_i off
    exact ⟨off, flags⟩
  · exact absurd (flags.2.2.1.symm.trans work) Bool.false_ne_true
  · exact absurd (flags.1.symm.trans work) Bool.false_ne_true

theorem uartWork_inv {c : Config} {m t : Machine} {alloc : Option Buf} (inv : RxInv c m)
    (taken : step c m (.uartWork alloc) = some t) : RxInv c t := by
  simp only [step, Option.ite_none_right_eq_some, Option.some.injEq] at taken
  obtain ⟨⟨work, fresh⟩, rfl⟩ := taken
  obtain ⟨off, noActive, noNext⟩ := inv.off_of_uartWork work
  have idle : m.drv.filling c = none := Driver.filling_not_on (by simp [off])
  have books : Books c { m.app with uartWork := false } m.mem m.ble (fun _ => False) :=
    ((inv.idle_books idle).congr fun b => by simp [noNext]).of_same rfl rfl rfl rfl
  exact uartWorkHandler_inv (m := { m with app := { m.app with uartWork := false } }) books off
    noActive noNext rfl (inv.idle_stream idle) fresh

/-! ### The thread -/

theorem ble_inv {c : Config} {m t : Machine} (inv : RxInv c m) (taken : step c m .ble = some t) :
    RxInv c t := by
  simp only [step, Option.map_eq_some_iff] at taken
  obtain ⟨⟨app, ble⟩, done, rfl⟩ := taken
  obtain ⟨books, lenFilling, lenNext, other, flags, stream⟩ := inv
  cases pc : m.ble with
  | fifoGet =>
      rw [pc] at books done
      unfold bleWriteThread at done
      dsimp only at done
      split at done
      · cases done
      · rename_i buf rest fifo
        cases done
        exact ⟨books.get fifo, lenFilling, lenNext, other, flags, stream⟩
  | nusSend buf =>
      rw [pc] at books done
      cases done
      refine ⟨books.send, lenFilling, lenNext, other, flags, ?_⟩
      have log : puts (m.app.note (.nusSent buf (m.app.content m.mem buf))).log =
          puts m.app.log := puts_kept rfl
      show m.received = (puts (m.app.note _).log).flatMap (·.2) ++ _
      rw [log]
      exact stream
  | free buf =>
      rw [pc] at books done
      cases done
      refine ⟨books.free_ble, lenFilling, lenNext, other, flags, ?_⟩
      have log : puts (m.app.kFree buf).log = puts m.app.log := puts_kept rfl
      show m.received = (puts (m.app.kFree buf).log).flatMap (·.2) ++ _
      rw [log]
      exact stream

/-! ## Every run -/

theorem step_rxInv {c : Config} {m t : Machine} {a : Act} (inv : RxInv c m)
    (met : undisturbed c m a = true) (taken : step c m a = some t) : RxInv c t := by
  cases a with
  | rxRdy bytes => exact rxRdy_inv inv met taken
  | rxBufRequest alloc => exact rxBufRequest_inv inv taken
  | switch => exact switch_inv inv taken
  | rxBufReleased buf => exact rxBufReleased_inv inv taken
  | rxStopped reason => exact rxStopped_inv inv met taken
  | rxDisabled alloc => exact rxDisabled_inv inv taken
  | uartWork alloc => exact uartWork_inv inv taken
  | ble => exact ble_inv inv taken

theorem reachable_rxInv {c : Config} {m : Machine}
    (run : Reachable (step c) Init (undisturbed c) m) : RxInv c m := by
  apply run.invariant
  · intro s init
    exact init_rxInv init
  · intro s a t inv met taken
    exact step_rxInv inv met taken

/-! ### Release before free -/

theorem live_snoc {log : List Entry} {e : Entry} {b : Buf} (live : life log b ≠ .free)
    (kept : e ≠ .freed b) : life (log ++ [e]) b ≠ .free := by
  rw [life_snoc]
  cases e with
  | allocated buf =>
      show (if b = buf then Life.held else life log b) ≠ .free
      split
      · simp
      · exact live
  | freed buf =>
      have other : b ≠ buf := by
        rintro rfl
        exact kept rfl
      show (if b = buf then Life.free else life log b) ≠ .free
      rwa [if_neg other]
  | rxPut buf bytes =>
      show (if b = buf then Life.queued else life log b) ≠ .free
      split
      · simp
      · exact live
  | nusSent => exact live

theorem live_allocated (log : List Entry) (buf : Buf) :
    life (log ++ [Entry.allocated buf]) buf ≠ .free := by
  simp [Life.observe]

/-- A report frees nothing, and the driver keeps its buffers. -/
theorem rxRdy_released {c : Config} {m t : Machine} {bytes : List UInt8}
    (released : ReleasedFirst m) (taken : step c m (.rxRdy bytes) = some t) : ReleasedFirst t := by
  simp only [step] at taken
  split at taken
  · rename_i buf active
    simp only [Option.ite_none_right_eq_some, Option.some.injEq, callback_rxRdy] at taken
    obtain ⟨_, rfl⟩ := taken
    have owned : (m.drv.fill bytes.length).owned = m.drv.owned := rfl
    rcases rxRdy_cases c (m.mem.store (buf + m.drv.filled) bytes) m.app buf bytes.length with
      (⟨_, done⟩ | done) | ⟨_, done⟩
    · rw [done]
      exact fun b member => live_snoc (released b member) (by simp)
    · rw [done]
      have same : ([UartCall.rxDisable].foldl Driver.call (m.drv.fill bytes.length)).owned =
          m.drv.owned := by
        rw [List.foldl_cons, List.foldl_nil, Driver.call]
        split <;> exact owned
      intro b member
      exact live_snoc (released b (same ▸ member)) (by simp)
    · rw [done]
      exact released
  · cases taken

theorem uartWorkHandler_released {c : Config} {m : Machine} {alloc : Option Buf}
    (off : m.drv.phase = .off) (empty : m.drv.owned = []) :
    ReleasedFirst { m with
      app := (uartWorkHandler c alloc m.app).1
      drv := (uartWorkHandler c alloc m.app).2.foldl Driver.call m.drv } := by
  cases alloc with
  | none =>
      intro b member
      have inOwned : b ∈ m.drv.owned := member
      rw [empty] at inOwned
      cases inOwned
  | some buf =>
      have drv : (uartWorkHandler c (some buf) m.app).2.foldl Driver.call m.drv =
          { phase := .on, active := some buf, filled := 0, next := none } := if_pos off
      rw [drv]
      intro b member
      have same : b = buf := by simpa [Driver.owned, eq_comm] using member
      rw [same]
      exact live_allocated m.app.log buf

theorem rxBufRequest_released {c : Config} {m t : Machine} {alloc : Option Buf}
    (released : ReleasedFirst m) (taken : step c m (.rxBufRequest alloc) = some t) :
    ReleasedFirst t := by
  rcases rxBufRequest_cases taken with rfl | ⟨buf, _, noNext, _, rfl⟩
  · exact released
  intro b member
  have either : m.drv.active = some b ∨ b = buf := by
    simpa [Driver.owned, eq_comm] using member
  rcases either with active | rfl
  · exact live_snoc (released b (by simp [Driver.owned, active])) (by simp)
  · exact live_allocated m.app.log b

theorem rxBufReleased_released {c : Config} {m t : Machine} {buf : Buf} (inv : RxInv c m)
    (released : ReleasedFirst m) (taken : step c m (.rxBufReleased buf) = some t) :
    ReleasedFirst t := by
  obtain ⟨_, ⟨_, rfl⟩ | ⟨notActive, next, rfl⟩⟩ := rxBufReleased_cases inv taken
  · intro b member
    apply released b
    have isNext : m.drv.next = some b := by simpa [Driver.owned] using member
    simp [Driver.owned, isNext]
  · intro b member
    have active : m.drv.active = some b := by simpa [Driver.owned] using member
    refine live_snoc (released b (by simp [Driver.owned, active])) ?_
    rintro same
    cases same
    exact notActive active

/-- `ble_write_thread` frees what the driver does not have. -/
theorem ble_released {c : Config} {m t : Machine} (released : ReleasedFirst m)
    (met : patient c m .ble = true) (taken : step c m .ble = some t) : ReleasedFirst t := by
  simp only [step, Option.map_eq_some_iff] at taken
  obtain ⟨⟨app, ble⟩, done, rfl⟩ := taken
  cases pc : m.ble with
  | fifoGet =>
      rw [pc] at done
      unfold bleWriteThread at done
      dsimp only at done
      split at done
      · cases done
      · cases done
        exact released
  | nusSend buf =>
      rw [pc] at done
      cases done
      exact fun b member => live_snoc (released b member) (by simp)
  | free buf =>
      rw [pc] at done
      cases done
      have notOwned : buf ∉ m.drv.owned := by simpa [patient, pc] using met
      intro b member
      refine live_snoc (released b member) ?_
      rintro same
      cases same
      exact notOwned member

/-- One step keeps what the driver has from being freed. -/
theorem step_released {c : Config} {m t : Machine} {a : Act} (inv : RxInv c m)
    (released : ReleasedFirst m) (met : patient c m a = true) (taken : step c m a = some t) :
    ReleasedFirst t := by
  cases a with
  | rxRdy bytes => exact rxRdy_released released taken
  | rxBufRequest alloc => exact rxBufRequest_released released taken
  | switch =>
      obtain ⟨_, _, rfl⟩ := switch_done inv taken
      intro b member
      apply released b
      have next : m.drv.next = some b := by simpa [Driver.owned, Driver.switched] using member
      simp [Driver.owned, next]
  | rxBufReleased buf => exact rxBufReleased_released inv released taken
  | rxStopped reason =>
      simp only [step, Option.ite_none_right_eq_some, Option.some.injEq] at taken
      obtain ⟨_, rfl⟩ := taken
      exact released
  | rxDisabled alloc =>
      simp only [step, Option.ite_none_right_eq_some, Option.some.injEq] at taken
      obtain ⟨⟨_, empty, _⟩, rfl⟩ := taken
      exact uartWorkHandler_released (m := { m with drv := { m.drv with phase := .off } }) rfl empty
  | uartWork alloc =>
      simp only [step, Option.ite_none_right_eq_some, Option.some.injEq] at taken
      obtain ⟨⟨work, _⟩, rfl⟩ := taken
      obtain ⟨off, noActive, noNext⟩ := inv.off_of_uartWork work
      exact uartWorkHandler_released (m := { m with app := { m.app with uartWork := false } }) off
        (by simp [Driver.owned, noActive, noNext])
  | ble => exact ble_released released met taken

theorem undisturbed_of_patient {c : Config} {m : Machine} {a : Act} (met : patient c m a = true) :
    undisturbed c m a = true := by
  cases a with
  | ble => rfl
  | _ => exact met

theorem reachable_released {c : Config} {m : Machine}
    (run : Reachable (step c) Init (patient c) m) :
    ReleasedFirst m := by
  apply run.strengthen (Q := RxInv c)
  · intro s before
    exact reachable_rxInv (before.mono fun _ _ => undisturbed_of_patient)
  · rintro s ⟨rx, mem, _, rfl⟩ b member
    have same : b = rx := by simpa [Driver.owned, eq_comm] using member
    rw [same]
    exact live_allocated [] rx
  · intro s a t inv released met taken
    exact step_released inv released met taken

/-- **Ownership of the receive buffers.**  In every run in which no report comes once the
receiver stops, and no error stops it while it has a buffer that is not full, each
buffer is put once, stays as it was put, and is freed once, and the FIFO carries the
bytes received; none is freed before its release if `ble_write_thread` comes after it. -/
theorem buffers_owned {c : Config} {m : Machine} (run : Reachable (step c) Init (undisturbed c) m) :
    Owned c m ∧ (Reachable (step c) Init (patient c) m → ReleasedFirst m) :=
  ⟨(reachable_rxInv run).toOwned, reachable_released⟩

/-! ### A run -/

def rxBooted : Machine where
  app := App.zero.kMalloc 100
  mem := fun _ => 0
  drv := { phase := .on, active := some 100, filled := 0, next := none }
  ble := .fifoGet
  received := []

theorem rxBooted_init : Init rxBooted := ⟨100, fun _ => 0, by decide, rfl⟩

/-- A full buffer, then a line; one allocation fails. -/
def lineRun : List Act :=
  [.rxBufRequest (some 200), .rxRdy [97, 98], .rxRdy [99, 100], .switch, .rxBufRequest (some 300),
    .rxRdy [101, 10], .rxBufReleased 300, .rxBufReleased 200, .rxDisabled none,
    .uartWork (some 300)] ++ List.replicate 6 .ble

theorem buffers_owned_lineRun : ∃ m : Machine, (Owned tiny m ∧ ReleasedFirst m) ∧
    m.app.heap = [300] ∧ sents m.app.log = [(100, [97, 98, 99, 100]), (200, [101, 10])] := by
  have found : (exec (step tiny) (patient tiny) rxBooted lineRun).any (fun m =>
      m.app.heap == [300] &&
        sents m.app.log == [(100, [97, 98, 99, 100]), (200, [101, 10])]) = true := by
    decide +kernel
  obtain ⟨m, run, shown⟩ := exists_reachable_of_exec rxBooted_init found
  rw [Bool.and_eq_true, beq_iff_eq, beq_iff_eq] at shown
  have both := buffers_owned (run.mono fun _ _ => undisturbed_of_patient)
  exact ⟨m, ⟨both.1, both.2 run⟩, shown⟩

/-! ### The condition is needed -/

/-- **The condition is needed.**  A report after the receiver has begun to stop concerns a
buffer that has been put: it is put again, or its new bytes are lost. -/
theorem late_rdy_breaks {c : Config} {m t : Machine} {bytes : List UInt8}
    (run : Reachable (step c) Init (undisturbed c) m)
    (late : undisturbed c m (.rxRdy bytes) = false) (taken : step c m (.rxRdy bytes) = some t) :
    ¬ Owned c t := by
  intro after
  have inv := reachable_rxInv run
  have notOn : m.drv.phase ≠ .on := by simpa [undisturbed] using late
  simp only [step] at taken
  split at taken
  · rename_i buf active
    simp only [Option.ite_none_right_eq_some, Option.some.injEq, callback_rxRdy] at taken
    obtain ⟨⟨_, nonempty, _⟩, rfl⟩ := taken
    have notHeld := inv.not_held notOn active
    rcases rxRdy_cases c (m.mem.store (buf + m.drv.filled) bytes) m.app buf bytes.length with
      (⟨_, done⟩ | done) | ⟨_, done⟩
    · rw [done] at after
      exact notHeld (always_snoc.mp after.once).2
    · rw [done] at after
      exact notHeld (always_snoc.mp after.once).2
    · rw [done] at after
      have stream : m.received ++ bytes = (puts m.app.log).flatMap (·.2) ++ Machine.pending c _ :=
        after.stream
      have nothing : Machine.pending c
          { m with
            app := m.app.reported buf bytes.length
            mem := m.mem.store (buf + m.drv.filled) bytes
            drv := m.drv.fill bytes.length
            received := m.received ++ bytes } = [] := by
        unfold Machine.pending
        show (match m.drv.active with
          | some b => if _ ∧ life m.app.log b = .held then _ else []
          | none => []) = []
        rw [active]
        exact if_neg fun both => notHeld both.2
      have before := inv.idle_stream (Driver.filling_not_on notOn)
      rw [before] at stream
      exact nonempty (List.append_cancel_left (stream.trans (congrArg _ nothing)))
  · cases taken

/-- **A buffer is put twice.**  Two bytes come between the terminator and the end of the
reception; a buffer is also freed while the driver has it, by a thread that is fast. -/
theorem put_twice : (¬ ∀ m, Reachable (step tiny) Init unguarded m → Owned tiny m) ∧
    ¬ ∀ m, Reachable (step tiny) Init (undisturbed tiny) m → ReleasedFirst m := by
  constructor
  · intro always
    have found : (exec (step tiny) unguarded rxBooted [.rxRdy [97, 10], .rxRdy [98, 10]]).any
        (fun m => m.app.log ==
          [.allocated 100, .rxPut 100 [97, 10], .rxPut 100 [97, 10, 98, 10]]) = true := by
      decide +kernel
    obtain ⟨m, run, shown⟩ := exists_reachable_of_exec rxBooted_init found
    have once := (always m run).once
    rw [beq_iff_eq.mp shown] at once
    have held : life [.allocated 100, .rxPut 100 [97, 10]] 100 = .held :=
      once [.allocated 100, .rxPut 100 [97, 10]] (.rxPut 100 [97, 10, 98, 10]) [] rfl
    revert held
    decide +kernel
  · intro always
    have found : (exec (step tiny) (undisturbed tiny) rxBooted
        [.rxRdy [97, 10], .ble, .ble, .ble]).any
        (fun m => m.drv.owned == [100] && life m.app.log 100 == .free) = true := by
      decide +kernel
    obtain ⟨m, run, shown⟩ := exists_reachable_of_exec rxBooted_init found
    rw [Bool.and_eq_true, beq_iff_eq, beq_iff_eq] at shown
    exact always m run 100 (by simp [shown.1]) shown.2

end NcsExp.NusBridge
