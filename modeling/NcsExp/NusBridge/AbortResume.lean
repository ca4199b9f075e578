/-
# NcsExp.NusBridge.AbortResume -- an aborted transmission over the UART adapter

`uart_cb` composed with the transmit side of the adapter.  An abort reports what was
pushed; `UART_TX_ABORTED` adds it up in `aborted_len` and transmits the remainder of the
buffer kept in `aborted_buf`, which the `UART_TX_DONE` of the last remainder clears.

* A step hands over a chunk, lets the adapter push some bytes or notice that all of
  them are gone, or aborts; the event it raises is delivered at once.  What can come
  between `uart_tx` and `k_fifo_put` is the subject of `TxOrder`.
* `resumed` is about the runs in which nothing is aborted after its last byte was
  pushed: `Service` says which chunks are done, which one the adapter has, and which
  wait.
* `last_abort_breaks`: the remainder of such an abort is empty, the adapter transmits
  nothing, and no event ever comes.
-/
import NcsExp.NusBridge.TxBlocks

namespace NcsExp.NusBridge.Abort

open NcsExp.Theory
open NcsExp.UartAdapter (NULL SYS_FOREVER_MS UartEvent Obs)

set_option autoImplicit false

/-! ## The machine -/

structure Machine where
  app : App
  adapter : UartAdapter.Machine
  /-- The chunks handed over so far. -/
  chunks : List Chunk

/-- The transmit side of the adapter. -/
def Machine.tx (m : Machine) : UartAdapter.TxData := (m.adapter.data .adapter).tx

/-- A call by the callback, which does not look at what it returns. -/
def Machine.call (m : Machine) : UartCall → Machine
  | .tx buf len timeout =>
      { m with adapter := (UartAdapter.tx m.adapter .adapter buf len timeout).1 }
  | _ => m

/-- Run the callback that the adapter has entered, if it has. -/
def deliver (c : Config) (m : Machine) : Machine :=
  match m.adapter.stack with
  | .userCallback .adapter evt :: rest =>
      let done := uartCb c m.adapter.mem none m.app evt
      done.2.foldl Machine.call
        { m with app := done.1, adapter := { m.adapter with stack := rest } }
  | _ => m

inductive Act
  /-- `bt_receive_cb` has filled a chunk: `uart_tx`, and `k_fifo_put` if it fails. -/
  | send (tx : Buf) (bytes : List UInt8)
  /-- `on_tx_ready`; the target takes `ret` bytes. -/
  | txReady (ret : Int)
  /-- `on_tx_complete`. -/
  | txComplete
  /-- `uart_tx_abort`. -/
  | txAbort
  deriving DecidableEq

def step (c : Config) (m : Machine) : Act → Option Machine
  | .send tx bytes =>
      if Fresh c m.app tx ∧ bytes ≠ [] ∧ bytes.length ≤ c.uartBufSize then
        let app := m.app.fill tx bytes
        let done :=
          UartAdapter.tx (m.adapter.store tx bytes) .adapter tx (app.len tx) SYS_FOREVER_MS
        some
          { app := if done.2 = 0 then app else app.txPut tx
            adapter := done.1
            chunks := m.chunks ++ [(tx, bytes)] }
      else none
  | .txReady ret =>
      if m.tx.enabled then
        (UartAdapter.resume m.adapter .onTxReady (.fifoFill ret)).map fun adapter =>
          { m with adapter := adapter }
      else none
  | .txComplete =>
      if m.tx.enabled then
        some (deliver c { m with adapter := UartAdapter.onTxComplete m.adapter })
      else none
  | .txAbort =>
      let entry := Obs.call .txAbort (UartAdapter.txAbortRet m.tx)
      some (deliver c { m with adapter := UartAdapter.txAbort m.adapter .adapter entry })

/-- Nothing has been handed over. -/
structure Init (m : Machine) : Prop where
  abortedBuf : m.app.abortedBuf = NULL
  abortedLen : m.app.abortedLen = 0
  fifo : m.app.fifoUartTxData = []
  log : m.app.log = []
  adapter : UartAdapter.Init m.adapter
  chunks : m.chunks = []

/-! ## What is asked of it -/

/-- The bytes that went to the target. -/
def pushed (log : List Obs) : List UInt8 :=
  log.flatMap fun
    | .pushed _ bytes => bytes
    | _ => []

/-- The buffers freed so far. -/
def freed (log : List Entry) : List Buf :=
  log.filterMap fun
    | .freed buf => some buf
    | _ => none

/-- The adapter has what is left of the chunk after `sent` bytes. -/
structure Carried (m : Machine) (chunk : Chunk) (sent : Nat) : Prop where
  within : sent ≤ chunk.2.length
  buf : m.tx.buf = chunk.1 + m.app.abortedLen
  currBuf : m.tx.currBuf = chunk.1 + sent
  sizeLeft : m.tx.sizeLeft = chunk.2.length - sent
  enabled : m.tx.enabled = true
  resumedAt : m.app.abortedLen ≤ sent ∧ m.app.abortedLen < chunk.2.length
  owner : m.app.abortedBuf = NULL ∧ m.app.abortedLen = 0 ∨ m.app.abortedBuf = chunk.1

/-- The adapter has nothing, and no abort is remembered. -/
structure Idle (m : Machine) : Prop where
  buf : m.tx.buf = NULL
  sizeLeft : m.tx.sizeLeft = 0
  abortedBuf : m.app.abortedBuf = NULL
  abortedLen : m.app.abortedLen = 0

/-- The chunk in progress, with the number of its bytes that were pushed; when there is
none, no chunk waits. -/
def Stage (m : Machine) : Option (Chunk × Nat) → List Chunk → Prop
  | none, waiting => Idle m ∧ waiting = []
  | some (chunk, sent), _ => Carried m chunk sent

/-- Each chunk is done, in progress or waiting: the bytes pushed are those of the chunks
that are done, once, and the beginning of the one in progress, and the chunks that are
done are freed, once. -/
structure Service (m : Machine) (done : List Chunk) (current : Option (Chunk × Nat))
    (waiting : List Chunk) : Prop where
  chunks : m.chunks = done ++ current.toList.map (·.1) ++ waiting
  freed : freed m.app.log = done.map (·.1)
  fifo : m.app.fifoUartTxData = waiting.map (·.1)
  pushed : pushed m.adapter.log =
    done.flatMap (·.2) ++ current.toList.flatMap fun x => x.1.2.take x.2
  stage : Stage m current waiting

/-- Nothing is aborted between its last byte and its completion. -/
def midway (m : Machine) : Act → Bool
  | .txAbort => m.tx.buf == NULL || m.tx.sizeLeft != 0
  | _ => true

/-! ## The adapter -/

/-- What is left alone by the transmit side. -/
structure Kept (a b : UartAdapter.Machine) : Prop where
  callback : (b.data .adapter).userCallback = (a.data .adapter).userCallback
  mem : b.mem = a.mem
  stack : b.stack = a.stack
  pushed : pushed b.log = pushed a.log

/-- An idle adapter accepts a transmission. -/
theorem tx_idle {a : UartAdapter.Machine} (buf : Nat) {len : Nat} (nonempty : len ≠ 0)
    (idle : (a.data .adapter).tx.buf = NULL) :
    ∃ b, UartAdapter.tx a .adapter buf len SYS_FOREVER_MS = (b, 0) ∧ Kept a b ∧
      (b.data .adapter).tx =
        { buf := buf, currBuf := buf, sizeLeft := len
          timeoutTimer := (a.data .adapter).tx.timeoutTimer, enabled := true } := by
  unfold UartAdapter.tx
  dsimp only
  rw [if_neg nonempty, if_neg (not_not.mpr idle), if_neg (not_not.mpr rfl)]
  refine ⟨_, rfl, ⟨?_, ?_, ?_, ?_⟩, ?_⟩ <;> simp

/-- A busy adapter refuses one. -/
theorem tx_busy {a : UartAdapter.Machine} {buf len : Nat} (nonempty : len ≠ 0)
    (busy : (a.data .adapter).tx.buf ≠ NULL) :
    UartAdapter.tx a .adapter buf len SYS_FOREVER_MS = (a, -UartAdapter.EBUSY) := by
  unfold UartAdapter.tx
  dsimp only
  rw [if_neg nonempty, if_pos busy]

/-- The adapter after an event of the transmit side: it has nothing, and is in the
callback. -/
structure Raised (a b : UartAdapter.Machine) (evt : UartEvent) : Prop where
  callback : (b.data .adapter).userCallback = true
  mem : b.mem = a.mem
  stack : b.stack = .userCallback .adapter evt :: a.stack
  pushed : pushed b.log = pushed a.log
  buf : (b.data .adapter).tx.buf = NULL
  sizeLeft : (b.data .adapter).tx.sizeLeft = 0
  enabled : (b.data .adapter).tx.enabled = false

theorem txAbort_raised {a : UartAdapter.Machine} (ret : Int)
    (callback : (a.data .adapter).userCallback = true) (busy : (a.data .adapter).tx.buf ≠ NULL) :
    Raised a (UartAdapter.txAbort a .adapter (.call .txAbort ret))
      (.txAborted (a.data .adapter).tx.buf
        ((a.data .adapter).tx.currBuf - (a.data .adapter).tx.buf)) := by
  unfold UartAdapter.txAbort UartAdapter.userCallback
  dsimp only
  rw [if_neg busy, if_pos (by simpa using callback)]
  refine ⟨?_, ?_, ?_, ?_, ?_, ?_, ?_⟩
  · simpa using callback
  · simp
  · simp
  · simp [pushed]
  · simp
  · simp
  · simp

theorem onTxComplete_raised {a : UartAdapter.Machine}
    (callback : (a.data .adapter).userCallback = true) (busy : (a.data .adapter).tx.buf ≠ NULL)
    (all : (a.data .adapter).tx.sizeLeft = 0) :
    Raised a (UartAdapter.onTxComplete a)
      (.txDone (a.data .adapter).tx.buf
        ((a.data .adapter).tx.currBuf - (a.data .adapter).tx.buf)) := by
  unfold UartAdapter.onTxComplete UartAdapter.userCallback
  dsimp only
  rw [if_pos all, if_pos busy, if_pos (by simpa using callback)]
  refine ⟨?_, ?_, ?_, ?_, ?_, ?_, ?_⟩
  · simpa using callback
  · simp
  · simp
  · simp [pushed]
  · simp
  · simp
  · simp

/-- The callback of an event that was just raised. -/
theorem deliver_raised {c : Config} {m : Machine} {b : UartAdapter.Machine} {evt : UartEvent}
    (stack : b.stack = [.userCallback .adapter evt]) :
    deliver c { m with adapter := b } =
      (uartCb c b.mem none m.app evt).2.foldl Machine.call
        { m with
          app := (uartCb c b.mem none m.app evt).1
          adapter := { b with stack := [] } } := by
  unfold deliver
  dsimp only
  rw [stack]

/-- Bytes that the target takes. -/
theorem onTxReady_pushes {a : UartAdapter.Machine} {ret : Int} (more : 0 < ret) :
    (UartAdapter.onTxReady a ret).mem = a.mem ∧ (UartAdapter.onTxReady a ret).stack = a.stack ∧
    ((UartAdapter.onTxReady a ret).data .adapter).userCallback = (a.data .adapter).userCallback ∧
    pushed (UartAdapter.onTxReady a ret).log =
      pushed a.log ++ a.mem.load (a.data .adapter).tx.currBuf ret.toNat ∧
    ((UartAdapter.onTxReady a ret).data .adapter).tx =
      { (a.data .adapter).tx with
        currBuf := (a.data .adapter).tx.currBuf + ret.toNat
        sizeLeft := (a.data .adapter).tx.sizeLeft - ret.toNat } := by
  unfold UartAdapter.onTxReady
  dsimp only
  rw [if_neg (Int.not_le.mpr more)]
  refine ⟨?_, ?_, ?_, ?_, ?_⟩ <;> simp [pushed]

/-! ## The invariant -/

/-- The buffers of the chunks that are not done, and an adapter outside any callback. -/
structure Backing (c : Config) (m : Machine) (live : List Chunk) : Prop where
  blocks : Blocks c m.app (live.map (·.1))
  contents : ∀ chunk ∈ live, m.app.content m.adapter.mem chunk.1 = chunk.2
  callback : (m.adapter.data .adapter).userCallback = true
  stack : m.adapter.stack = []

section

variable {c : Config} {m : Machine} {live : List Chunk} {chunk : Chunk}

theorem Backing.len (backing : Backing c m live) (member : chunk ∈ live) :
    m.app.len chunk.1 = chunk.2.length := by
  have content := backing.contents chunk member
  rw [← content, App.content, Memory.length_load]

theorem Backing.nonNull (backing : Backing c m live) (member : chunk ∈ live) : chunk.1 ≠ NULL :=
  backing.blocks.nonNull chunk.1 (List.mem_map_of_mem member)

theorem Backing.nonempty (backing : Backing c m live) (member : chunk ∈ live) :
    0 < chunk.2.length ∧ chunk.2.length ≤ c.uartBufSize := by
  rw [← backing.len member]
  exact backing.blocks.lens chunk.1 (List.mem_map_of_mem member)

end

/-- The chunks that are not done. -/
def liveChunks (current : Option (Chunk × Nat)) (waiting : List Chunk) : List Chunk :=
  current.toList.map (·.1) ++ waiting

/-- `Service`, with what it rests on. -/
def AbortInv (c : Config) (m : Machine) : Prop :=
  ∃ done current waiting, Service m done current waiting ∧ Backing c m (liveChunks current waiting)

theorem init_abortInv {c : Config} {m : Machine} (init : Init m) : AbortInv c m := by
  obtain ⟨abortedBuf, abortedLen, fifo, log, ⟨data, stack, adapterLog⟩, chunks⟩ := init
  refine ⟨[], none, [], ⟨chunks, ?_, fifo, ?_, ⟨?_, ?_, abortedBuf, abortedLen⟩, rfl⟩, ?_⟩
  · rw [log]
    rfl
  · rw [adapterLog]
    rfl
  · rw [Machine.tx, data]
    rfl
  · rw [Machine.tx, data]
    rfl
  · refine ⟨Blocks.empty, by simp [liveChunks], ?_, stack⟩
    rw [data]
    rfl

/-- A transmission that was just accepted. -/
theorem Carried.of_start {m : Machine} {chunk : Chunk} {k : Nat} {timer : Option Int}
    (tx : m.tx = { buf := chunk.1 + k, currBuf := chunk.1 + k, sizeLeft := chunk.2.length - k
                   timeoutTimer := timer, enabled := true })
    (more : k < chunk.2.length) (abortedLen : m.app.abortedLen = k)
    (owner : m.app.abortedBuf = NULL ∧ k = 0 ∨ m.app.abortedBuf = chunk.1) : Carried m chunk k := by
  refine ⟨Nat.le_of_lt more, ?_, ?_, ?_, ?_, ?_, ?_⟩
  · rw [tx, abortedLen]
  · rw [tx]
  · rw [tx]
  · rw [tx]
  · rw [abortedLen]
    exact ⟨Nat.le_refl _, more⟩
  · rw [abortedLen]
    exact owner

theorem Carried.of_same {m t : Machine} {chunk : Chunk} {sent : Nat}
    (carried : Carried m chunk sent) (data : t.adapter.data = m.adapter.data)
    (abortedBuf : t.app.abortedBuf = m.app.abortedBuf)
    (abortedLen : t.app.abortedLen = m.app.abortedLen) : Carried t chunk sent := by
  obtain ⟨within, buf, currBuf, sizeLeft, enabled, resumedAt, owner⟩ := carried
  have tx : t.tx = m.tx := by rw [Machine.tx, Machine.tx, data]
  rw [← tx] at buf currBuf sizeLeft enabled
  rw [← abortedLen] at buf resumedAt owner
  rw [← abortedBuf] at owner
  exact ⟨within, buf, currBuf, sizeLeft, enabled, resumedAt, owner⟩

theorem Carried.busy {m : Machine} {chunk : Chunk} {sent : Nat} (carried : Carried m chunk sent)
    (nonNull : chunk.1 ≠ NULL) : (m.adapter.data .adapter).tx.buf ≠ NULL := by
  have buf : (m.adapter.data .adapter).tx.buf = chunk.1 + m.app.abortedLen := carried.buf
  rw [buf]
  exact fun null => nonNull (Nat.eq_zero_of_add_eq_zero_right null)

/-- A new chunk is filled; what the others hold is as it was. -/
theorem Backing.fill {c : Config} {m : Machine} {live : List Chunk} {tx : Buf} {bytes : List UInt8}
    (backing : Backing c m live) (fresh : Fresh c m.app tx) (nonempty : bytes ≠ [])
    (fits : bytes.length ≤ c.uartBufSize) {t : Machine}
    (heap : t.app.heap = (m.app.fill tx bytes).heap)
    (len : t.app.len = (m.app.fill tx bytes).len)
    (mem : t.adapter.mem = m.adapter.mem.store tx bytes)
    (callback : (t.adapter.data .adapter).userCallback = true) (stack : t.adapter.stack = []) :
    Backing c t (live ++ [(tx, bytes)]) := by
  refine ⟨?_, ?_, callback, stack⟩
  · rw [List.map_append]
    exact (backing.blocks.fill fresh (List.length_pos_iff.mpr nonempty) fits).of_same heap len
  · intro chunk member
    have same : t.app.content t.adapter.mem chunk.1 =
        (m.app.fill tx bytes).content (m.adapter.mem.store tx bytes) chunk.1 := by
      rw [App.content, App.content, len, mem]
    rw [same]
    rcases List.mem_append.mp member with old | new
    · rw [backing.blocks.content_fill fresh (List.mem_map_of_mem old) fits]
      exact backing.contents chunk old
    · rw [List.mem_singleton.mp new]
      exact fill_content

theorem send_inv {c : Config} {m t : Machine} {tx : Buf} {bytes : List UInt8} (inv : AbortInv c m)
    (taken : step c m (.send tx bytes) = some t) : AbortInv c t := by
  obtain ⟨done, current, waiting, service, backing⟩ := inv
  simp only [step, Option.ite_none_right_eq_some, Option.some.injEq] at taken
  obtain ⟨⟨fresh, nonempty, fits⟩, rfl⟩ := taken
  obtain ⟨chunks, freedDone, fifo, pushedDone, stage⟩ := service
  have len : (m.app.fill tx bytes).len tx = bytes.length := if_pos rfl
  have log : freed (m.app.fill tx bytes).log = freed m.app.log := by
    simp [freed, App.fill, App.setLen, App.kMalloc, App.note]
  have positive : bytes.length ≠ 0 := by simpa using nonempty
  rw [len]
  cases current with
  | none =>
      obtain ⟨idle, rfl⟩ := stage
      obtain ⟨b, accepted, kept, started⟩ :=
        tx_idle (a := m.adapter.store tx bytes) tx positive idle.buf
      rw [accepted]
      simp only [if_true]
      refine ⟨done, some ((tx, bytes), 0), [], ⟨?_, ?_, fifo, ?_, ?_⟩, ?_⟩
      · simp [chunks]
      · rw [log, freedDone]
      · rw [kept.pushed]
        simpa using pushedDone
      · refine Carried.of_start (k := 0) started (Nat.pos_of_ne_zero positive) idle.abortedLen ?_
        exact Or.inl ⟨idle.abortedBuf, rfl⟩
      · exact backing.fill fresh nonempty fits rfl rfl kept.mem
          (kept.callback.trans backing.callback) (kept.stack.trans backing.stack)
  | some part =>
      obtain ⟨chunk, sent⟩ := part
      have carried : Carried m chunk sent := stage
      have busy := carried.busy (backing.nonNull (by simp [liveChunks]))
      rw [tx_busy (a := m.adapter.store tx bytes) positive busy]
      simp only [show (-UartAdapter.EBUSY) ≠ 0 by decide, if_false]
      refine ⟨done, some (chunk, sent), waiting ++ [(tx, bytes)], ⟨?_, ?_, ?_, pushedDone, ?_⟩, ?_⟩
      · simp [chunks]
      · exact log.trans freedDone
      · show m.app.fifoUartTxData ++ [tx] = _
        rw [fifo]
        simp
      · exact carried.of_same (by simp) (by simp) (by simp)
      · have same : liveChunks (some (chunk, sent)) (waiting ++ [(tx, bytes)]) =
            liveChunks (some (chunk, sent)) waiting ++ [(tx, bytes)] :=
          (List.append_assoc ..).symm
        rw [same]
        exact backing.fill fresh nonempty fits rfl rfl rfl backing.callback backing.stack

/-! ## Bytes go to the target -/

/-- The beginning of a chunk, read from its buffer. -/
theorem Backing.load {c : Config} {m : Machine} {live : List Chunk} {chunk : Chunk} {k : Nat}
    (backing : Backing c m live) (member : chunk ∈ live) (within : k ≤ chunk.2.length) :
    m.adapter.mem.load chunk.1 k = chunk.2.take k := by
  have content := backing.contents chunk member
  rw [App.content, backing.len member] at content
  rw [← Memory.take_load m.adapter.mem chunk.1 within, content]

/-- Some bytes of the chunk in progress are pushed. -/
theorem push_service {c : Config} {m : Machine} {done waiting : List Chunk} {chunk : Chunk}
    {sent : Nat} {ret : Int} (service : Service m done (some (chunk, sent)) waiting)
    (backing : Backing c m (chunk :: waiting)) (more : 0 < ret)
    (bound : ret ≤ (m.adapter.data .adapter).tx.sizeLeft) :
    Service { m with adapter := UartAdapter.onTxReady m.adapter ret } done
        (some (chunk, sent + ret.toNat)) waiting ∧
      Backing c { m with adapter := UartAdapter.onTxReady m.adapter ret } (chunk :: waiting) := by
  obtain ⟨mem, stack, callback, pushes, tx⟩ := onTxReady_pushes (a := m.adapter) more
  obtain ⟨chunks, freedDone, fifo, pushedDone, stage⟩ := service
  obtain ⟨within, buf, currBuf, sizeLeft, enabled, resumedAt, owner⟩ : Carried m chunk sent := stage
  have left : (m.adapter.data .adapter).tx.sizeLeft = chunk.2.length - sent := sizeLeft
  have further : sent + ret.toNat ≤ chunk.2.length := by
    rw [left] at bound
    omega
  have whole := backing.load List.mem_cons_self further
  rw [Memory.load_add, backing.load List.mem_cons_self within] at whole
  refine ⟨⟨chunks, freedDone, fifo, ?_, ?_⟩, ?_⟩
  · have from_ : (m.adapter.data .adapter).tx.currBuf = chunk.1 + sent := currBuf
    rw [pushes, pushedDone, from_]
    simp [whole]
  · refine ⟨further, ?_, ?_, ?_, ?_, ?_, owner⟩
    · rw [Machine.tx, tx]
      exact buf
    · rw [Machine.tx, tx]
      show m.tx.currBuf + ret.toNat = _
      rw [currBuf, Nat.add_assoc]
    · rw [Machine.tx, tx]
      show m.tx.sizeLeft - ret.toNat = _
      rw [sizeLeft, Nat.sub_sub]
    · rw [Machine.tx, tx]
      exact enabled
    · exact ⟨Nat.le_trans resumedAt.1 (Nat.le_add_right ..), resumedAt.2⟩
  · refine ⟨backing.blocks, ?_, callback.trans backing.callback, stack.trans backing.stack⟩
    rw [mem]
    exact backing.contents

theorem txReady_inv {c : Config} {m t : Machine} {ret : Int} (inv : AbortInv c m)
    (taken : step c m (.txReady ret) = some t) : AbortInv c t := by
  obtain ⟨done, current, waiting, service, backing⟩ := inv
  simp only [step, Option.ite_none_right_eq_some, UartAdapter.resume] at taken
  obtain ⟨-, taken⟩ := taken
  by_cases all : (m.adapter.data .adapter).tx.sizeLeft = 0
  · rw [if_pos all] at taken
    cases taken
    exact ⟨done, current, waiting, service, backing⟩
  rw [if_neg all, Option.map_eq_some_iff] at taken
  obtain ⟨b, taken, rfl⟩ := taken
  simp only [Option.ite_none_right_eq_some, Option.some.injEq] at taken
  obtain ⟨bound, rfl⟩ := taken
  by_cases nothing : ret ≤ 0
  · have same : UartAdapter.onTxReady m.adapter ret = m.adapter := if_pos nothing
    rw [same]
    exact ⟨done, current, waiting, service, backing⟩
  cases current with
  | none => exact absurd service.stage.1.sizeLeft all
  | some part =>
      have pushedMore := push_service service backing (Int.not_le.mp nothing) bound
      exact ⟨done, some (part.1, part.2 + ret.toNat), waiting, pushedMore⟩

/-! ## Completion -/

/-- The chunk that comes after one that is done. -/
def nextOf (waiting : List Chunk) : Option (Chunk × Nat) := waiting.head?.map fun next => (next, 0)

theorem liveChunks_nextOf (waiting : List Chunk) :
    liveChunks (nextOf waiting) waiting.tail = waiting := by
  cases waiting <;> rfl

/-- A chunk that is done: no abort is remembered, and its buffer is freed. -/
def retire (app : App) (buf : Buf) : App :=
  { app with abortedBuf := NULL, abortedLen := 0 }.kFree buf

/-- Aborted or not, a chunk is freed by its own address, and the abort forgotten. -/
theorem Carried.txDone {m : Machine} {chunk : Chunk} {sent : Nat} (carried : Carried m chunk sent)
    (nonNull : chunk.1 ≠ NULL) {len : Nat} (nonempty : len ≠ 0) :
    NusBridge.txDone m.app (m.adapter.data .adapter).tx.buf len =
      (retire m.app chunk.1).nextTx := by
  have busy := carried.busy nonNull
  rcases carried.owner with ⟨plain, zero⟩ | owner
  · have buf : (m.adapter.data .adapter).tx.buf = chunk.1 := by
      have part : (m.adapter.data .adapter).tx.buf = chunk.1 + m.app.abortedLen := carried.buf
      rw [part, zero, Nat.add_zero]
    have same : { m.app with abortedBuf := NULL, abortedLen := 0 } = m.app :=
      calc { m.app with abortedBuf := NULL, abortedLen := 0 }
          = { m.app with abortedBuf := m.app.abortedBuf, abortedLen := m.app.abortedLen } := by
            rw [plain, zero]
        _ = m.app := rfl
    rw [txDone_plain nonempty busy plain, buf, retire, same]
  · have aborted : m.app.abortedBuf ≠ NULL := by
      rw [owner]
      exact nonNull
    rw [txDone_aborted nonempty busy aborted, owner]
    rfl

/-- The chunk is done, no abort is remembered, and the first of those that wait is
transmitted. -/
structure Finished (m : Machine) (done : List Chunk) (chunk : Chunk) (waiting : List Chunk) :
    Prop where
  service : Service m (done ++ [chunk]) (nextOf waiting) waiting.tail
  abortedBuf : m.app.abortedBuf = NULL
  abortedLen : m.app.abortedLen = 0

/-- A chunk whose bytes were all pushed is done by the next `on_tx_complete`. -/
theorem completes {c : Config} {m t : Machine} {done waiting : List Chunk} {chunk : Chunk}
    (service : Service m done (some (chunk, chunk.2.length)) waiting)
    (backing : Backing c m (chunk :: waiting)) (taken : step c m .txComplete = some t) :
    Finished t done chunk waiting ∧ Backing c t waiting := by
  obtain ⟨chunks, freedDone, fifo, pushedDone, stage⟩ := service
  have carried : Carried m chunk chunk.2.length := stage
  have nonNull := backing.nonNull List.mem_cons_self
  have all : (m.adapter.data .adapter).tx.sizeLeft = 0 := carried.sizeLeft.trans (Nat.sub_self _)
  have raised := onTxComplete_raised backing.callback (carried.busy nonNull) all
  simp only [step, Option.ite_none_right_eq_some, Option.some.injEq] at taken
  obtain ⟨-, rfl⟩ := taken
  generalize UartAdapter.onTxComplete m.adapter = b at raised
  rw [deliver_raised (raised.stack.trans (by rw [backing.stack])), uartCb]
  have currBuf : (m.adapter.data .adapter).tx.currBuf = chunk.1 + chunk.2.length := carried.currBuf
  have buf : (m.adapter.data .adapter).tx.buf = chunk.1 + m.app.abortedLen := carried.buf
  have nonempty : (m.adapter.data .adapter).tx.currBuf - (m.adapter.data .adapter).tx.buf ≠ 0 := by
    rw [currBuf, buf, Nat.add_sub_add_left]
    exact Nat.sub_ne_zero_of_lt carried.resumedAt.2
  rw [carried.txDone nonNull nonempty]
  have freedNow : freed (retire m.app chunk.1).log = (done ++ [chunk]).map (·.1) := by
    simp [retire, freed, App.kFree, App.note, ← freedDone]
  have pushedNow : pushed b.log = (done ++ [chunk]).flatMap (·.2) := by
    rw [raised.pushed, pushedDone]
    simp
  have blocks : Blocks c (retire m.app chunk.1) (waiting.map (·.1)) :=
    backing.blocks.free.of_same rfl rfl
  have contents := fun next member => backing.contents next (List.mem_cons_of_mem chunk member)
  cases waiting with
  | nil =>
      have empty : (retire m.app chunk.1).fifoUartTxData = [] := fifo
      rw [App.nextTx_nil empty]
      refine ⟨⟨⟨?_, freedNow, empty, ?_, ⟨raised.buf, raised.sizeLeft, rfl, rfl⟩, rfl⟩,
        rfl, rfl⟩, ?_⟩
      · simpa [nextOf] using chunks
      · exact pushedNow.trans (List.append_nil _).symm
      · exact ⟨Blocks.empty, by simp, raised.callback, rfl⟩
  | cons next rest =>
      have first : (retire m.app chunk.1).fifoUartTxData = next.1 :: rest.map (·.1) := fifo
      have len : (retire m.app chunk.1).len next.1 = next.2.length := backing.len (by simp)
      have positive : 0 < next.2.length := (backing.nonempty (by simp)).1
      rw [App.nextTx_cons first, len]
      obtain ⟨a, accepted, kept, started⟩ :=
        tx_idle (a := { b with stack := [] }) next.1 (Nat.ne_of_gt positive) raised.buf
      have called : (UartAdapter.tx { b with stack := [] } .adapter next.1 next.2.length
          SYS_FOREVER_MS).1 = a := congrArg Prod.fst accepted
      simp only [List.foldl_cons, List.foldl_nil, Machine.call]
      rw [called]
      refine ⟨⟨⟨?_, freedNow, rfl, ?_, ?_⟩, rfl, rfl⟩, ⟨?_, ?_, ?_, kept.stack⟩⟩
      · simpa [nextOf] using chunks
      · rw [kept.pushed]
        exact pushedNow.trans (List.append_nil _).symm
      · exact Carried.of_start (k := 0) started positive rfl (Or.inl ⟨rfl, rfl⟩)
      · exact blocks.of_same rfl rfl
      · rw [kept.mem, raised.mem]
        exact contents
      · exact kept.callback.trans raised.callback

/-- Outside any callback, nothing is delivered. -/
theorem deliver_none {c : Config} {m : Machine} (stack : m.adapter.stack = []) :
    deliver c m = m := by
  unfold deliver
  rw [stack]

/-- An adapter that has nothing is turned off. -/
theorem idle_inv {c : Config} {m : Machine} {done waiting : List Chunk} {b : UartAdapter.Machine}
    (service : Service m done none waiting) (backing : Backing c m (liveChunks none waiting))
    (kept : Kept m.adapter b) (buf : (b.data .adapter).tx.buf = NULL)
    (sizeLeft : (b.data .adapter).tx.sizeLeft = 0) :
    AbortInv c (deliver c { m with adapter := b }) := by
  rw [deliver_none (kept.stack.trans backing.stack)]
  obtain ⟨chunks, freedDone, fifo, pushedDone, idle, nothing⟩ := service
  refine ⟨done, none, waiting,
    ⟨chunks, freedDone, fifo, kept.pushed.trans pushedDone, ?_, nothing⟩, ?_⟩
  · exact ⟨buf, sizeLeft, idle.abortedBuf, idle.abortedLen⟩
  · refine ⟨backing.blocks, ?_, kept.callback.trans backing.callback,
      kept.stack.trans backing.stack⟩
    rw [kept.mem]
    exact backing.contents

theorem txComplete_inv {c : Config} {m t : Machine} (inv : AbortInv c m)
    (taken : step c m .txComplete = some t) : AbortInv c t := by
  obtain ⟨done, current, waiting, service, backing⟩ := inv
  cases current with
  | none =>
      simp only [step, Option.ite_none_right_eq_some, Option.some.injEq] at taken
      obtain ⟨-, rfl⟩ := taken
      have idle : Idle m := service.stage.1
      have buf : (m.adapter.data .adapter).tx.buf = NULL := idle.buf
      have sizeLeft : (m.adapter.data .adapter).tx.sizeLeft = 0 := idle.sizeLeft
      refine idle_inv service backing ⟨?_, ?_, ?_, ?_⟩ ?_ ?_ <;>
        simp [UartAdapter.onTxComplete, buf, sizeLeft]
  | some part =>
      obtain ⟨chunk, sent⟩ := part
      have carried : Carried m chunk sent := service.stage
      rcases Nat.lt_or_eq_of_le carried.within with more | rfl
      · simp only [step, Option.ite_none_right_eq_some, Option.some.injEq] at taken
        obtain ⟨-, rfl⟩ := taken
        have positive : (m.adapter.data .adapter).tx.sizeLeft ≠ 0 := by
          have sizeLeft : (m.adapter.data .adapter).tx.sizeLeft = chunk.2.length - sent :=
            carried.sizeLeft
          omega
        have same : UartAdapter.onTxComplete m.adapter = m.adapter := if_neg positive
        rw [same, deliver_none backing.stack]
        exact ⟨done, some (chunk, sent), waiting, service, backing⟩
      · obtain ⟨finished, still⟩ := completes service backing taken
        refine ⟨_, _, _, finished.service, ?_⟩
        rw [liveChunks_nextOf]
        exact still

/-! ## Aborts -/

/-- What an abort leaves is transmitted: it begins where the bytes pushed end. -/
theorem Carried.txAborted {c : Config} {m : Machine} {live : List Chunk} {chunk : Chunk}
    {sent : Nat} (carried : Carried m chunk sent) (backing : Backing c m live)
    (member : chunk ∈ live) :
    NusBridge.txAborted m.app (m.adapter.data .adapter).tx.buf
        ((m.adapter.data .adapter).tx.currBuf - (m.adapter.data .adapter).tx.buf) =
      ({ m.app with abortedBuf := chunk.1, abortedLen := sent },
        [.tx (chunk.1 + sent) (chunk.2.length - sent) SYS_FOREVER_MS]) := by
  have currBuf : (m.adapter.data .adapter).tx.currBuf = chunk.1 + sent := carried.currBuf
  have buf : (m.adapter.data .adapter).tx.buf = chunk.1 + m.app.abortedLen := carried.buf
  have fits : chunk.2.length < 2 ^ 16 := Nat.lt_of_le_of_lt (backing.nonempty member).2 c.fits
  have within := carried.within
  have added :
      (m.app.abortedLen + (chunk.1 + sent - (chunk.1 + m.app.abortedLen))) % 2 ^ 32 = sent := by
    have from_ := carried.resumedAt.1
    rw [Nat.add_sub_add_left, Nat.add_sub_cancel' from_]
    exact Nat.mod_eq_of_lt (by omega)
  have kept : (if m.app.abortedBuf = NULL then
      { m.app with abortedBuf := chunk.1 + m.app.abortedLen } else m.app) =
      { m.app with abortedBuf := chunk.1 } := by
    rcases carried.owner with ⟨plain, zero⟩ | owner
    · rw [if_pos plain, zero, Nat.add_zero]
    · have aborted : m.app.abortedBuf ≠ NULL := by
        rw [owner]
        exact backing.nonNull member
      rw [if_neg aborted, ← owner]
  have left : sizeSub chunk.2.length sent = chunk.2.length - sent := by
    unfold sizeSub
    omega
  unfold NusBridge.txAborted
  rw [currBuf, buf, kept]
  dsimp only
  rw [added, backing.len member, left]

/-- An abort of a chunk: the adapter has nothing, and is asked for what is left. -/
theorem Carried.abort {c : Config} {m : Machine} {live : List Chunk} {chunk : Chunk} {sent : Nat}
    (carried : Carried m chunk sent) (backing : Backing c m live) (member : chunk ∈ live) :
    ∃ b evt, Raised m.adapter b evt ∧ step c m .txAbort = some
      { app := { m.app with abortedBuf := chunk.1, abortedLen := sent }
        adapter := (UartAdapter.tx { b with stack := [] } .adapter (chunk.1 + sent)
          (chunk.2.length - sent) SYS_FOREVER_MS).1
        chunks := m.chunks } := by
  have busy := carried.busy (backing.nonNull member)
  have raised := txAbort_raised (UartAdapter.txAbortRet m.tx) backing.callback busy
  refine ⟨_, _, raised, ?_⟩
  rw [step, deliver_raised (raised.stack.trans (by rw [backing.stack])), uartCb,
    carried.txAborted backing member]
  rfl

theorem txAbort_inv {c : Config} {m t : Machine} (inv : AbortInv c m)
    (met : midway m .txAbort = true) (taken : step c m .txAbort = some t) : AbortInv c t := by
  obtain ⟨done, current, waiting, service, backing⟩ := inv
  cases current with
  | none =>
      simp only [step, Option.some.injEq] at taken
      subst taken
      have idle : Idle m := service.stage.1
      have buf : (m.adapter.data .adapter).tx.buf = NULL := idle.buf
      have sizeLeft : (m.adapter.data .adapter).tx.sizeLeft = 0 := idle.sizeLeft
      refine idle_inv service backing ⟨?_, ?_, ?_, ?_⟩ ?_ ?_ <;>
        simp [UartAdapter.txAbort, buf, sizeLeft, pushed]
  | some part =>
      obtain ⟨chunk, sent⟩ := part
      obtain ⟨chunks, freedDone, fifo, pushedDone, stage⟩ := service
      have carried : Carried m chunk sent := stage
      have member : chunk ∈ liveChunks (some (chunk, sent)) waiting := by simp [liveChunks]
      have busy : m.tx.buf ≠ NULL := carried.busy (backing.nonNull member)
      have more : sent < chunk.2.length := by
        have positive : m.tx.sizeLeft ≠ 0 := by simpa [midway, busy] using met
        have sizeLeft := carried.sizeLeft
        omega
      obtain ⟨b, evt, raised, aborted⟩ := carried.abort backing member
      cases aborted.symm.trans taken
      obtain ⟨a, accepted, kept, started⟩ := tx_idle (a := { b with stack := [] })
        (chunk.1 + sent) (Nat.sub_ne_zero_of_lt more) raised.buf
      have called : (UartAdapter.tx { b with stack := [] } .adapter (chunk.1 + sent)
          (chunk.2.length - sent) SYS_FOREVER_MS).1 = a := congrArg Prod.fst accepted
      rw [called]
      refine ⟨done, some (chunk, sent), waiting, ⟨chunks, freedDone, fifo, ?_, ?_⟩, ?_⟩
      · exact (kept.pushed.trans raised.pushed).trans pushedDone
      · exact Carried.of_start started more rfl (Or.inr rfl)
      · refine ⟨backing.blocks.of_same rfl rfl, ?_, kept.callback.trans raised.callback, kept.stack⟩
        rw [kept.mem, raised.mem]
        exact backing.contents

/-! ## The runs -/

theorem step_abortInv {c : Config} {m t : Machine} {a : Act} (inv : AbortInv c m)
    (met : midway m a = true) (taken : step c m a = some t) : AbortInv c t := by
  cases a with
  | send tx bytes => exact send_inv inv taken
  | txReady ret => exact txReady_inv inv taken
  | txComplete => exact txComplete_inv inv taken
  | txAbort => exact txAbort_inv inv met taken

theorem reachable_abortInv {c : Config} {m : Machine}
    (run : Reachable (step c) Init midway m) : AbortInv c m := by
  apply run.invariant (P := AbortInv c)
  · intro s init
    exact init_abortInv init
  · intro s a t inv met taken
    exact step_abortInv inv met taken

/-- The chunk in progress can always be finished: the target takes what is left of it. -/
theorem finishes {c : Config} {m : Machine} {done waiting : List Chunk} {chunk : Chunk}
    {sent : Nat} (service : Service m done (some (chunk, sent)) waiting)
    (backing : Backing c m (chunk :: waiting)) :
    ∃ t u, step c m (.txReady (chunk.2.length - sent : Nat)) = some t ∧
      step c t .txComplete = some u ∧ Finished u done chunk waiting := by
  have carried : Carried m chunk sent := service.stage
  have left : (m.adapter.data .adapter).tx.sizeLeft = chunk.2.length - sent := carried.sizeLeft
  have finish : ∀ t : Machine, Service t done (some (chunk, chunk.2.length)) waiting →
      Backing c t (chunk :: waiting) →
      ∃ u, step c t .txComplete = some u ∧ Finished u done chunk waiting := by
    intro t all still
    have enabled : t.tx.enabled = true := all.stage.enabled
    have taken : step c t .txComplete = some _ := if_pos enabled
    exact ⟨_, taken, (completes all still taken).1⟩
  rcases Nat.lt_or_eq_of_le carried.within with more | rfl
  · have fits : ((chunk.2.length - sent : Nat) : Int) ≤ (m.adapter.data .adapter).tx.sizeLeft := by
      omega
    have pushedAll := push_service service backing (by omega) fits
    have all : sent + ((chunk.2.length - sent : Nat) : Int).toNat = chunk.2.length := by omega
    rw [all] at pushedAll
    obtain ⟨u, taken, finished⟩ := finish _ pushedAll.1 pushedAll.2
    refine ⟨_, u, ?_, taken, finished⟩
    have positive : (m.adapter.data .adapter).tx.sizeLeft ≠ 0 := by omega
    simp only [step, carried.enabled, if_true, UartAdapter.resume]
    rw [if_neg positive, if_pos fits]
    rfl
  · obtain ⟨u, taken, finished⟩ := finish m service backing
    refine ⟨m, u, ?_, taken, finished⟩
    have nothing : (m.adapter.data .adapter).tx.sizeLeft = 0 := by omega
    simp only [step, carried.enabled, if_true, UartAdapter.resume]
    rw [if_pos nothing]
    rfl

/-- **Resumption.**  However often a transmission is aborted before its last byte was
pushed, the bytes pushed are those of the chunks in their order, once, and the chunks that
are done are freed, once.  The chunk in progress can be finished, and whenever the adapter
completes it, no abort is remembered and the next one is transmitted. -/
theorem resumed {c : Config} {m : Machine} (run : Reachable (step c) Init midway m) :
    ∃ done current waiting, Service m done current waiting ∧
      ∀ chunk sent, current = some (chunk, sent) →
        (sent = chunk.2.length → ∀ t, step c m .txComplete = some t →
          Finished t done chunk waiting) ∧
        ∃ t u, step c m (.txReady (chunk.2.length - sent : Nat)) = some t ∧
          step c t .txComplete = some u ∧ Finished u done chunk waiting := by
  obtain ⟨done, current, waiting, service, backing⟩ := reachable_abortInv run
  refine ⟨done, current, waiting, service, ?_⟩
  rintro chunk sent rfl
  refine ⟨?_, finishes service backing⟩
  rintro rfl t taken
  exact (completes service backing taken).1

/-! ## A chunk aborted twice, and one that waits -/

/-- Nothing is allocated or handed over, and the adapter is as after its initialization. -/
def start : Machine where
  app :=
    { currentBuf := NULL, abortedLen := 0, bufRelease := false, abortedBuf := NULL
      len := fun _ => 0, heap := [], fifoUartTxData := [], fifoUartRxData := []
      uartWork := false, log := [] }
  adapter :=
    { data := fun _ => UartAdapter.initData, irq := fun _ => ⟨false, false, false⟩
      mem := fun _ => 0, stack := [], log := [] }
  chunks := []

theorem init_start : Init start := ⟨rfl, rfl, rfl, rfl, ⟨rfl, rfl, rfl⟩, rfl⟩

/-- The chunk is aborted after two bytes and before the third; the other one follows. -/
def twoAborts : List Act :=
  [.send 100 [1, 2, 3], .send 200 [4], .txReady 2, .txAbort, .txAbort, .txReady 1, .txComplete]

theorem resumed_twoAborts :
    ∃ m, Reachable (step tiny) Init midway m ∧
      (pushed m.adapter.log = [1, 2, 3] ∧ freed m.app.log = [100] ∧ m.tx.buf = 200) ∧
      ∃ done current waiting, Service m done current waiting ∧
        ∀ chunk sent, current = some (chunk, sent) →
          (sent = chunk.2.length → ∀ t, step tiny m .txComplete = some t →
            Finished t done chunk waiting) ∧
          ∃ t u, step tiny m (.txReady (chunk.2.length - sent : Nat)) = some t ∧
            step tiny t .txComplete = some u ∧ Finished u done chunk waiting := by
  have found : (exec (step tiny) midway start twoAborts).any (fun m =>
      decide (pushed m.adapter.log = [1, 2, 3] ∧ freed m.app.log = [100] ∧
        m.tx.buf = 200)) = true := by
    decide +kernel
  obtain ⟨m, run, holds⟩ := exists_reachable_of_exec init_start found
  exact ⟨m, run, of_decide_eq_true holds, resumed run⟩

/-! ## An abort after the last byte -/

/-- The adapter has nothing and waits for nothing, and an abort is remembered. -/
structure Stranded (m : Machine) : Prop where
  buf : m.tx.buf = NULL
  enabled : m.tx.enabled = false
  stack : m.adapter.stack = []
  abortedBuf : m.app.abortedBuf ≠ NULL

/-- **What the condition is for.**  An abort between the last byte and its completion
asks for a transmission of no bytes, which the adapter ignores: the chunk is not freed,
and those that wait are not transmitted. -/
theorem last_abort_breaks {c : Config} {m t : Machine}
    (run : Reachable (step c) Init midway m) (last : midway m .txAbort = false)
    (taken : step c m .txAbort = some t) :
    Stranded t ∧ freed t.app.log = freed m.app.log ∧
      t.app.fifoUartTxData = m.app.fifoUartTxData ∧
      ¬ ∃ done current waiting, Service t done current waiting := by
  obtain ⟨done, current, waiting, service, backing⟩ := reachable_abortInv run
  obtain ⟨busy, nothing⟩ : m.tx.buf ≠ NULL ∧ m.tx.sizeLeft = 0 := by simpa [midway] using last
  cases current with
  | none => exact absurd service.stage.1.buf busy
  | some part =>
      obtain ⟨chunk, sent⟩ := part
      have carried : Carried m chunk sent := service.stage
      have member : chunk ∈ liveChunks (some (chunk, sent)) waiting := by simp [liveChunks]
      have nonNull := backing.nonNull member
      have nonempty := (backing.nonempty member).1
      have all : sent = chunk.2.length := by
        have sizeLeft := carried.sizeLeft
        have within := carried.within
        omega
      obtain ⟨b, evt, raised, aborted⟩ := carried.abort backing member
      cases aborted.symm.trans taken
      have ignored : (UartAdapter.tx { b with stack := [] } .adapter (chunk.1 + sent)
          (chunk.2.length - sent) SYS_FOREVER_MS).1 = { b with stack := [] } := by
        rw [all, Nat.sub_self]
        rfl
      rw [ignored]
      refine ⟨⟨raised.buf, raised.enabled, rfl, nonNull⟩, rfl, rfl, ?_⟩
      rintro ⟨done', current', waiting', service'⟩
      cases current' with
      | none => exact nonNull service'.stage.1.abortedBuf
      | some at' =>
          have still : (b.data .adapter).tx.enabled = true := service'.stage.enabled
          rw [raised.enabled] at still
          cases still

/-- Until another chunk is handed over, nothing happens. -/
theorem stranded_stays {c : Config} {m t : Machine} {a : Act} (stranded : Stranded m)
    (noSend : ∀ tx bytes, a ≠ .send tx bytes) (taken : step c m a = some t) :
    Stranded t ∧ t.app = m.app := by
  obtain ⟨buf, enabled, stack, abortedBuf⟩ := stranded
  cases a with
  | send tx bytes => exact absurd rfl (noSend tx bytes)
  | txReady ret => simp [step, enabled] at taken
  | txComplete => simp [step, enabled] at taken
  | txAbort =>
      simp only [step, Option.some.injEq] at taken
      subst taken
      have nothing : (m.adapter.data .adapter).tx.buf = NULL := buf
      have same (entry : Obs) : (UartAdapter.txAbort m.adapter .adapter entry).stack = [] := by
        simp [UartAdapter.txAbort, nothing, stack]
      rw [deliver_none (same _)]
      refine ⟨⟨?_, ?_, same _, abortedBuf⟩, rfl⟩
      · simp [Machine.tx, UartAdapter.txAbort, nothing]
      · simp [Machine.tx, UartAdapter.txAbort, nothing]

/-- Both bytes of the first chunk are pushed when it is aborted; the other one waits. -/
def lastAbort : List Act := [.send 100 [1, 2], .send 200 [3], .txReady 2, .txAbort]

theorem not_resumed_lastAbort :
    ∃ m, Reachable (step tiny) Init unguarded m ∧ Stranded m ∧
      pushed m.adapter.log = [1, 2] ∧ freed m.app.log = [] ∧ m.app.abortedBuf = 100 ∧
      m.app.abortedLen = 2 ∧ m.app.fifoUartTxData = [200] ∧
      ¬ ∃ done current waiting, Service m done current waiting := by
  have found : (exec (step tiny) unguarded start lastAbort).any (fun m =>
      decide ((m.tx.buf = NULL ∧ m.tx.enabled = false ∧ m.app.abortedBuf = 100) ∧
        m.adapter.stack.isEmpty ∧
        pushed m.adapter.log = [1, 2] ∧ freed m.app.log = [] ∧
        m.app.abortedLen = 2 ∧ m.app.fifoUartTxData = [200])) = true := by
    decide +kernel
  obtain ⟨m, run, holds⟩ := exists_reachable_of_exec init_start found
  obtain ⟨⟨buf, enabled, abortedBuf⟩, stack, pushedAll, freedNone, abortedLen, fifo⟩ :=
    of_decide_eq_true holds
  refine ⟨m, run, ⟨buf, enabled, List.isEmpty_iff.mp stack, ?_⟩, pushedAll, freedNone, abortedBuf,
    abortedLen, fifo, ?_⟩
  · rw [abortedBuf]
    decide
  rintro ⟨done, current, waiting, service⟩
  cases current with
  | none =>
      have null := service.stage.1.abortedBuf
      rw [abortedBuf] at null
      cases null
  | some part =>
      have still := service.stage.enabled
      rw [enabled] at still
      cases still

end NcsExp.NusBridge.Abort
