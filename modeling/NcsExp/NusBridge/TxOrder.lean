/-
# NcsExp.NusBridge.TxOrder -- the Bluetooth-to-UART direction

`bt_receive_cb` cuts a packet into chunks; it tries `uart_tx` with each, and puts it in
`fifo_uart_tx_data` if a transmission is active.  `UART_TX_DONE` starts the next chunk
of the FIFO.

* A step is one statement of `bt_receive_cb`, one byte on the wire, or a
  `UART_TX_DONE` with the whole callback.
* `ordered` is about the runs in which no `UART_TX_DONE` finds the FIFO empty while a
  chunk is between its failed `uart_tx` and its `k_fifo_put`.
* `window_breaks` says what such a `UART_TX_DONE` leads to: the chunk stays in the
  FIFO of an idle UART, or the next one overtakes it.
-/
import NcsExp.NusBridge.TxBlocks

namespace NcsExp.NusBridge.Tx

open NcsExp.Theory
open NcsExp.UartAdapter (NULL UartEvent)

set_option autoImplicit false

/-! ## The machine -/

/-- A transmission in progress. -/
structure Transfer where
  buf : Buf
  len : Nat
  sent : Nat
  deriving DecidableEq

/-- The next statement of `bt_receive_cb`, which has copied the packet up to `pos`. -/
inductive BtPc
  | idle
  | malloc (data : List UInt8) (pos : Nat)
  | uartTx (data : List UInt8) (pos : Nat) (tx : Buf)
  | fifoPut (data : List UInt8) (pos : Nat) (tx : Buf)
  deriving DecidableEq

/-- The test of the loop, line 474. -/
def BtPc.loop (data : List UInt8) (pos : Nat) : BtPc :=
  if pos = data.length then .idle else .malloc data pos

structure Machine where
  app : App
  mem : Memory UInt8
  uart : Option Transfer
  bt : BtPc
  /-- The packets received so far. -/
  packets : List (List UInt8)
  /-- The chunks filled so far. -/
  chunks : List Chunk
  /-- The chunks whose transmission was started. -/
  started : List Chunk
  /-- The bytes transmitted. -/
  wire : List UInt8

/-- An accepted `uart_tx`. -/
def Machine.start (m : Machine) (buf len : Nat) : Machine :=
  { m with
    uart := some { buf := buf, len := len, sent := 0 }
    started := m.started ++ [(buf, m.mem.load buf len)] }

/-- What the calls of the callback do; `uart_tx` fails while a transmission is active. -/
def Machine.call (m : Machine) : UartCall → Machine
  | .tx buf len _ => if m.uart = none then m.start buf len else m
  | _ => m

def callback (c : Config) (m : Machine) (evt : UartEvent) : Machine :=
  let done := uartCb c m.mem none m.app evt
  done.2.foldl Machine.call { m with app := done.1 }

inductive Act
  /-- `bt_receive_cb` is called with a packet. -/
  | receive (data : List UInt8)
  | malloc (tx : Buf)
  | uartTx
  | fifoPut
  /-- A byte is transmitted. -/
  | shift
  | txDone
  deriving DecidableEq

def step (c : Config) (m : Machine) : Act → Option Machine
  | .receive data =>
      if m.bt = .idle then
        some { m with bt := .loop data 0, packets := m.packets ++ [data] }
      else none
  | .malloc tx =>
      match m.bt with
      | .malloc data pos =>
          if Fresh c m.app tx then
            some { m with
              app := m.app.fill tx (chunk c data pos)
              mem := m.mem.store tx (chunk c data pos)
              bt := .uartTx data (pos + chunkLen c data.length pos) tx
              chunks := m.chunks ++ [(tx, chunk c data pos)] }
          else none
      | _ => none
  | .uartTx =>
      match m.bt with
      | .uartTx data pos tx =>
          if m.uart = none then some { m.start tx (m.app.len tx) with bt := .loop data pos }
          else some { m with bt := .fifoPut data pos tx }
      | _ => none
  | .fifoPut =>
      match m.bt with
      | .fifoPut data pos tx => some { m with app := m.app.txPut tx, bt := .loop data pos }
      | _ => none
  | .shift =>
      match m.uart with
      | some t =>
          if t.sent < t.len then
            some { m with
              wire := m.wire ++ [m.mem (t.buf + t.sent)]
              uart := some { t with sent := t.sent + 1 } }
          else none
      | none => none
  | .txDone =>
      match m.uart with
      | some t =>
          if t.sent = t.len then some (callback c { m with uart := none } (.txDone t.buf t.len))
          else none
      | none => none

/-- The UART is idle and nothing has been received. -/
structure Init (m : Machine) : Prop where
  abortedBuf : m.app.abortedBuf = NULL
  fifo : m.app.fifoUartTxData = []
  uart : m.uart = none
  bt : m.bt = .idle
  packets : m.packets = []
  chunks : m.chunks = []
  started : m.started = []
  wire : m.wire = []

/-! ## What is asked of it -/

/-- What is to be transmitted for a packet. -/
def forwarded (data : List UInt8) : List UInt8 :=
  if data.getLast? = some cr then data ++ [lf] else data

structure Ordered (m : Machine) : Prop where
  wire : m.wire <+: m.packets.flatMap forwarded
  /-- Chunks are transmitted in the order in which they were filled. -/
  order : m.started <+: m.chunks
  /-- No chunk waits for a UART that is idle. -/
  served : m.uart = none → m.bt = .idle → m.app.fifoUartTxData = []

/-- `UART_TX_DONE` does not find the FIFO empty while a chunk is on its way there. -/
def unraced (m : Machine) : Act → Bool
  | .txDone =>
      match m.bt with
      | .fifoPut _ _ _ => !m.app.fifoUartTxData.isEmpty
      | _ => true
  | _ => true

/-! ## Packets and chunks -/

/-- What is still to be copied of a packet. -/
def rest (data : List UInt8) (pos : Nat) : List UInt8 :=
  if pos = data.length then [] else (forwarded data).drop pos

theorem rest_zero (data : List UInt8) : rest data 0 = forwarded data := by
  unfold rest
  split
  · rename_i empty
    have nil := List.length_eq_zero_iff.mp empty.symm
    simp [nil, forwarded]
  · rfl

theorem chunkLen_pos (c : Config) {len pos : Nat} (more : pos < len) : 0 < chunkLen c len pos := by
  have room := c.room
  unfold chunkLen
  split <;> omega

theorem chunkLen_le (c : Config) (len pos : Nat) :
    chunkLen c len pos ≤ c.uartBufSize - 1 ∧ chunkLen c len pos ≤ len - pos := by
  unfold chunkLen
  split <;> omega

theorem length_chunk_le (c : Config) (data : List UInt8) (pos : Nat) :
    (chunk c data pos).length ≤ c.uartBufSize := by
  have room := c.room
  have bound := chunkLen_le c data.length pos
  unfold chunk
  split
  · simp only [List.length_append, List.length_take, List.length_drop, List.length_singleton]
    omega
  · simp only [List.length_take, List.length_drop]
    omega

theorem length_chunk_pos (c : Config) {data : List UInt8} {pos : Nat} (more : pos < data.length) :
    0 < (chunk c data pos).length := by
  have some_ := chunkLen_pos c more
  unfold chunk
  split
  · simp
  · simp only [List.length_take, List.length_drop]
    omega

/-- A chunk is the next piece of what is to be transmitted. -/
theorem rest_eq_chunk (c : Config) {data : List UInt8} {pos : Nat} (more : pos < data.length) :
    rest data pos = chunk c data pos ++ rest data (pos + chunkLen c data.length pos) := by
  have bound := (chunkLen_le c data.length pos).2
  have cut := List.take_append_drop (chunkLen c data.length pos) (data.drop pos)
  rw [List.drop_drop] at cut
  unfold rest chunk forwarded
  rw [if_neg (Nat.ne_of_lt more)]
  by_cases last : pos + chunkLen c data.length pos = data.length
  · have nothing : data.drop (pos + chunkLen c data.length pos) = [] := by simp [last]
    rw [nothing, List.append_nil] at cut
    simp only [last, true_and, if_true, List.append_nil]
    split
    · rw [List.drop_append_of_le_length (Nat.le_of_lt more), cut]
    · exact cut.symm
  · simp only [last, false_and, if_false]
    split
    · rw [List.drop_append_of_le_length (Nat.le_of_lt more),
        List.drop_append_of_le_length (by omega), ← List.append_assoc, cut]
    · exact cut.symm

/-! ## The invariant -/

namespace BtPc

/-- The chunk `bt_receive_cb` has filled and not yet handed on. -/
def held : BtPc → List Buf
  | .uartTx _ _ tx => [tx]
  | .fifoPut _ _ tx => [tx]
  | _ => []

/-- What `bt_receive_cb` is still to copy. -/
def rest : BtPc → List UInt8
  | .idle => []
  | .malloc data pos => Tx.rest data pos
  | .uartTx data pos _ => Tx.rest data pos
  | .fifoPut data pos _ => Tx.rest data pos

/-- Whether the chunk has been refused by `uart_tx`. -/
def refused : BtPc → Bool
  | .fifoPut _ _ _ => true
  | _ => false

/-- Where `pos` can be. -/
def Inside : BtPc → Prop
  | .idle => True
  | .malloc data pos => pos < data.length
  | .uartTx data pos _ => pos ≤ data.length
  | .fifoPut data pos _ => pos ≤ data.length

@[simp] theorem loop_held (data : List UInt8) (pos : Nat) : (loop data pos).held = [] := by
  unfold loop
  split <;> rfl

@[simp] theorem loop_refused (data : List UInt8) (pos : Nat) : (loop data pos).refused = false := by
  unfold loop
  split <;> rfl

@[simp] theorem loop_rest (data : List UInt8) (pos : Nat) :
    (loop data pos).rest = Tx.rest data pos := by
  unfold loop
  split
  · rename_i done
    exact (if_pos done).symm
  · rfl

theorem loop_inside {data : List UInt8} {pos : Nat} (inside : pos ≤ data.length) :
    (loop data pos).Inside := by
  unfold loop
  split
  · trivial
  · rename_i more
    exact Nat.lt_of_le_of_ne inside more

end BtPc

/-- The chunks that are waiting, in their order. -/
def Machine.waiting (m : Machine) : List Buf := m.app.fifoUartTxData ++ m.bt.held

/-- The chunks in use. -/
def Machine.live (m : Machine) : List Buf := m.uart.toList.map (·.buf) ++ m.waiting

/-- What is left of the transmission in progress. -/
def Machine.unsent (m : Machine) : List UInt8 :=
  match m.uart with
  | some t => m.mem.load (t.buf + t.sent) (t.len - t.sent)
  | none => []

/-- Where the chunks and their bytes are. -/
structure Layout (c : Config) (m : Machine) : Prop where
  notAborted : m.app.abortedBuf = NULL
  inside : m.bt.Inside
  blocks : Blocks c m.app m.live
  transfer : ∀ t, m.uart = some t → t.len = m.app.len t.buf ∧ t.sent ≤ t.len
  chunks : m.chunks = m.started ++ m.waiting.map fun b => (b, m.app.content m.mem b)
  wire : m.started.flatMap (·.2) = m.wire ++ m.unsent
  packets : m.packets.flatMap forwarded = m.chunks.flatMap (·.2) ++ m.bt.rest

/-- Chunks wait only while the UART transmits. -/
structure TxInv (c : Config) (m : Machine) : Prop extends Layout c m where
  busy : m.uart = none → m.app.fifoUartTxData = [] ∧ m.bt.refused = false

theorem TxInv.toOrdered {c : Config} {m : Machine} (inv : TxInv c m) : Ordered m := by
  refine ⟨?_, ?_, ?_⟩
  · rw [inv.packets, inv.chunks, List.flatMap_append, inv.wire, List.append_assoc,
      List.append_assoc]
    exact List.prefix_append _ _
  · rw [inv.chunks]
    exact List.prefix_append _ _
  · exact fun idle _ => (inv.busy idle).1

theorem init_txInv {c : Config} {m : Machine} (init : Init m) : TxInv c m := by
  obtain ⟨abortedBuf, fifo, uart, bt, packets, chunks, started, wire⟩ := init
  have waiting : m.waiting = [] := by simp [Machine.waiting, fifo, bt, BtPc.held]
  have live : m.live = [] := by simp [Machine.live, waiting, uart]
  refine ⟨⟨abortedBuf, ?_, ?_, ?_, ?_, ?_, ?_⟩, ?_⟩
  · rw [bt]
    trivial
  · rw [live]
    exact Blocks.empty
  · simp [uart]
  · simp [chunks, started, waiting]
  · simp [started, wire, Machine.unsent, uart]
  · simp [packets, chunks, bt, BtPc.rest]
  · rw [fifo, bt]
    exact fun _ => ⟨rfl, rfl⟩

/-- `bt_receive_cb` goes on; the chunks in use are the same, in the same order. -/
theorem TxInv.goOn {c : Config} {m : Machine} {app : App} {bt : BtPc} {packets : List (List UInt8)}
    (inv : TxInv c m) (heap : app.heap = m.app.heap) (len : app.len = m.app.len)
    (aborted : app.abortedBuf = m.app.abortedBuf)
    (waiting : app.fifoUartTxData ++ bt.held = m.waiting) (inside : bt.Inside)
    (busy : m.uart = none → app.fifoUartTxData = [] ∧ bt.refused = false)
    (rest : packets.flatMap forwarded = m.chunks.flatMap (·.2) ++ bt.rest) :
    TxInv c { m with app := app, bt := bt, packets := packets } := by
  refine ⟨⟨aborted.trans inv.notAborted, inside, ?_, ?_, ?_, inv.wire, rest⟩, busy⟩
  · show Blocks c app (m.uart.toList.map (·.buf) ++ (app.fifoUartTxData ++ bt.held))
    rw [waiting]
    exact inv.blocks.of_same heap len
  · rw [len]
    exact inv.transfer
  · show m.chunks =
      m.started ++ (app.fifoUartTxData ++ bt.held).map fun b => (b, app.content m.mem b)
    unfold App.content
    rw [waiting, len]
    exact inv.chunks

theorem receive_inv {c : Config} {m t : Machine} {data : List UInt8} (inv : TxInv c m)
    (taken : step c m (.receive data) = some t) : TxInv c t := by
  simp only [step, Option.ite_none_right_eq_some, Option.some.injEq] at taken
  obtain ⟨idle, rfl⟩ := taken
  refine inv.goOn rfl rfl rfl ?_ (BtPc.loop_inside (Nat.zero_le _)) ?_ ?_
  · rw [BtPc.loop_held, Machine.waiting, idle]
    rfl
  · intro none_
    exact ⟨(inv.busy none_).1, BtPc.loop_refused data 0⟩
  · have packets := inv.packets
    rw [idle] at packets
    rw [List.flatMap_append, packets, BtPc.loop_rest, rest_zero]
    simp [BtPc.rest]

theorem fifoPut_inv {c : Config} {m t : Machine} (inv : TxInv c m)
    (taken : step c m .fifoPut = some t) : TxInv c t := by
  simp only [step] at taken
  split at taken
  · rename_i data pos tx bt
    cases taken
    have inside := inv.inside
    have packets := inv.packets
    rw [bt] at inside packets
    refine inv.goOn rfl rfl rfl ?_ (BtPc.loop_inside inside) ?_ ?_
    · rw [BtPc.loop_held, List.append_nil, Machine.waiting, bt]
      rfl
    · intro none_
      have refused := (inv.busy none_).2
      rw [bt] at refused
      cases refused
    · rwa [BtPc.loop_rest]
  · cases taken

/-- The chunk that `uart_tx` accepts is the one that has waited longest. -/
theorem Layout.start {c : Config} {m : Machine} {app : App} {bt : BtPc} {buf : Buf}
    {waiting : List Buf} (inv : Layout c m) (idle : m.uart = none)
    (first : m.waiting = buf :: waiting) (heap : app.heap = m.app.heap) (len : app.len = m.app.len)
    (aborted : app.abortedBuf = m.app.abortedBuf)
    (later : app.fifoUartTxData ++ bt.held = waiting) (inside : bt.Inside)
    (rest : bt.rest = m.bt.rest) :
    TxInv c { m.start buf (m.app.len buf) with app := app, bt := bt } := by
  refine ⟨⟨aborted.trans inv.notAborted, inside, ?_, ?_, ?_, ?_, ?_⟩, fun none_ => nomatch none_⟩
  · show Blocks c app ([buf] ++ (app.fifoUartTxData ++ bt.held))
    have blocks := inv.blocks.of_same heap len
    rw [Machine.live, idle, first] at blocks
    rw [later]
    exact blocks
  · intro t active
    cases active
    rw [len]
    exact ⟨rfl, Nat.zero_le _⟩
  · have chunks := inv.chunks
    rw [first, List.map_cons] at chunks
    show m.chunks = (m.started ++ [(buf, m.app.content m.mem buf)]) ++
      (app.fifoUartTxData ++ bt.held).map fun b => (b, app.content m.mem b)
    unfold App.content at chunks ⊢
    rw [chunks, later, len, List.append_assoc]
    rfl
  · have wire := inv.wire
    unfold Machine.unsent at wire
    rw [idle, List.append_nil] at wire
    show (m.started ++ [(buf, m.mem.load buf (m.app.len buf))]).flatMap (·.2) =
      m.wire ++ m.mem.load (buf + 0) (m.app.len buf - 0)
    rw [List.flatMap_append, wire]
    simp
  · show m.packets.flatMap forwarded = m.chunks.flatMap (·.2) ++ bt.rest
    rw [rest]
    exact inv.packets

theorem uartTx_inv {c : Config} {m t : Machine} (inv : TxInv c m)
    (taken : step c m .uartTx = some t) : TxInv c t := by
  simp only [step] at taken
  split at taken
  · rename_i data pos tx bt
    have inside := inv.inside
    have packets := inv.packets
    rw [bt] at inside packets
    split at taken
    · rename_i idle
      cases taken
      have empty := (inv.busy idle).1
      have first : m.waiting = [tx] := by
        rw [Machine.waiting, empty, bt]
        rfl
      refine inv.toLayout.start idle first rfl rfl rfl ?_ (BtPc.loop_inside inside) ?_
      · show m.app.fifoUartTxData ++ (BtPc.loop data pos).held = []
        rw [empty, BtPc.loop_held]
        rfl
      · rw [bt, BtPc.loop_rest]
        rfl
    · rename_i active
      cases taken
      refine inv.goOn rfl rfl rfl ?_ inside ?_ packets
      · rw [Machine.waiting, bt]
        rfl
      · intro none_
        exact absurd none_ active
  · cases taken

/-- A fresh chunk gets the next piece of the packet. -/
theorem malloc_inv {c : Config} {m t : Machine} {tx : Buf} (inv : TxInv c m)
    (taken : step c m (.malloc tx) = some t) : TxInv c t := by
  simp only [step] at taken
  split at taken
  · rename_i data pos bt
    simp only [Option.ite_none_right_eq_some, Option.some.injEq] at taken
    obtain ⟨fresh, rfl⟩ := taken
    obtain ⟨⟨notAborted, inside, blocks, transfer, chunks, wire, packets⟩, busy⟩ := inv
    rw [bt] at inside packets
    have waiting : m.waiting = m.app.fifoUartTxData := by
      rw [Machine.waiting, bt]
      exact List.append_nil _
    have fits := length_chunk_le c data pos
    refine ⟨⟨notAborted, ?_, ?_, ?_, ?_, ?_, ?_⟩, fun none_ => ⟨(busy none_).1, rfl⟩⟩
    · show pos + chunkLen c data.length pos ≤ data.length
      have before : pos < data.length := inside
      have small := (chunkLen_le c data.length pos).2
      omega
    · show Blocks c _ (m.uart.toList.map (·.buf) ++ (m.app.fifoUartTxData ++ [tx]))
      rw [← waiting, ← List.append_assoc]
      exact blocks.fill fresh (length_chunk_pos c inside) fits
    · intro x active
      have inLive : x.buf ∈ m.live := by
        have isActive : m.uart = some x := active
        simp [Machine.live, isActive]
      show x.len = (m.app.fill tx (chunk c data pos)).len x.buf ∧ _
      rw [fill_len (blocks.ne_fresh fresh inLive)]
      exact transfer x active
    · show m.chunks ++ [(tx, chunk c data pos)] = m.started ++
        (m.app.fifoUartTxData ++ [tx]).map fun b =>
          (b, (m.app.fill tx (chunk c data pos)).content (m.mem.store tx (chunk c data pos)) b)
      rw [chunks, waiting, List.map_append, List.append_assoc, List.map_singleton, fill_content]
      refine congrArg _ (congrArg (· ++ _) (List.map_congr_left fun b member => ?_))
      have inLive : b ∈ m.live := by simp [Machine.live, waiting, member]
      rw [blocks.content_fill fresh inLive fits]
    · rw [wire]
      show m.wire ++ m.unsent = m.wire ++ (match m.uart with
        | some x => (m.mem.store tx (chunk c data pos)).load (x.buf + x.sent) (x.len - x.sent)
        | none => [])
      unfold Machine.unsent
      cases active : m.uart with
      | none => rfl
      | some x =>
          have inLive : x.buf ∈ m.live := by simp [Machine.live, active]
          have sent := transfer x active
          dsimp only
          rw [blocks.load_fill fresh inLive (by omega) fits]
    · show m.packets.flatMap forwarded = (m.chunks ++ [(tx, chunk c data pos)]).flatMap (·.2) ++
        rest data (pos + chunkLen c data.length pos)
      have next : rest data pos = _ := rest_eq_chunk c inside
      rw [packets, List.flatMap_append]
      show _ ++ rest data pos = _
      rw [next]
      simp
  · cases taken

/-- A byte goes from the chunk to the wire. -/
theorem shift_inv {c : Config} {m t : Machine} (inv : TxInv c m)
    (taken : step c m .shift = some t) : TxInv c t := by
  simp only [step] at taken
  split at taken
  · rename_i x active
    simp only [Option.ite_none_right_eq_some, Option.some.injEq] at taken
    obtain ⟨more, rfl⟩ := taken
    obtain ⟨⟨notAborted, inside, blocks, transfer, chunks, wire, packets⟩, busy⟩ := inv
    refine ⟨⟨notAborted, inside, ?_, ?_, chunks, ?_, packets⟩, fun none_ => nomatch none_⟩
    · rw [Machine.live, active] at blocks
      exact blocks
    · intro y isActive
      cases isActive
      exact ⟨(transfer x active).1, more⟩
    · have left : x.len - x.sent = 1 + (x.len - (x.sent + 1)) := by omega
      rw [wire]
      unfold Machine.unsent
      rw [active]
      dsimp only
      rw [left, Memory.load_add, ← List.append_assoc]
      rfl
  · cases taken

/-- The chunk is on the wire, and its buffer is freed. -/
theorem Layout.complete {c : Config} {m : Machine} {x : Transfer} (inv : Layout c m)
    (active : m.uart = some x) (complete : x.sent = x.len) :
    Layout c { m with app := m.app.kFree x.buf, uart := none } := by
  obtain ⟨notAborted, inside, blocks, transfer, chunks, wire, packets⟩ := inv
  refine ⟨notAborted, inside, ?_, ?_, chunks, ?_, packets⟩
  · rw [Machine.live, active] at blocks
    exact Blocks.free blocks
  · intro y isActive
    cases isActive
  · unfold Machine.unsent at wire ⊢
    rw [active] at wire
    dsimp only at wire
    rwa [complete, Nat.sub_self, Memory.load_zero] at wire

/-- `UART_TX_DONE`: the buffer is freed, and the chunk that waits longest is started. -/
theorem txDone_cases {c : Config} {m t : Machine} (inv : Layout c m)
    (taken : step c m .txDone = some t) : ∃ x, m.uart = some x ∧ x.sent = x.len ∧
      (m.app.fifoUartTxData = [] ∧ t = { m with app := m.app.kFree x.buf, uart := none } ∨
        ∃ buf rest, m.app.fifoUartTxData = buf :: rest ∧
          t = { m.start buf (m.app.len buf) with
            app := { m.app.kFree x.buf with fifoUartTxData := rest } }) := by
  simp only [step] at taken
  split at taken
  · rename_i x active
    simp only [Option.ite_none_right_eq_some, Option.some.injEq] at taken
    obtain ⟨complete, rfl⟩ := taken
    refine ⟨x, active, complete, ?_⟩
    have live : x.buf ∈ m.live := by simp [Machine.live, active]
    have nonempty : x.len ≠ 0 := by
      have pos := (inv.blocks.lens x.buf live).1
      have len := (inv.transfer x active).1
      omega
    have done : txDone m.app x.buf x.len = (m.app.kFree x.buf).nextTx :=
      txDone_plain nonempty (inv.blocks.nonNull x.buf live) inv.notAborted
    have call : callback c { m with uart := none } (.txDone x.buf x.len) =
        (txDone m.app x.buf x.len).2.foldl Machine.call
          { m with uart := none, app := (txDone m.app x.buf x.len).1 } :=
      rfl
    rw [call, done]
    cases fifo : m.app.fifoUartTxData with
    | nil =>
        have empty : (m.app.kFree x.buf).fifoUartTxData = [] := fifo
        rw [App.nextTx_nil empty]
        exact Or.inl ⟨rfl, rfl⟩
    | cons buf rest =>
        have first : (m.app.kFree x.buf).fifoUartTxData = buf :: rest := fifo
        rw [App.nextTx_cons first]
        exact Or.inr ⟨buf, rest, rfl, rfl⟩
  · cases taken

theorem txDone_inv {c : Config} {m t : Machine} (inv : TxInv c m) (met : unraced m .txDone = true)
    (taken : step c m .txDone = some t) : TxInv c t := by
  obtain ⟨x, active, complete, after⟩ := txDone_cases inv.toLayout taken
  have freed := inv.toLayout.complete active complete
  rcases after with ⟨empty, rfl⟩ | ⟨buf, rest, fifo, rfl⟩
  · refine ⟨freed, fun _ => ⟨empty, ?_⟩⟩
    show m.bt.refused = false
    cases bt : m.bt with
    | fifoPut data pos tx => simp [unraced, bt, empty] at met
    | _ => rfl
  · have first : m.waiting = buf :: (rest ++ m.bt.held) := by
      rw [Machine.waiting, fifo]
      rfl
    exact freed.start rfl first rfl rfl rfl rfl inv.inside rfl

/-! ## Every run -/

theorem step_txInv {c : Config} {m t : Machine} {a : Act} (inv : TxInv c m)
    (met : unraced m a = true) (taken : step c m a = some t) : TxInv c t := by
  cases a with
  | receive data => exact receive_inv inv taken
  | malloc tx => exact malloc_inv inv taken
  | uartTx => exact uartTx_inv inv taken
  | fifoPut => exact fifoPut_inv inv taken
  | shift => exact shift_inv inv taken
  | txDone => exact txDone_inv inv met taken

theorem reachable_txInv {c : Config} {m : Machine} (run : Reachable (step c) Init unraced m) :
    TxInv c m := by
  apply run.invariant
  · intro s init
    exact init_txInv init
  · intro s a t inv met taken
    exact step_txInv inv met taken

/-- **Order and delivery.**  In every run in which no `UART_TX_DONE` finds the FIFO empty
while a refused chunk is on its way there, the bytes transmitted are a prefix of what was
received, chunks keep their order, and none waits for an idle UART. -/
theorem ordered {c : Config} {m : Machine} (run : Reachable (step c) Init unraced m) : Ordered m :=
  (reachable_txInv run).toOrdered

/-! ### A run -/

/-- The state of the Bluetooth side before the first packet. -/
def booted : Machine where
  app :=
    { currentBuf := NULL
      abortedLen := 0
      bufRelease := false
      abortedBuf := NULL
      len := fun _ => 0
      heap := []
      fifoUartTxData := []
      fifoUartRxData := []
      uartWork := false
      log := [] }
  mem := fun _ => 0
  uart := none
  bt := .idle
  packets := []
  chunks := []
  started := []
  wire := []

theorem booted_init : Init booted := ⟨rfl, rfl, rfl, rfl, rfl, rfl, rfl, rfl⟩

/-- A packet that ends with a carriage return, in two chunks; the second waits. -/
def twoChunksRun : List Act :=
  [.receive [1, 2, 3, 4, 13], .malloc 100, .uartTx, .malloc 200, .shift, .uartTx, .fifoPut, .shift,
    .shift, .txDone, .shift, .shift, .shift, .txDone]

theorem ordered_twoChunksRun : ∃ m : Machine, Ordered m ∧ m.wire = [1, 2, 3, 4, 13, 10] := by
  have found : (exec (step tiny) unraced booted twoChunksRun).any
      (fun m => m.wire == [1, 2, 3, 4, 13, 10]) = true := by
    decide +kernel
  obtain ⟨m, run, shown⟩ := exists_reachable_of_exec booted_init found
  exact ⟨m, ordered run, beq_iff_eq.mp shown⟩

/-! ### The condition is needed -/

/-- While the UART is idle, the next chunk of the packet overtakes one that waits. -/
theorem overtaken {c : Config} {m : Machine} {data : List UInt8} {pos : Nat} {tx : Buf}
    {bytes : List UInt8} (bt : m.bt = .malloc data pos) (idle : m.uart = none)
    (chunks : m.chunks = m.started ++ [(tx, bytes)]) (heap : tx ∈ m.app.heap) :
    ∃ acts u, exec (step c) unguarded m acts = some u ∧ ¬ Ordered u := by
  obtain ⟨tx', fresh⟩ := exists_fresh c m.app
  have malloc : step c m (.malloc tx') = some { m with
      app := m.app.fill tx' (chunk c data pos)
      mem := m.mem.store tx' (chunk c data pos)
      bt := .uartTx data (pos + chunkLen c data.length pos) tx'
      chunks := m.chunks ++ [(tx', chunk c data pos)] } := by
    simp [step, bt, fresh]
  obtain ⟨u, uartTx, ⟨sent, started⟩, filled⟩ : ∃ u, step c { m with
      app := m.app.fill tx' (chunk c data pos)
      mem := m.mem.store tx' (chunk c data pos)
      bt := .uartTx data (pos + chunkLen c data.length pos) tx'
      chunks := m.chunks ++ [(tx', chunk c data pos)] } .uartTx = some u ∧
      (∃ sent, u.started = m.started ++ [(tx', sent)]) ∧
      u.chunks = m.chunks ++ [(tx', chunk c data pos)] :=
    ⟨_, if_pos idle, ⟨_, rfl⟩, rfl⟩
  refine ⟨[.malloc tx', .uartTx], u, ?_, fun after => ?_⟩
  · simp only [exec, unguarded, if_true, malloc, Option.bind_some, uartTx]
  · have order := after.order
    rw [started, filled, chunks, List.append_assoc, List.prefix_append_right_inj] at order
    have same := congrArg Prod.fst (List.cons_prefix_cons.mp order).1
    exact fresh.ne heap same.symm

/-- **The condition is needed.**  After a `UART_TX_DONE` in the window, the refused chunk
stays in the FIFO of an idle UART, or the next chunk of the packet overtakes it. -/
theorem window_breaks {c : Config} {m t : Machine} (run : Reachable (step c) Init unraced m)
    (raced : unraced m .txDone = false) (taken : step c m .txDone = some t) :
    ∃ acts u, exec (step c) unguarded t acts = some u ∧ ¬ Ordered u := by
  have inv := reachable_txInv run
  obtain ⟨x, active, complete, after⟩ := txDone_cases inv.toLayout taken
  have freed := inv.toLayout.complete active complete
  unfold unraced at raced
  dsimp only at raced
  split at raced
  · rename_i data pos tx bt
    have empty : m.app.fifoUartTxData = [] := by simpa using raced
    rcases after with ⟨_, rfl⟩ | ⟨buf, rest, fifo, _⟩
    · have chunks : m.chunks = m.started ++ [(tx, m.app.content m.mem tx)] := by
        rw [inv.chunks, Machine.waiting, empty, bt]
        rfl
      have heap : tx ∈ (m.app.kFree x.buf).heap := by
        apply freed.blocks.heap
        simp [Machine.live, Machine.waiting, bt, BtPc.held]
      have put : step c { m with app := m.app.kFree x.buf, uart := none } .fifoPut =
          some { m with
            app := (m.app.kFree x.buf).txPut tx, uart := none, bt := .loop data pos } := by
        simp [step, bt]
      by_cases last : pos = data.length
      · refine ⟨[.fifoPut], _, by simp only [exec, unguarded, if_true, put]; rfl, ?_⟩
        intro after
        have idle : BtPc.loop data pos = .idle := if_pos last
        have none_ : m.app.fifoUartTxData ++ [tx] = [] := after.served rfl idle
        simp at none_
      · have more : BtPc.loop data pos = .malloc data pos := if_neg last
        obtain ⟨acts, u, done, broken⟩ := overtaken (c := c) (m := { m with
          app := (m.app.kFree x.buf).txPut tx, uart := none, bt := .loop data pos })
          more rfl chunks heap
        refine ⟨.fifoPut :: acts, u, ?_, broken⟩
        simp only [exec, unguarded, if_true, put, Option.bind_some]
        exact done
    · rw [empty] at fifo
      cases fifo
  · cases raced

/-- Two chunks; the first is completely transmitted before the second is put in the
FIFO. -/
def windowRun : List Act :=
  [.receive [1, 2, 3, 4, 5, 6], .malloc 100, .uartTx, .malloc 200, .uartTx, .shift, .shift, .shift,
    .txDone, .fifoPut]

/-- **A chunk stalls.**  The UART is idle, the packet is handled, and half of it is in the
FIFO. -/
theorem chunk_stalls : ¬ ∀ m, Reachable (step tiny) Init unguarded m → Ordered m := by
  intro always
  have found : (exec (step tiny) unguarded booted windowRun).any
      (fun m => m.uart == none && m.bt == .idle && m.app.fifoUartTxData == [200]) = true := by
    decide +kernel
  obtain ⟨m, run, shown⟩ := exists_reachable_of_exec booted_init found
  simp only [Bool.and_eq_true, beq_iff_eq] at shown
  have served := (always m run).served shown.1.1 shown.1.2
  rw [shown.2] at served
  cases served

end NcsExp.NusBridge.Tx
