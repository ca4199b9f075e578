/-
# NcsExp.NusBridge.TxBlocks -- the transmit buffers in use

`Blocks` says of the buffers that are in use for transmission that they are allocated,
distinct and not empty; one lemma for each operation on them.
-/
import NcsExp.NusBridge.Model

namespace NcsExp.NusBridge

open NcsExp.Theory
open NcsExp.UartAdapter (NULL SYS_FOREVER_MS)

set_option autoImplicit false

/-- A chunk, and what was copied in it. -/
abbrev Chunk := Buf × List UInt8

structure Blocks (c : Config) (app : App) (live : List Buf) : Prop where
  distinct : live.Nodup
  heap : ∀ b ∈ live, b ∈ app.heap
  nonNull : ∀ b ∈ live, b ≠ NULL
  lens : ∀ b ∈ live, 0 < app.len b ∧ app.len b ≤ c.uartBufSize

namespace Blocks

variable {c : Config} {app : App} {mem : Memory UInt8} {live : List Buf} {tx b : Buf}
  {bytes : List UInt8}

theorem empty : Blocks c app [] := by
  refine ⟨?_, ?_, ?_, ?_⟩ <;> simp

theorem of_same (blocks : Blocks c app live) {app' : App} (heap : app'.heap = app.heap)
    (len : app'.len = app.len) : Blocks c app' live := by
  refine ⟨blocks.distinct, ?_, blocks.nonNull, ?_⟩
  · rw [heap]
    exact blocks.heap
  · rw [len]
    exact blocks.lens

theorem ne_fresh (blocks : Blocks c app live) (fresh : Fresh c app tx) (member : b ∈ live) :
    b ≠ tx :=
  fresh.ne (blocks.heap b member)

/-- A fresh buffer with bytes to transmit. -/
theorem fill (blocks : Blocks c app live) (fresh : Fresh c app tx) (nonempty : 0 < bytes.length)
    (fits : bytes.length ≤ c.uartBufSize) : Blocks c (app.fill tx bytes) (live ++ [tx]) := by
  have lenTx : (app.fill tx bytes).len tx = bytes.length := if_pos rfl
  refine ⟨?_, ?_, ?_, ?_⟩
  · rw [List.nodup_append]
    refine ⟨blocks.distinct, by simp, ?_⟩
    rintro b inLive b' inNew rfl
    exact blocks.ne_fresh fresh inLive (List.mem_singleton.mp inNew)
  · intro b member
    rcases List.mem_append.mp member with old | new
    · exact List.mem_cons_of_mem _ (blocks.heap b old)
    · rw [List.mem_singleton.mp new]
      exact List.mem_cons_self
  · intro b member
    rcases List.mem_append.mp member with old | new
    · exact blocks.nonNull b old
    · rw [List.mem_singleton.mp new]
      exact fresh.1
  · intro b member
    rcases List.mem_append.mp member with old | new
    · rw [fill_len (blocks.ne_fresh fresh old)]
      exact blocks.lens b old
    · rw [List.mem_singleton.mp new, lenTx]
      exact ⟨nonempty, fits⟩

theorem free (blocks : Blocks c app (tx :: live)) : Blocks c (app.kFree tx) live := by
  have distinct := List.nodup_cons.mp blocks.distinct
  refine ⟨distinct.2, fun b member => ?_, fun b member => ?_, fun b member => ?_⟩
  · have other : b ≠ tx := by
      rintro rfl
      exact distinct.1 member
    exact (List.mem_erase_of_ne other).mpr (blocks.heap b (List.mem_cons_of_mem _ member))
  · exact blocks.nonNull b (List.mem_cons_of_mem _ member)
  · exact blocks.lens b (List.mem_cons_of_mem _ member)

/-- What is copied in a fresh buffer changes none of the others. -/
theorem load_fill (blocks : Blocks c app live) (fresh : Fresh c app tx) (member : b ∈ live)
    {offset n : Nat} (inside : offset + n ≤ app.len b) (fits : bytes.length ≤ c.uartBufSize) :
    (mem.store tx bytes).load (b + offset) n = mem.load (b + offset) n := by
  have bound := (blocks.lens b member).2
  exact NusBridge.load_fill fresh (blocks.heap b member) (by omega) fits

theorem content_fill (blocks : Blocks c app live) (fresh : Fresh c app tx) (member : b ∈ live)
    (fits : bytes.length ≤ c.uartBufSize) :
    (app.fill tx bytes).content (mem.store tx bytes) b = app.content mem b := by
  have inside : 0 + app.len b ≤ app.len b := by omega
  rw [App.content, fill_len (blocks.ne_fresh fresh member)]
  exact blocks.load_fill fresh member inside fits

end Blocks

/-! ## The end of a transmission -/

/-- The chunk that `UART_TX_DONE` takes from the FIFO. -/
def App.nextTx (app : App) : App × List UartCall :=
  match app.fifoUartTxData with
  | [] => (app, [])
  | buf :: rest => ({ app with fifoUartTxData := rest }, [.tx buf (app.len buf) SYS_FOREVER_MS])

theorem App.nextTx_nil {app : App} (empty : app.fifoUartTxData = []) : app.nextTx = (app, []) := by
  unfold App.nextTx
  rw [empty]

theorem App.nextTx_cons {app : App} {buf : Buf} {rest : List Buf}
    (first : app.fifoUartTxData = buf :: rest) :
    app.nextTx =
      ({ app with fifoUartTxData := rest }, [.tx buf (app.len buf) SYS_FOREVER_MS]) := by
  unfold App.nextTx
  rw [first]

/-- A chunk that was not aborted is freed by the address in the event. -/
theorem txDone_plain {app : App} {buf len : Nat} (nonempty : len ≠ 0) (nonNull : buf ≠ NULL)
    (plain : app.abortedBuf = NULL) : txDone app buf len = (app.kFree buf).nextTx := by
  unfold txDone
  rw [if_neg (not_or.mpr ⟨nonempty, nonNull⟩)]
  simp only [plain, ne_eq, not_true_eq_false, if_false]
  rfl

/-- A chunk that was aborted is freed by the address kept in `aborted_buf`. -/
theorem txDone_aborted {app : App} {buf len : Nat} (nonempty : len ≠ 0) (nonNull : buf ≠ NULL)
    (aborted : app.abortedBuf ≠ NULL) :
    txDone app buf len =
      ({ app with abortedBuf := NULL, abortedLen := 0 }.kFree app.abortedBuf).nextTx := by
  unfold txDone
  rw [if_neg (not_or.mpr ⟨nonempty, nonNull⟩)]
  simp only [aborted, ne_eq, not_false_eq_true, if_true]
  rfl

end NcsExp.NusBridge
