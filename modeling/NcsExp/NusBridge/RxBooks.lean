/-
# NcsExp.NusBridge.RxBooks -- the account of the receive buffers

`Books` is the account of the buffers, whatever the driver does: which are held for the
driver (`mine`), which are in the FIFO or with `ble_write_thread`, and what is in them.
Each operation of the callback and of the thread has one lemma.
-/
import NcsExp.NusBridge.RxModel

namespace NcsExp.NusBridge

open NcsExp.Theory
open NcsExp.UartAdapter (NULL)

set_option autoImplicit false

/-! ## Logs -/

@[simp] theorem life_nil : life [] = fun _ => .free := rfl

@[simp] theorem life_snoc (log : List Entry) (e : Entry) (b : Buf) :
    life (log ++ [e]) b = Life.observe (life log) e b := by
  simp [life]

@[simp] theorem puts_snoc (log : List Entry) (e : Entry) :
    puts (log ++ [e]) = puts log ++ puts [e] := by
  simp [puts]

/-- An entry that puts nothing. -/
theorem puts_kept {log : List Entry} {e : Entry} (nothing : puts [e] = []) :
    puts (log ++ [e]) = puts log := by
  rw [puts_snoc, nothing, List.append_nil]

@[simp] theorem sents_snoc (log : List Entry) (e : Entry) :
    sents (log ++ [e]) = sents log ++ sents [e] := by
  simp [sents]

/-! ## The books -/

/-- The account of the buffers; `mine` are those held for the driver. -/
structure Books (c : Config) (app : App) (mem : Memory UInt8) (ble : BlePc) (mine : Buf → Prop) :
    Prop where
  once : Always Once app.log
  held : ∀ b, life app.log b = .held ↔ mine b
  queued : ∀ b, life app.log b = .queued ↔ b ∈ ble.holds ++ app.fifoUartRxData
  distinct : (ble.holds ++ app.fifoUartRxData).Nodup
  heap : ∀ b, b ∈ app.heap ↔ life app.log b ≠ .free
  heapOnce : app.heap.Nodup
  apart : ∀ p ∈ app.heap, ∀ q ∈ app.heap, p ≠ q → Apart c.uartBufSize p q
  nonNull : ∀ b ∈ app.heap, b ≠ NULL
  bound : ∀ b ∈ app.heap, app.len b ≤ c.uartBufSize
  unmodified : puts app.log = sents app.log ++
    (ble.unsent ++ app.fifoUartRxData).map fun b => (b, app.content mem b)

theorem BlePc.unsent_subset (ble : BlePc) : ∀ b ∈ ble.unsent, b ∈ ble.holds := by
  cases ble <;> simp [BlePc.unsent, BlePc.holds]

namespace Books

variable {c : Config} {app : App} {mem : Memory UInt8} {ble : BlePc} {mine : Buf → Prop} {buf : Buf}

theorem congr (books : Books c app mem ble mine) {mine' : Buf → Prop}
    (same : ∀ b, mine b ↔ mine' b) : Books c app mem ble mine' :=
  { books with held := fun b => (books.held b).trans (same b) }

/-- The books are about the log, the heap, the lengths and the FIFO. -/
theorem of_same (books : Books c app mem ble mine) {app' : App} (log : app'.log = app.log)
    (heap : app'.heap = app.heap) (len : app'.len = app.len)
    (fifo : app'.fifoUartRxData = app.fifoUartRxData) : Books c app' mem ble mine := by
  obtain ⟨once, held, queued, distinct, inHeap, heapOnce, apart, nonNull, bound, unmodified⟩ :=
    books
  refine ⟨?_, ?_, ?_, ?_, ?_, ?_, ?_, ?_, ?_, ?_⟩
  · rwa [log]
  · rwa [log]
  · rwa [log, fifo]
  · rwa [fifo]
  · rwa [log, heap]
  · rwa [heap]
  · rwa [heap]
  · rwa [heap]
  · rwa [heap, len]
  · unfold App.content at *
    rwa [log, fifo, len]

theorem mem_heap_of_queued (books : Books c app mem ble mine)
    (member : buf ∈ ble.holds ++ app.fifoUartRxData) : buf ∈ app.heap := by
  rw [books.heap, (books.queued buf).mpr member]
  simp

theorem mem_heap_of_mine (books : Books c app mem ble mine) (own : mine buf) : buf ∈ app.heap := by
  rw [books.heap, (books.held buf).mpr own]
  simp

theorem not_queued_of_mine (books : Books c app mem ble mine) (own : mine buf) :
    buf ∉ ble.holds ++ app.fifoUartRxData := by
  intro member
  have queued := (books.queued buf).mpr member
  rw [(books.held buf).mpr own] at queued
  cases queued

/-- Contents that are as they were. -/
theorem contents_congr {app' : App} {mem' : Memory UInt8} {list : List Buf}
    (same : ∀ b ∈ list, app'.content mem' b = app.content mem b) :
    (list.map fun b => (b, app'.content mem' b)) = list.map fun b => (b, app.content mem b) := by
  apply List.map_congr_left
  intro b member
  rw [same b member]

theorem fresh_free (books : Books c app mem ble mine) (fresh : Fresh c app buf) :
    life app.log buf = .free := by
  by_contra live
  exact fresh.ne ((books.heap buf).mpr live) rfl

/-- `k_malloc`. -/
theorem malloc (books : Books c app mem ble mine) (fresh : Fresh c app buf) :
    Books c (app.kMalloc buf) mem ble (fun b => b = buf ∨ mine b) := by
  have free := books.fresh_free fresh
  have notQueued : buf ∉ ble.holds ++ app.fifoUartRxData := by
    intro member
    have queued := (books.queued buf).mpr member
    rw [free] at queued
    cases queued
  have notHeap : buf ∉ app.heap := by
    rw [books.heap]
    simp [free]
  have log : (app.kMalloc buf).log = app.log ++ [Entry.allocated buf] := rfl
  have heap : (app.kMalloc buf).heap = buf :: app.heap := rfl
  have fifo : (app.kMalloc buf).fifoUartRxData = app.fifoUartRxData := rfl
  refine ⟨?_, fun b => ?_, fun b => ?_, books.distinct, fun b => ?_, ?_, ?_, ?_, ?_, ?_⟩
  · rw [log, always_snoc]
    exact ⟨books.once, free⟩
  · rw [log, life_snoc]
    show (if b = buf then Life.held else life app.log b) = .held ↔ _
    by_cases same : b = buf
    · simp [same]
    · rw [if_neg same, books.held]
      simp [same]
  · rw [log, life_snoc, fifo]
    show (if b = buf then Life.held else life app.log b) = .queued ↔ _
    by_cases same : b = buf
    · simpa [same] using notQueued
    · rw [if_neg same, books.queued]
  · rw [log, life_snoc, heap, List.mem_cons]
    show _ ↔ (if b = buf then Life.held else life app.log b) ≠ .free
    by_cases same : b = buf
    · simp [same]
    · rw [if_neg same, books.heap]
      simp [same]
  · rw [heap, List.nodup_cons]
    exact ⟨notHeap, books.heapOnce⟩
  · rw [heap]
    intro p inP q inQ other
    rcases List.mem_cons.mp inP with rfl | oldP
    · rcases List.mem_cons.mp inQ with rfl | oldQ
      · exact absurd rfl other
      · exact fresh.2 q oldQ
    · rcases List.mem_cons.mp inQ with rfl | oldQ
      · exact (fresh.2 p oldP).symm
      · exact books.apart p oldP q oldQ other
  · rw [heap]
    intro b member
    rcases List.mem_cons.mp member with rfl | old
    · exact fresh.1
    · exact books.nonNull b old
  · rw [heap]
    intro b member
    show (if b = buf then 0 else app.len b) ≤ _
    split
    · exact Nat.zero_le _
    · rename_i other
      exact books.bound b ((List.mem_cons.mp member).resolve_left other)
  · rw [log, puts_snoc, sents_snoc, fifo]
    show puts app.log ++ [] = (sents app.log ++ []) ++ _
    rw [List.append_nil, List.append_nil, books.unmodified]
    refine congrArg _ (contents_congr fun b member => ?_).symm
    have other : b ≠ buf := by
      rintro rfl
      rcases List.mem_append.mp member with unsent | inFifo
      · exact notQueued (List.mem_append_left _ (ble.unsent_subset b unsent))
      · exact notQueued (List.mem_append_right _ inFifo)
    show mem.load b (if b = buf then 0 else app.len b) = _
    rw [if_neg other]
    rfl

/-- `k_fifo_put`. -/
theorem put (books : Books c app mem ble mine) (own : mine buf) :
    Books c (app.rxPut mem buf) mem ble (fun b => mine b ∧ b ≠ buf) := by
  have held := (books.held buf).mpr own
  have log : (app.rxPut mem buf).log = app.log ++ [Entry.rxPut buf (app.content mem buf)] := rfl
  have fifo : (app.rxPut mem buf).fifoUartRxData = app.fifoUartRxData ++ [buf] := rfl
  refine ⟨?_, fun b => ?_, fun b => ?_, ?_, fun b => ?_, books.heapOnce, books.apart,
    books.nonNull, books.bound, ?_⟩
  · rw [log, always_snoc]
    exact ⟨books.once, held⟩
  · rw [log, life_snoc]
    show (if b = buf then Life.queued else life app.log b) = .held ↔ _
    by_cases same : b = buf
    · simp [same]
    · rw [if_neg same, books.held]
      simp [same]
  · rw [log, life_snoc, fifo, ← List.append_assoc, List.mem_append, ← books.queued b]
    show (if b = buf then Life.queued else life app.log b) = .queued ↔ _
    by_cases same : b = buf
    · simp [same]
    · simp [same]
  · rw [fifo, ← List.append_assoc, List.nodup_append]
    refine ⟨books.distinct, by simp, ?_⟩
    rintro x inOld y inNew rfl
    rw [List.mem_singleton.mp inNew] at inOld
    exact books.not_queued_of_mine own inOld
  · rw [log, life_snoc]
    show b ∈ app.heap ↔ (if b = buf then Life.queued else life app.log b) ≠ .free
    by_cases same : b = buf
    · rw [same, if_pos rfl]
      simpa using books.mem_heap_of_mine own
    · rw [if_neg same, books.heap]
  · rw [log, puts_snoc, sents_snoc, fifo]
    show puts app.log ++ [(buf, app.content mem buf)] = (sents app.log ++ []) ++
      (ble.unsent ++ (app.fifoUartRxData ++ [buf])).map fun b => (b, app.content mem b)
    rw [books.unmodified, List.append_nil]
    simp

/-- `k_free`, of a buffer that nobody has queued. -/
theorem kFree (books : Books c app mem ble mine) {ble' : BlePc} (live : buf ∈ app.heap)
    (queued : ∀ b, b ∈ ble'.holds ++ app.fifoUartRxData ↔
      b ∈ ble.holds ++ app.fifoUartRxData ∧ b ≠ buf)
    (distinct : (ble'.holds ++ app.fifoUartRxData).Nodup) (unsent : ble'.unsent = ble.unsent) :
    Books c (app.kFree buf) mem ble' (fun b => mine b ∧ b ≠ buf) := by
  have log : (app.kFree buf).log = app.log ++ [Entry.freed buf] := rfl
  have heap : (app.kFree buf).heap = app.heap.erase buf := rfl
  have old : ∀ b ∈ (app.kFree buf).heap, b ∈ app.heap :=
    fun b member => List.mem_of_mem_erase member
  refine ⟨?_, fun b => ?_, fun b => ?_, distinct, fun b => ?_, books.heapOnce.erase buf, ?_, ?_, ?_,
    ?_⟩
  · rw [log, always_snoc]
    exact ⟨books.once, (books.heap buf).mp live⟩
  · rw [log, life_snoc]
    show (if b = buf then Life.free else life app.log b) = .held ↔ _
    by_cases same : b = buf
    · simp [same]
    · rw [if_neg same, books.held]
      simp [same]
  · rw [log, life_snoc]
    show (if b = buf then Life.free else life app.log b) = .queued ↔
      b ∈ ble'.holds ++ app.fifoUartRxData
    rw [queued]
    by_cases same : b = buf
    · simp [same]
    · rw [if_neg same, books.queued]
      simp [same]
  · rw [log, life_snoc, heap, books.heapOnce.mem_erase_iff]
    show _ ↔ (if b = buf then Life.free else life app.log b) ≠ .free
    by_cases same : b = buf
    · simp [same]
    · rw [if_neg same, books.heap]
      simp [same]
  · exact fun p inP q inQ => books.apart p (old p inP) q (old q inQ)
  · exact fun b member => books.nonNull b (old b member)
  · exact fun b member => books.bound b (old b member)
  · rw [log, puts_snoc, sents_snoc, unsent]
    show puts app.log ++ [] = (sents app.log ++ []) ++ _
    rw [List.append_nil, List.append_nil]
    exact books.unmodified

/-- `k_free` of a buffer that is held for the driver. -/
theorem free_mine (books : Books c app mem ble mine) (own : mine buf) :
    Books c (app.kFree buf) mem ble (fun b => mine b ∧ b ≠ buf) := by
  refine books.kFree (books.mem_heap_of_mine own) (fun b => ?_) books.distinct rfl
  constructor
  · intro member
    refine ⟨member, ?_⟩
    rintro rfl
    exact books.not_queued_of_mine own member
  · exact And.left

/-- `k_free` by `ble_write_thread`. -/
theorem free_ble (books : Books c app mem (.free buf) mine) :
    Books c (app.kFree buf) mem .fifoGet mine := by
  have first : buf ∈ BlePc.holds (.free buf) ++ app.fifoUartRxData := by simp [BlePc.holds]
  have distinct := books.distinct
  rw [BlePc.holds, List.singleton_append, List.nodup_cons] at distinct
  have freed : Books c (app.kFree buf) mem .fifoGet (fun b => mine b ∧ b ≠ buf) := by
    have later : (BlePc.fifoGet.holds ++ app.fifoUartRxData).Nodup := distinct.2
    refine books.kFree (books.mem_heap_of_queued first) (fun b => ?_) later rfl
    show b ∈ app.fifoUartRxData ↔ b ∈ buf :: app.fifoUartRxData ∧ b ≠ buf
    rw [List.mem_cons]
    constructor
    · intro member
      refine ⟨Or.inr member, ?_⟩
      rintro rfl
      exact distinct.1 member
    · rintro ⟨either, other⟩
      exact either.resolve_left other
  refine freed.congr fun b => ⟨And.left, fun own => ⟨own, ?_⟩⟩
  rintro rfl
  exact books.not_queued_of_mine own first

/-- `k_fifo_get` by `ble_write_thread`. -/
theorem get {rest : List Buf} (books : Books c app mem .fifoGet mine)
    (fifo : app.fifoUartRxData = buf :: rest) :
    Books c { app with fifoUartRxData := rest } mem (.nusSend buf) mine := by
  obtain ⟨once, held, queued, distinct, heap, heapOnce, apart, nonNull, bound, unmodified⟩ := books
  rw [fifo] at queued distinct unmodified
  exact ⟨once, held, queued, distinct, heap, heapOnce, apart, nonNull, bound, unmodified⟩

/-- `bt_nus_send`. -/
theorem send (books : Books c app mem (.nusSend buf) mine) :
    Books c (app.note (.nusSent buf (app.content mem buf))) mem (.free buf) mine := by
  have first : buf ∈ BlePc.holds (.nusSend buf) ++ app.fifoUartRxData := by simp [BlePc.holds]
  obtain ⟨once, held, queued, distinct, heap, heapOnce, apart, nonNull, bound, unmodified⟩ := books
  have log : (app.note (.nusSent buf (app.content mem buf))).log =
      app.log ++ [Entry.nusSent buf (app.content mem buf)] := rfl
  refine ⟨?_, ?_, ?_, distinct, ?_, heapOnce, apart, nonNull, bound, ?_⟩
  · rw [log, always_snoc]
    exact ⟨once, (queued buf).mpr first⟩
  · rw [log]
    intro b
    rw [life_snoc]
    exact held b
  · rw [log]
    intro b
    rw [life_snoc]
    exact queued b
  · rw [log]
    intro b
    rw [life_snoc]
    exact heap b
  · rw [log, puts_snoc, sents_snoc]
    show puts app.log ++ [] = (sents app.log ++ [(buf, app.content mem buf)]) ++
      app.fifoUartRxData.map fun b => (b, app.content mem b)
    rw [List.append_nil, unmodified]
    simp [BlePc.unsent]

/-- The driver writes in a buffer it holds, and `buf->len` follows. -/
theorem write (books : Books c app mem ble mine) (own : mine buf) {n k : Nat} {bytes : List UInt8}
    (fits : n + bytes.length ≤ c.uartBufSize) (small : k ≤ c.uartBufSize) :
    Books c (app.setLen buf k) (mem.store (buf + n) bytes) ble mine := by
  refine ⟨books.once, books.held, books.queued, books.distinct, books.heap, books.heapOnce,
    books.apart, books.nonNull, ?_, ?_⟩
  · intro b member
    show (if b = buf then k else app.len b) ≤ _
    split
    · exact small
    · exact books.bound b member
  · refine books.unmodified.trans (congrArg _ (contents_congr fun b member => ?_).symm)
    have inQueue : b ∈ ble.holds ++ app.fifoUartRxData := by
      rcases List.mem_append.mp member with unsent | inFifo
      · exact List.mem_append_left _ (ble.unsent_subset b unsent)
      · exact List.mem_append_right _ inFifo
    have other : b ≠ buf := by
      rintro rfl
      exact books.not_queued_of_mine own inQueue
    have inHeap := books.mem_heap_of_queued inQueue
    have bound := books.bound b inHeap
    show (mem.store (buf + n) bytes).load b (if b = buf then k else app.len b) = _
    rw [if_neg other]
    rcases books.apart b inHeap buf (books.mem_heap_of_mine own) other with below | above
    · exact Memory.load_store_below mem bytes (by omega)
    · exact Memory.load_store_above mem bytes (by omega)

end Books

end NcsExp.NusBridge
