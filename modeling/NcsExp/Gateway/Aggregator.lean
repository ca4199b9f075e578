/-
# NcsExp.Gateway.Aggregator -- the aggregator is a bounded drop-oldest queue

`aggregator.c` keeps the sensor data of the gateway in a kernel FIFO of allocated
entries, and their number in `entry_count`.  A put on a full queue takes the oldest
entry out and uses it again.

* The functions follow the source; they run with interrupts locked, so that each is one
  step.  Whether `k_malloc` succeeds, and which block it returns, is up to the
  environment.
* `reference` is the queue that the calls say there is, by what they returned;
  `drop_oldest_fifo` says that the FIFO is that queue, that the calls return what it
  demands, and what becomes of each entry.
-/
import NcsExp.Theory.DropOldest
import NcsExp.Theory.History
import NcsExp.Theory.Memory
import NcsExp.Theory.Runs
import Mathlib.Algebra.Group.Nat.Defs
import Mathlib.Data.List.Nodup

namespace NcsExp.Gateway

open NcsExp.Theory

set_option autoImplicit false

/-! ## Data -/

/-- `GPS_NMEA_SENTENCE_MAX_LENGTH`, `ENTRY_MAX_SIZE` and `FIFO_MAX_ELEMENT_COUNT`. -/
def gpsNmeaSentenceMaxLength : Nat := 83
def entryMaxSize : Nat := gpsNmeaSentenceMaxLength + 4
def fifoMaxElementCount : Nat := 12

def EINVAL : Int := 22
def ENOMEM : Int := 12
def ENODATA : Int := 61

/-- `enum sensor_data_type`; a variable of this type may hold anything. -/
inductive SensorDataType
  | thingyOrientation
  | gpsPosition
  | thingyButton
  | unsupported (code : Int)
  deriving DecidableEq

/-- `struct sensor_data`; `data` is the array of `ENTRY_MAX_SIZE` bytes, by index. -/
structure SensorData where
  length : UInt8
  type : SensorDataType
  data : Memory UInt8

/-- A `struct fifo_entry *`. -/
abbrev Ptr := Nat

inductive HeapEntry
  | allocated (p : Ptr)
  | got (p : Ptr)
  | put (p : Ptr)
  | freed (p : Ptr)
  deriving DecidableEq

structure Aggregator where
  aggregatorFifo : List Ptr
  /-- Of type `uint32_t`. -/
  entryCount : Nat
  entry : Ptr → SensorData
  heap : List Ptr
  log : List HeapEntry

namespace Aggregator

def note (g : Aggregator) (e : HeapEntry) : Aggregator := { g with log := g.log ++ [e] }

/-- `k_fifo_get(&aggregator_fifo, K_NO_WAIT)`. -/
def kFifoGet (g : Aggregator) : Aggregator × Option Ptr :=
  match g.aggregatorFifo with
  | [] => (g, none)
  | p :: rest => ({ g.note (.got p) with aggregatorFifo := rest }, some p)

def kFifoPut (g : Aggregator) (p : Ptr) : Aggregator :=
  { g.note (.put p) with aggregatorFifo := g.aggregatorFifo ++ [p] }

def kMalloc (g : Aggregator) : Option Ptr → Aggregator × Option Ptr
  | none => (g, none)
  | some p => ({ g.note (.allocated p) with heap := p :: g.heap }, some p)

def kFree (g : Aggregator) (p : Ptr) : Aggregator :=
  { g.note (.freed p) with heap := g.heap.erase p }

def write (g : Aggregator) (p : Ptr) (d : SensorData) : Aggregator :=
  { g with entry := fun q => if q = p then d else g.entry q }

/-- `entry_count++` and `entry_count--`. -/
def increment (g : Aggregator) : Aggregator := { g with entryCount := (g.entryCount + 1) % 2 ^ 32 }

def decrement (g : Aggregator) : Aggregator :=
  { g with entryCount := (g.entryCount + (2 ^ 32 - 1)) % 2 ^ 32 }

/-- What the FIFO holds. -/
def contents (g : Aggregator) : List SensorData := g.aggregatorFifo.map g.entry

end Aggregator

/-! ## The code -/

/-- `k_malloc` returns no block that is in use. -/
def Aggregator.mayReturn (g : Aggregator) (alloc : Option Ptr) : Bool :=
  alloc.all fun p => decide (p ∉ g.heap)

/-- `aggregator_put`, lines 23-54; `alloc` is what `k_malloc` returns if it is called. -/
def aggregatorPut (g : Aggregator) (inData : SensorData) (alloc : Option Ptr) : Aggregator × Int :=
  let got :=
    if g.entryCount = fifoMaxElementCount then (g.kFifoGet.1.decrement, g.kFifoGet.2) else (g, none)
  let fifoData := if got.2 = none then got.1.kMalloc alloc else got
  match fifoData.2 with
  | none => (fifoData.1, -ENOMEM)
  | some p => (((fifoData.1.write p inData).kFifoPut p).increment, 0)

/-- `aggregator_get`, lines 56-81; `outData` says whether its argument is not `NULL`. -/
def aggregatorGet (g : Aggregator) (outData : Bool) : Aggregator × Int × Option SensorData :=
  if outData then
    match g.kFifoGet with
    | (g, none) => (g, -ENODATA, none)
    | (g, some p) => ((g.kFree p).decrement, 0, some (g.entry p))
  else (g, -EINVAL, none)

/-- The loop of `aggregator_clear`. -/
def clearLoop : Nat → Aggregator → Aggregator
  | 0, g => g
  | n + 1, g =>
      match g.kFifoGet with
      | (g, none) => g
      | (g, some p) => clearLoop n (g.kFree p)

/-- `aggregator_clear`, lines 83-101; the loop ends when the FIFO is empty. -/
def aggregatorClear (g : Aggregator) : Aggregator :=
  { clearLoop (g.aggregatorFifo.length + 1) g with entryCount := 0 }

/-- `aggregator_element_count_get`, lines 103-106. -/
def aggregatorElementCountGet (g : Aggregator) : Nat := g.entryCount

/-! ## The life of an entry -/

/-- Where an entry is: not allocated, with the code, or in the FIFO. -/
inductive Life
  | free
  | taken
  | queued
  deriving DecidableEq

def Life.observe (life : Ptr → Life) : HeapEntry → Ptr → Life
  | .allocated p, q => if q = p then .taken else life q
  | .got p, q => if q = p then .taken else life q
  | .put p, q => if q = p then .queued else life q
  | .freed p, q => if q = p then .free else life q

def life (log : List HeapEntry) : Ptr → Life := present Life.observe (fun _ => .free) log

/-- An entry goes from one place to the next: what is taken out, or allocated, is put or
freed before anything else happens to it. -/
def Legal (past : List HeapEntry) : HeapEntry → Prop
  | .allocated p => life past p = .free
  | .got p => life past p = .queued
  | .put p => life past p = .taken
  | .freed p => life past p = .taken

@[simp] theorem life_nil : life [] = fun _ => .free := rfl

@[simp] theorem life_snoc (log : List HeapEntry) (e : HeapEntry) (p : Ptr) :
    life (log ++ [e]) p = Life.observe (life log) e p := by
  simp [life]

/-! ## The books -/

/-- The FIFO, the heap and the log agree. -/
structure Stock (g : Aggregator) : Prop where
  distinct : g.aggregatorFifo.Nodup
  heap : ∀ p, p ∈ g.heap ↔ p ∈ g.aggregatorFifo
  heapOnce : g.heap.Nodup
  legal : Always Legal g.log
  life : ∀ p, life g.log p = if p ∈ g.aggregatorFifo then .queued else .free

/-- And so does the counter. -/
structure Books (g : Aggregator) : Prop extends Stock g where
  count : g.entryCount = g.aggregatorFifo.length
  bound : g.aggregatorFifo.length ≤ fifoMaxElementCount

namespace Stock

variable {g t : Aggregator} {p : Ptr} {rest : List Ptr}

/-- An entry goes on by two places, and no other one moves. -/
theorem turn (stock : Stock g) {first second : HeapEntry} {mid last : Life}
    (firstTo : ∀ life q, Life.observe life first q = if q = p then mid else life q)
    (secondTo : ∀ life q, Life.observe life second q = if q = p then last else life q)
    (firstLegal : Legal g.log first) (secondLegal : Legal (g.log ++ [first]) second) :
    Always Legal (g.log ++ [first] ++ [second]) ∧
      ∀ q, Gateway.life (g.log ++ [first] ++ [second]) q =
        if q = p then last else if q ∈ g.aggregatorFifo then .queued else .free := by
  refine ⟨?_, ?_⟩
  · rw [always_snoc, always_snoc]
    exact ⟨⟨stock.legal, firstLegal⟩, secondLegal⟩
  · intro q
    rw [life_snoc, secondTo]
    by_cases here : q = p
    · rw [if_pos here, if_pos here]
    · rw [if_neg here, if_neg here, life_snoc, firstTo, if_neg here, stock.life]

/-- An entry is taken out and put again. -/
theorem recycle (stock : Stock g) (first : g.aggregatorFifo = p :: rest)
    (fifo : t.aggregatorFifo = rest ++ [p]) (heap : t.heap = g.heap)
    (log : t.log = g.log ++ [HeapEntry.got p] ++ [HeapEntry.put p]) : Stock t := by
  have same (q : Ptr) : q ∈ rest ++ [p] ↔ q ∈ g.aggregatorFifo := by
    rw [first]
    simp [or_comm]
  have queued : Legal g.log (.got p) := (stock.life p).trans (if_pos (by simp [first]))
  have taken : Legal (g.log ++ [HeapEntry.got p]) (.put p) := (life_snoc _ _ p).trans (if_pos rfl)
  obtain ⟨legal, life⟩ := stock.turn (p := p) (fun _ _ => rfl) (fun _ _ => rfl) queued taken
  refine ⟨?_, ?_, ?_, log ▸ legal, ?_⟩
  · have distinct := stock.distinct
    rw [first] at distinct
    rw [fifo]
    exact (List.perm_append_singleton p rest).nodup_iff.mpr distinct
  · intro q
    rw [fifo, heap, same, stock.heap]
  · rw [heap]
    exact stock.heapOnce
  · intro q
    rw [log, life, fifo]
    by_cases here : q = p
    · rw [if_pos here, if_pos (by simp [here])]
    · simp only [if_neg here, same]

/-- A block that `k_malloc` returns is put. -/
theorem extend (stock : Stock g) (fresh : p ∉ g.heap)
    (fifo : t.aggregatorFifo = g.aggregatorFifo ++ [p]) (heap : t.heap = p :: g.heap)
    (log : t.log = g.log ++ [HeapEntry.allocated p] ++ [HeapEntry.put p]) : Stock t := by
  have new : p ∉ g.aggregatorFifo := fun member => fresh ((stock.heap p).mpr member)
  have free : Legal g.log (.allocated p) := (stock.life p).trans (if_neg new)
  have taken : Legal (g.log ++ [HeapEntry.allocated p]) (.put p) :=
    (life_snoc _ _ p).trans (if_pos rfl)
  obtain ⟨legal, life⟩ := stock.turn (p := p) (fun _ _ => rfl) (fun _ _ => rfl) free taken
  refine ⟨?_, ?_, ?_, log ▸ legal, ?_⟩
  · rw [fifo]
    exact (List.perm_append_singleton p g.aggregatorFifo).nodup_iff.mpr
      (List.nodup_cons.mpr ⟨new, stock.distinct⟩)
  · intro q
    rw [fifo, heap, List.mem_cons, stock.heap, List.mem_append, List.mem_singleton, or_comm]
  · rw [heap]
    exact List.nodup_cons.mpr ⟨fresh, stock.heapOnce⟩
  · intro q
    rw [log, life, fifo]
    by_cases here : q = p
    · rw [if_pos here, if_pos (by simp [here])]
    · simp [here]

/-- The oldest entry is taken out and freed. -/
theorem freeFirst (stock : Stock g) (first : g.aggregatorFifo = p :: rest)
    (fifo : t.aggregatorFifo = rest) (heap : t.heap = g.heap.erase p)
    (log : t.log = g.log ++ [HeapEntry.got p] ++ [HeapEntry.freed p]) : Stock t := by
  have distinct := stock.distinct
  rw [first] at distinct
  obtain ⟨once, distinctRest⟩ := List.nodup_cons.mp distinct
  have queued : Legal g.log (.got p) := (stock.life p).trans (if_pos (by simp [first]))
  have taken : Legal (g.log ++ [HeapEntry.got p]) (.freed p) := (life_snoc _ _ p).trans (if_pos rfl)
  obtain ⟨legal, life⟩ := stock.turn (p := p) (fun _ _ => rfl) (fun _ _ => rfl) queued taken
  refine ⟨?_, ?_, ?_, log ▸ legal, ?_⟩
  · rw [fifo]
    exact distinctRest
  · intro q
    rw [fifo, heap, stock.heapOnce.mem_erase_iff, stock.heap, first, List.mem_cons]
    constructor
    · rintro ⟨other, either⟩
      exact either.resolve_left other
    · intro member
      refine ⟨?_, Or.inr member⟩
      rintro rfl
      exact once member
  · rw [heap]
    exact stock.heapOnce.erase p
  · intro q
    rw [log, life, fifo]
    by_cases here : q = p
    · rw [if_pos here, here, if_neg once]
    · simp [here, first]

end Stock

namespace Books

variable {g : Aggregator} {d : SensorData} {alloc : Option Ptr} {p : Ptr} {rest : List Ptr}

/-- The queue when `p`, which was taken out, is put with new data. -/
def recycled (g : Aggregator) (p : Ptr) (rest : List Ptr) (d : SensorData) : Aggregator where
  aggregatorFifo := rest ++ [p]
  entryCount := g.entryCount
  entry := fun q => if q = p then d else g.entry q
  heap := g.heap
  log := g.log ++ [.got p] ++ [.put p]

/-- The queue with a new entry. -/
def extended (g : Aggregator) (p : Ptr) (d : SensorData) : Aggregator where
  aggregatorFifo := g.aggregatorFifo ++ [p]
  entryCount := g.entryCount + 1
  entry := fun q => if q = p then d else g.entry q
  heap := p :: g.heap
  log := g.log ++ [.allocated p] ++ [.put p]

/-- The queue without its oldest entry. -/
def popped (g : Aggregator) (p : Ptr) (rest : List Ptr) : Aggregator where
  aggregatorFifo := rest
  entryCount := g.entryCount - 1
  entry := g.entry
  heap := g.heap.erase p
  log := g.log ++ [.got p] ++ [.freed p]

/-- `K_FIFO_DEFINE(aggregator_fifo)` and `entry_count`, when the program starts. -/
theorem empty (fifo : g.aggregatorFifo = []) (count : g.entryCount = 0) (heap : g.heap = [])
    (log : g.log = []) : Books g := by
  refine ⟨⟨?_, ?_, ?_, ?_, ?_⟩, ?_, ?_⟩
  · rw [fifo]
    exact List.nodup_nil
  · simp [heap, fifo]
  · rw [heap]
    exact List.nodup_nil
  · rw [log]
    exact always_nil
  · simp [log, fifo]
  · rw [count, fifo, List.length_nil]
  · rw [fifo]
    exact Nat.zero_le _

/-! ### What the calls do -/

theorem put_full (books : Books g) (full : g.aggregatorFifo.length = fifoMaxElementCount)
    (first : g.aggregatorFifo = p :: rest) :
    aggregatorPut g d alloc = (recycled g p rest d, 0) := by
  have count : g.entryCount = fifoMaxElementCount := books.count.trans full
  have kept : ((g.entryCount + (2 ^ 32 - 1)) % 2 ^ 32 + 1) % 2 ^ 32 = g.entryCount := by
    rw [count]
    rfl
  have get : g.kFifoGet = ({ g.note (.got p) with aggregatorFifo := rest }, some p) := by
    rw [Aggregator.kFifoGet, first]
  simp only [aggregatorPut, if_pos count, get, reduceCtorEq, if_false]
  simp only [Aggregator.decrement, Aggregator.write, Aggregator.kFifoPut, Aggregator.increment,
    Aggregator.note, kept, recycled]

theorem put_room (books : Books g) (room : g.aggregatorFifo.length < fifoMaxElementCount) :
    aggregatorPut g d alloc =
      match alloc with
      | none => (g, -ENOMEM)
      | some p => (extended g p d, 0) := by
  have notFull : g.entryCount ≠ fifoMaxElementCount := by
    rw [books.count]
    exact Nat.ne_of_lt room
  have counted : (g.entryCount + 1) % 2 ^ 32 = g.entryCount + 1 := by
    have small : g.entryCount < fifoMaxElementCount := books.count ▸ room
    rw [fifoMaxElementCount] at small
    omega
  cases alloc with
  | none => simp only [aggregatorPut, if_neg notFull, if_true, Aggregator.kMalloc]
  | some p =>
      simp only [aggregatorPut, if_neg notFull, if_true, Aggregator.kMalloc]
      simp only [Aggregator.write, Aggregator.kFifoPut, Aggregator.increment, Aggregator.note,
        counted, extended]

theorem get_first (books : Books g) (first : g.aggregatorFifo = p :: rest) :
    aggregatorGet g true = (popped g p rest, 0, some (g.entry p)) := by
  have get : g.kFifoGet = ({ g.note (.got p) with aggregatorFifo := rest }, some p) := by
    rw [Aggregator.kFifoGet, first]
  have counted : (g.entryCount + (2 ^ 32 - 1)) % 2 ^ 32 = g.entryCount - 1 := by
    have count := books.count
    have bound := books.bound
    rw [first, List.length_cons] at count bound
    rw [fifoMaxElementCount] at bound
    omega
  simp only [aggregatorGet, if_true, get]
  simp only [Aggregator.kFree, Aggregator.decrement, Aggregator.note, counted, popped]

theorem get_empty (empty : g.aggregatorFifo = []) :
    aggregatorGet g true = (g, -ENODATA, none) := by
  have get : g.kFifoGet = (g, none) := by rw [Aggregator.kFifoGet, empty]
  simp only [aggregatorGet, if_true, get]

/-- A put on a full queue uses the oldest entry again. -/
theorem put_recycles (books : Books g) (full : g.aggregatorFifo.length = fifoMaxElementCount)
    (d : SensorData) (alloc : Option Ptr) :
    ∃ p rest, g.aggregatorFifo = p :: rest ∧
      aggregatorPut g d alloc = (recycled g p rest d, 0) := by
  cases first : g.aggregatorFifo with
  | nil =>
      rw [first] at full
      exact absurd full (by decide)
  | cons p rest => exact ⟨p, rest, rfl, books.put_full full first⟩

/-- A put that fails changes nothing. -/
theorem put_failed (books : Books g) (failed : (aggregatorPut g d alloc).2 ≠ 0) :
    (aggregatorPut g d alloc).1 = g := by
  rcases Nat.lt_or_eq_of_le books.bound with room | full
  · rw [books.put_room room] at failed ⊢
    cases alloc with
    | none => rfl
    | some p => exact absurd rfl failed
  · obtain ⟨p, rest, _, put⟩ := books.put_recycles full d alloc
    rw [put] at failed
    exact absurd rfl failed

/-- A get that fails changes nothing. -/
theorem get_failed (books : Books g) {outData : Bool}
    (failed : (aggregatorGet g outData).2.1 ≠ 0) : (aggregatorGet g outData).1 = g := by
  cases outData with
  | false => rfl
  | true =>
      cases first : g.aggregatorFifo with
      | nil => rw [get_empty first]
      | cons p rest =>
          rw [books.get_first first] at failed
          exact absurd rfl failed

/-! ### The books are kept -/

theorem recycle (books : Books g) (first : g.aggregatorFifo = p :: rest) :
    Books (recycled g p rest d) := by
  have length : (rest ++ [p]).length = g.aggregatorFifo.length := by simp [first]
  refine ⟨books.toStock.recycle first rfl rfl rfl, ?_, ?_⟩
  · exact books.count.trans length.symm
  · exact Nat.le_trans (Nat.le_of_eq length) books.bound

theorem extend (books : Books g) (room : g.aggregatorFifo.length < fifoMaxElementCount)
    (fresh : p ∉ g.heap) : Books (extended g p d) := by
  have length : (g.aggregatorFifo ++ [p]).length = g.aggregatorFifo.length + 1 := by simp
  refine ⟨books.toStock.extend fresh rfl rfl rfl, ?_, ?_⟩
  · exact (congrArg (· + 1) books.count).trans length.symm
  · exact Nat.le_trans (Nat.le_of_eq length) room

theorem pop (books : Books g) (first : g.aggregatorFifo = p :: rest) : Books (popped g p rest) := by
  have count := books.count
  have bound := books.bound
  rw [first, List.length_cons] at count bound
  refine ⟨books.toStock.freeFirst first rfl rfl rfl, ?_, ?_⟩
  · show g.entryCount - 1 = rest.length
    omega
  · exact Nat.le_trans (Nat.le_succ _) bound

theorem clearLoop_stock (n : Nat) {g : Aggregator} (stock : Stock g)
    (enough : g.aggregatorFifo.length < n) :
    Stock (clearLoop n g) ∧ (clearLoop n g).aggregatorFifo = [] := by
  induction n generalizing g with
  | zero => exact absurd enough (Nat.not_lt_zero _)
  | succ n ih =>
      rw [clearLoop, Aggregator.kFifoGet]
      cases fifo : g.aggregatorFifo with
      | nil => exact ⟨stock, fifo⟩
      | cons p rest =>
          rw [fifo, List.length_cons] at enough
          exact ih (stock.freeFirst fifo rfl rfl rfl) (Nat.lt_of_succ_lt_succ enough)

theorem clear (books : Books g) :
    Books (aggregatorClear g) ∧ (aggregatorClear g).contents = [] := by
  obtain ⟨stock, empty⟩ := clearLoop_stock _ books.toStock (Nat.lt_succ_self _)
  have cleared : (aggregatorClear g).aggregatorFifo = [] := empty
  refine ⟨⟨?_, ?_, ?_⟩, ?_⟩
  · obtain ⟨distinct, heap, heapOnce, legal, life⟩ := stock
    exact ⟨distinct, heap, heapOnce, legal, life⟩
  · rw [cleared]
    rfl
  · rw [cleared]
    exact Nat.zero_le _
  · rw [Aggregator.contents, cleared, List.map_nil]

/-! ### What the queue holds -/

theorem recycled_contents (books : Books g) (first : g.aggregatorFifo = p :: rest) :
    (recycled g p rest d).contents = g.contents.tail ++ [d] := by
  have distinct := books.distinct
  rw [first, List.nodup_cons] at distinct
  have kept : rest.map (fun q => if q = p then d else g.entry q) = rest.map g.entry := by
    refine List.map_congr_left fun q member => if_neg ?_
    rintro rfl
    exact distinct.1 member
  rw [Aggregator.contents, Aggregator.contents, first, recycled, List.map_append, kept]
  simp

theorem extended_contents (books : Books g) (fresh : p ∉ g.heap) :
    (extended g p d).contents = g.contents ++ [d] := by
  have kept : g.aggregatorFifo.map (fun q => if q = p then d else g.entry q) =
      g.aggregatorFifo.map g.entry := by
    refine List.map_congr_left fun q member => if_neg ?_
    rintro rfl
    exact fresh ((books.heap q).mpr member)
  rw [Aggregator.contents, Aggregator.contents, extended, List.map_append, kept]
  simp

theorem popped_contents (first : g.aggregatorFifo = p :: rest) :
    g.contents = g.entry p :: (popped g p rest).contents := by
  rw [Aggregator.contents, first]
  rfl

/-- All that a put can do. -/
theorem put_cases (books : Books g) (fresh : g.mayReturn alloc = true) :
    aggregatorPut g d alloc = (g, -ENOMEM) ∧ g.contents.length < fifoMaxElementCount ∧
        alloc = none ∨
      ∃ t, aggregatorPut g d alloc = (t, 0) ∧ Books t ∧
        t.contents = dropOldest fifoMaxElementCount g.contents d ∧
        ¬ (g.contents.length < fifoMaxElementCount ∧ alloc = none) := by
  have length : g.contents.length = g.aggregatorFifo.length := by
    rw [Aggregator.contents, List.length_map]
  rcases Nat.lt_or_eq_of_le books.bound with room | full
  · have notFull : g.contents.length ≠ fifoMaxElementCount := length ▸ Nat.ne_of_lt room
    rw [books.put_room room]
    cases alloc with
    | none => exact Or.inl ⟨rfl, length ▸ room, rfl⟩
    | some p =>
        have new : p ∉ g.heap := by simpa [Aggregator.mayReturn] using fresh
        refine Or.inr ⟨_, rfl, books.extend room new, ?_, ?_⟩
        · rw [books.extended_contents new, dropOldest_room notFull]
        · rintro ⟨_, failed⟩
          exact absurd failed (Option.some_ne_none p)
  · obtain ⟨p, rest, first, put⟩ := books.put_recycles full d alloc
    refine Or.inr ⟨_, put, books.recycle first, ?_, ?_⟩
    · rw [books.recycled_contents first, dropOldest_full (length.trans full)]
    · rintro ⟨short, _⟩
      exact absurd (length.trans full) (Nat.ne_of_lt short)

/-- All that a get can do. -/
theorem get_cases (books : Books g) :
    aggregatorGet g true = (g, -ENODATA, none) ∧ g.contents = [] ∨
      ∃ t d, aggregatorGet g true = (t, 0, some d) ∧ Books t ∧ g.contents = d :: t.contents := by
  cases first : g.aggregatorFifo with
  | nil =>
      refine Or.inl ⟨get_empty first, ?_⟩
      rw [Aggregator.contents, first, List.map_nil]
  | cons p rest =>
      exact Or.inr ⟨_, _, books.get_first first, books.pop first, popped_contents first⟩

end Books

/-! ## Runs -/

/-- A call that has returned, with what it returned; `alloc` is the answer of `k_malloc`. -/
inductive Call
  | put (inData : SensorData) (alloc : Option Ptr) (err : Int)
  | get (outData : Bool) (err : Int) (out : Option SensorData)
  | clear

/-- The queue that a call leaves, by what it returned. -/
def Call.observe (q : List SensorData) : Call → List SensorData
  | .put d _ err => if err = 0 then dropOldest fifoMaxElementCount q d else q
  | .get _ err _ => if err = 0 then q.tail else q
  | .clear => []

theorem Call.observe_put {q : List SensorData} {d : SensorData} {alloc : Option Ptr} :
    Call.observe q (.put d alloc 0) = dropOldest fifoMaxElementCount q d := by
  simp [Call.observe]

theorem Call.observe_get {q : List SensorData} {outData : Bool} {out : Option SensorData} :
    Call.observe q (.get outData 0 out) = q.tail := by
  simp [Call.observe]

theorem Call.observe_putFailed {q : List SensorData} {d : SensorData} {alloc : Option Ptr}
    {err : Int} (failed : err ≠ 0) : Call.observe q (.put d alloc err) = q :=
  if_neg failed

theorem Call.observe_getFailed {q : List SensorData} {outData : Bool} {err : Int}
    {out : Option SensorData} (failed : err ≠ 0) : Call.observe q (.get outData err out) = q :=
  if_neg failed

/-- The queue that the calls say there is. -/
def reference (calls : List Call) : List SensorData := present Call.observe [] calls

/-- What a call returns: a put fails exactly if the queue is not full and `k_malloc` returns
`NULL`; a get returns the oldest element if there is one. -/
def Lawful (past : List Call) : Call → Prop
  | .put _ alloc err =>
      err = if (reference past).length < fifoMaxElementCount ∧ alloc = none then -ENOMEM else 0
  | .get false err out => err = -EINVAL ∧ out = none
  | .get true err out =>
      match reference past with
      | [] => err = -ENODATA ∧ out = none
      | d :: _ => err = 0 ∧ out = some d
  | .clear => True

structure AggregatorRun where
  aggregator : Aggregator
  calls : List Call

inductive AggregatorAct
  | put (inData : SensorData) (alloc : Option Ptr)
  | get (outData : Bool)
  | clear

def AggregatorRun.step (m : AggregatorRun) : AggregatorAct → Option AggregatorRun
  | .put d alloc =>
      let r := aggregatorPut m.aggregator d alloc
      if m.aggregator.mayReturn alloc then some ⟨r.1, m.calls ++ [.put d alloc r.2]⟩ else none
  | .get outData =>
      let r := aggregatorGet m.aggregator outData
      some ⟨r.1, m.calls ++ [.get outData r.2.1 r.2.2]⟩
  | .clear => some ⟨aggregatorClear m.aggregator, m.calls ++ [.clear]⟩

/-- When the program starts. -/
def AggregatorRun.Init (m : AggregatorRun) : Prop :=
  m.aggregator.aggregatorFifo = [] ∧ m.aggregator.entryCount = 0 ∧ m.aggregator.heap = [] ∧
    m.aggregator.log = [] ∧ m.calls = []

/-- The books are kept and the FIFO is the reference queue. -/
structure Refines (m : AggregatorRun) : Prop where
  books : Books m.aggregator
  contents : m.aggregator.contents = reference m.calls
  lawful : Always Lawful m.calls

namespace Refines

variable {m : AggregatorRun} {g : Aggregator} {d : SensorData} {alloc : Option Ptr} {c : Call}

@[simp] theorem reference_snoc (calls : List Call) (c : Call) :
    reference (calls ++ [c]) = Call.observe (reference calls) c := by
  simp [reference]

/-- One more call. -/
theorem extend (inv : Refines m) (books : Books g) (lawful : Lawful m.calls c)
    (contents : g.contents = Call.observe (reference m.calls) c) :
    Refines ⟨g, m.calls ++ [c]⟩ where
  books := books
  contents := contents.trans (reference_snoc _ _).symm
  lawful := always_snoc.mpr ⟨inv.lawful, lawful⟩

theorem put (inv : Refines m) (fresh : m.aggregator.mayReturn alloc = true) :
    Refines ⟨(aggregatorPut m.aggregator d alloc).1,
      m.calls ++ [Call.put d alloc (aggregatorPut m.aggregator d alloc).2]⟩ := by
  rcases inv.books.put_cases (d := d) fresh with
    ⟨failed, room, noBlock⟩ | ⟨t, put, books, contents, notShort⟩
  · rw [failed]
    apply inv.extend inv.books
    · rw [inv.contents] at room
      exact (if_pos ⟨room, noBlock⟩).symm
    · exact inv.contents.trans (Call.observe_putFailed (show -ENOMEM ≠ 0 by decide)).symm
  · rw [put]
    apply inv.extend books
    · rw [inv.contents] at notShort
      exact (if_neg notShort).symm
    · rw [contents, inv.contents, Call.observe_put]

theorem get (inv : Refines m) (outData : Bool) :
    Refines ⟨(aggregatorGet m.aggregator outData).1,
      m.calls ++ [Call.get outData (aggregatorGet m.aggregator outData).2.1
        (aggregatorGet m.aggregator outData).2.2]⟩ := by
  cases outData with
  | false =>
      exact inv.extend inv.books ⟨rfl, rfl⟩
        (inv.contents.trans (Call.observe_getFailed (show -EINVAL ≠ 0 by decide)).symm)
  | true =>
      rcases inv.books.get_cases with ⟨failed, empty⟩ | ⟨t, d, got, books, oldest⟩
      · rw [failed]
        refine inv.extend inv.books ?_
          (inv.contents.trans (Call.observe_getFailed (show -ENODATA ≠ 0 by decide)).symm)
        rw [Lawful, ← inv.contents, empty]
        exact ⟨rfl, rfl⟩
      · rw [got]
        refine inv.extend books ?_ ?_
        · rw [Lawful, ← inv.contents, oldest]
          exact ⟨rfl, rfl⟩
        · rw [Call.observe_get, ← inv.contents, oldest, List.tail_cons]

theorem clear (inv : Refines m) :
    Refines ⟨aggregatorClear m.aggregator, m.calls ++ [Call.clear]⟩ :=
  inv.extend inv.books.clear.1 trivial inv.books.clear.2

end Refines

/-- The step lemma. -/
theorem refines_step {m t : AggregatorRun} {a : AggregatorAct} (inv : Refines m)
    (taken : m.step a = some t) : Refines t := by
  cases a with
  | put d alloc =>
      obtain ⟨fresh, rfl⟩ := Option.ite_none_right_eq_some.mp taken |>.imp id Option.some.inj
      exact inv.put fresh
  | get outData =>
      cases taken
      exact inv.get outData
  | clear =>
      cases taken
      exact inv.clear

theorem refines_init {m : AggregatorRun} (init : m.Init) : Refines m := by
  obtain ⟨fifo, count, heap, log, calls⟩ := init
  refine ⟨Books.empty fifo count heap log, ?_, ?_⟩
  · rw [Aggregator.contents, fifo, calls]
    rfl
  · rw [calls]
    exact always_nil

theorem reachable_refines {m : AggregatorRun}
    (run : Reachable AggregatorRun.step AggregatorRun.Init unguarded m) : Refines m := by
  apply run.invariant
  · exact fun _ init => refines_init init
  · exact fun _ _ _ inv _ taken => refines_step inv taken

/-- What it is to be a bounded queue that drops its oldest element. -/
structure DropOldestFifo (m : AggregatorRun) : Prop where
  count : aggregatorElementCountGet m.aggregator = m.aggregator.aggregatorFifo.length
  bound : m.aggregator.aggregatorFifo.length ≤ fifoMaxElementCount
  contents : m.aggregator.contents = reference m.calls
  lawful : Always Lawful m.calls
  /-- A put on a full queue succeeds with the entry that it takes out. -/
  full : ∀ d alloc, m.aggregator.aggregatorFifo.length = fifoMaxElementCount →
    (aggregatorPut m.aggregator d alloc).2 = 0 ∧
      (aggregatorPut m.aggregator d alloc).1.heap = m.aggregator.heap ∧
      ∃ p, m.aggregator.aggregatorFifo.head? = some p ∧
        (aggregatorPut m.aggregator d alloc).1.log = m.aggregator.log ++ [.got p] ++ [.put p]
  failedPut : ∀ d alloc, (aggregatorPut m.aggregator d alloc).2 ≠ 0 →
    (aggregatorPut m.aggregator d alloc).1 = m.aggregator
  failedGet : ∀ outData, (aggregatorGet m.aggregator outData).2.1 ≠ 0 →
    (aggregatorGet m.aggregator outData).1 = m.aggregator
  /-- What was taken out was freed or put again, once, before anything else was done to it. -/
  legal : Always Legal m.aggregator.log
  noneTaken : ∀ p, life m.aggregator.log p ≠ .taken

/-- **The aggregator is a bounded queue that drops its oldest element.** -/
theorem drop_oldest_fifo {m : AggregatorRun}
    (run : Reachable AggregatorRun.step AggregatorRun.Init unguarded m) : DropOldestFifo m := by
  obtain ⟨books, contents, lawful⟩ := reachable_refines run
  refine ⟨books.count, books.bound, contents, lawful, ?_, ?_, ?_, books.legal, ?_⟩
  · intro d alloc full
    obtain ⟨p, rest, first, put⟩ := books.put_recycles full d alloc
    rw [put]
    exact ⟨rfl, rfl, p, by rw [first, List.head?_cons], rfl⟩
  · exact fun d alloc failed => books.put_failed failed
  · exact fun outData failed => books.get_failed failed
  · intro p
    rw [books.life p]
    split <;> decide

/-- The thirteenth entry takes the place of the first. -/
theorem drop_oldest_fifo_thirteen :
    ∃ m, Reachable AggregatorRun.step AggregatorRun.Init unguarded m ∧
      m.aggregator.aggregatorFifo = [2, 3, 4, 5, 6, 7, 8, 9, 10, 11, 12, 1] ∧
      DropOldestFifo m := by
  let d : SensorData := ⟨1, .thingyButton, fun _ => 0⟩
  let start : AggregatorRun := ⟨⟨[], 0, fun _ => d, [], []⟩, []⟩
  have found : (exec AggregatorRun.step unguarded start
      ((List.range 13).map fun i => .put d (some (i + 1)))).any
      (fun m => m.aggregator.aggregatorFifo == [2, 3, 4, 5, 6, 7, 8, 9, 10, 11, 12, 1]) = true := by
    decide +kernel
  have init : start.Init := ⟨rfl, rfl, rfl, rfl, rfl⟩
  obtain ⟨m, run, fifo⟩ := exists_reachable_of_exec init found
  exact ⟨m, run, beq_iff_eq.mp fifo, drop_oldest_fifo run⟩

end NcsExp.Gateway
