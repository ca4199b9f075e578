/-
# NcsExp.NusBridge.Chunking -- how a packet is cut into chunks

The loop of `bt_receive_cb`, and of `ble_data_received` of the central, byte by byte: the
position and `tx->len` have 16 bits, and a block remembers at which indices of its `data`
it was written.  `fill_eq_chunk` connects it to the chunks of the model.

`chunks_deliver_iff`: the loop ends, every chunk is between one byte and the whole array, and
the chunks are the packet with its line feed, unless one chunk needs 65536 bytes.
-/
import NcsExp.NusBridge.Model

namespace NcsExp.NusBridge.Chunking

open NcsExp.Theory

set_option autoImplicit false

/-! ## Blocks -/

/-- A `struct uart_data_t`: the memory from `data` on, and the indices written so far. -/
structure Block where
  data : Memory UInt8
  len : UInt16
  written : List Nat

namespace Block

/-- The block that `k_malloc` returns; `left` is what the memory holds. -/
def kMalloc (left : Memory UInt8) : Block := ⟨left, 0, []⟩

/-- `memcpy(tx->data, bytes, bytes.length)`. -/
def memcpy (tx : Block) (bytes : List UInt8) : Block :=
  { tx with data := tx.data.store 0 bytes, written := tx.written ++ List.range bytes.length }

/-- `tx->data[i] = byte`. -/
def put (tx : Block) (i : Nat) (byte : UInt8) : Block :=
  { tx with data := tx.data.store i [byte], written := tx.written ++ [i] }

/-- What is handed to `uart_tx`. -/
def bytes (tx : Block) : List UInt8 := tx.data.load 0 tx.len.toNat

end Block

/-! ## The loop -/

section Source

variable (uartBufSize : Nat) (data : List UInt8)

/-- Lines 482-489: `tx->len` at `pos`; the difference is a `size_t`. -/
def txLen (pos : UInt16) : UInt16 :=
  let left := (data.length + 2 ^ 32 - pos.toNat) % 2 ^ 32
  let txDataSize := uartBufSize - 1
  if left > txDataSize then .ofNat txDataSize else .ofNat left

/-- Lines 482-501: the filled block, and the next position. -/
def fill (pos : UInt16) (tx : Block) : Block × UInt16 :=
  let len := txLen uartBufSize data pos
  let tx := { tx.memcpy ((data.drop pos.toNat).take len.toNat) with len := len }
  let pos := pos + len
  if pos.toNat = data.length ∧ data[data.length - 1]? = some cr then
    ({ tx.put tx.len.toNat lf with len := tx.len + 1 }, pos)
  else (tx, pos)

/-- The loop, from `pos` on: the blocks in the order in which they are handed on, or `none` if
it is not done after `fuel` rounds.  `alloc` is what `k_malloc` finds at each position. -/
def receive (alloc : UInt16 → Option (Memory UInt8)) : Nat → UInt16 → Option (List Block)
  | 0, _ => none
  | fuel + 1, pos =>
      if pos.toNat = data.length then some []
      else
        match alloc pos with
        | none => some []
        | some left =>
            let filled := fill uartBufSize data pos (.kMalloc left)
            (receive alloc fuel filled.2).map fun blocks => filled.1 :: blocks

/-- `bt_receive_cb` of the peripheral, lines 474-507. -/
def btReceiveCb (alloc : UInt16 → Option (Memory UInt8)) : Option (List Block) :=
  receive uartBufSize data alloc (data.length + 1) 0

/-- `ble_data_received` of the central, lines 78-118. -/
def bleDataReceived (alloc : UInt16 → Option (Memory UInt8)) : Option (List Block) :=
  receive uartBufSize data alloc (data.length + 1) 0

end Source

/-! ## One round -/

variable {size : Nat} {data : List UInt8} {pos : UInt16} {tx : Block}

/-- The number of bytes that are copied at `pos`. -/
def room (size : Nat) (data : List UInt8) (pos : Nat) : Nat :=
  min (size - 1) (data.length - pos)

theorem toNat_txLen (size : Nat) (fits : data.length < 2 ^ 16) (inside : pos.toNat ≤ data.length) :
    (txLen size data pos).toNat = room size data pos.toNat := by
  have left : (data.length + 2 ^ 32 - pos.toNat) % 2 ^ 32 = data.length - pos.toNat := by omega
  rw [txLen, left, room]
  split
  · rw [UInt16.toNat_ofNat']
    omega
  · rw [UInt16.toNat_ofNat']
    omega

/-- The last byte is a carriage return. -/
theorem getLast?_eq : data[data.length - 1]? = data.getLast? := List.getLast?_eq_getElem?.symm

/-- The copied bytes, and the line feed behind the last of them. -/
def piece (size : Nat) (data : List UInt8) (pos : Nat) : List UInt8 :=
  let bytes := (data.drop pos).take (room size data pos)
  if pos + room size data pos = data.length ∧ data.getLast? = some cr then bytes ++ [lf] else bytes

theorem length_bytes (size : Nat) (data : List UInt8) (pos : Nat) :
    ((data.drop pos).take (room size data pos)).length = room size data pos := by
  rw [List.length_take, List.length_drop, room]
  omega

/-- **A round** copies a piece of the packet to the beginning of the block, and goes on behind
it; one byte more than `tx->len` can hold is the exception. -/
theorem fill_spec (size : Nat) (pos : UInt16) (left : Memory UInt8) (fits : data.length < 2 ^ 16)
    (inside : pos.toNat ≤ data.length) :
    let filled := fill size data pos (.kMalloc left)
    filled.2.toNat = pos.toNat + room size data pos.toNat ∧
      filled.1.len.toNat = (piece size data pos.toNat).length % 2 ^ 16 ∧
      filled.1.data.load 0 (piece size data pos.toNat).length = piece size data pos.toNat ∧
      filled.1.written = List.range (piece size data pos.toNat).length := by
  have len := toNat_txLen size fits inside
  have copied := length_bytes size data pos.toNat
  have most : room size data pos.toNat ≤ data.length - pos.toNat := Nat.min_le_right ..
  have next : (pos + txLen size data pos).toNat = pos.toNat + room size data pos.toNat := by
    rw [UInt16.toNat_add, len]
    omega
  simp only [fill, next, getLast?_eq, Block.memcpy, Block.put, Block.kMalloc, len, copied, piece,
    List.nil_append]
  split
  · refine ⟨next, ?_, ?_, ?_⟩
    · rw [UInt16.toNat_add, len, List.length_append, copied]
      rfl
    · have appended := Memory.load_store_append (left.store 0
        ((data.drop pos.toNat).take (room size data pos.toNat))) 0 (room size data pos.toNat) [lf]
      have before := Memory.load_store_same left 0
        ((data.drop pos.toNat).take (room size data pos.toNat))
      rw [copied] at before
      rw [Nat.zero_add, before] at appended
      rw [List.length_append, copied]
      exact appended
    · rw [List.length_append, copied]
      exact List.range_succ.symm
  · refine ⟨next, ?_, ?_, ?_⟩
    · rw [len, copied]
      omega
    · exact Memory.load_store_same left 0 _
    · rw [copied]

/-- The chunks of the model. -/
theorem fill_eq_chunk (c : Config) (left : Memory UInt8) (fits : data.length < 2 ^ 16)
    (inside : pos.toNat ≤ data.length) :
    (fill c.uartBufSize data pos (.kMalloc left)).1.bytes = chunk c data pos.toNat := by
  have same : piece c.uartBufSize data pos.toNat = chunk c data pos.toNat := by
    have len : room c.uartBufSize data pos.toNat = chunkLen c data.length pos.toNat := by
      rw [room, chunkLen]
      split <;> omega
    rw [piece, chunk, len]
  have copied := length_bytes c.uartBufSize data pos.toNat
  have room' : room c.uartBufSize data pos.toNat ≤ c.uartBufSize - 1 := Nat.min_le_left ..
  have small : (piece c.uartBufSize data pos.toNat).length < 2 ^ 16 := by
    have size := c.fits
    have enough := c.room
    rw [piece]
    split
    · rw [List.length_append, copied, List.length_singleton]
      omega
    · omega
  obtain ⟨-, len, load, -⟩ := fill_spec c.uartBufSize pos left fits inside
  rw [Block.bytes, len, Nat.mod_eq_of_lt small, load, same]

/-! ## The whole packet -/

/-- Every block holds at least a byte and was written within its array, and together they hold
the packet, and a line feed if its last byte is a carriage return. -/
structure Chunked (size : Nat) (data : List UInt8) (blocks : List Block) : Prop where
  lens : ∀ tx ∈ blocks, 1 ≤ tx.len.toNat ∧ tx.len.toNat ≤ size
  written : ∀ tx ∈ blocks, ∀ i ∈ tx.written, i < size
  bytes : blocks.flatMap Block.bytes = data ++ if data.getLast? = some cr then [lf] else []

/-- The loop ends, and delivers the packet. -/
def Delivers (size : Nat) (data : List UInt8) (blocks? : Option (List Block)) : Prop :=
  ∃ blocks, blocks? = some blocks ∧ Chunked size data blocks

/-- The whole packet is one chunk, and that with its line feed is longer than `tx->len` can
say. -/
def Overflows (size : Nat) (data : List UInt8) : Prop :=
  2 ^ 16 ≤ size ∧ data.length = 65535 ∧ data.getLast? = some cr

/-- What is left of the packet at `pos`, with its line feed. -/
def ahead (data : List UInt8) (pos : Nat) : List UInt8 :=
  data.drop pos ++ if pos < data.length ∧ data.getLast? = some cr then [lf] else []

theorem ahead_eq (size : Nat) (more : pos.toNat < data.length) :
    ahead data pos.toNat =
      piece size data pos.toNat ++ ahead data (pos.toNat + room size data pos.toNat) := by
  have cut := List.take_append_drop (room size data pos.toNat) (data.drop pos.toNat)
  have most : room size data pos.toNat ≤ data.length - pos.toNat := Nat.min_le_right ..
  rw [List.drop_drop] at cut
  rw [ahead, ahead, piece]
  by_cases last : pos.toNat + room size data pos.toNat = data.length
  · have nothing : data.drop data.length = [] := List.drop_length
    rw [last, nothing, List.append_nil] at cut
    simp only [last, cut, nothing, more, true_and, Nat.lt_irrefl, false_and, if_false,
      List.append_nil]
    split <;> simp
  · have further : pos.toNat + room size data pos.toNat < data.length := by omega
    simp only [last, false_and, if_false, more, further, true_and]
    rw [← List.append_assoc, cut]

/-- Where no chunk overflows, the length of every chunk is what `tx->len` says. -/
theorem length_piece (enough : 2 ≤ size) (fits : data.length < 2 ^ 16)
    (more : pos.toNat < data.length) (safe : ¬ Overflows size data) :
    1 ≤ (piece size data pos.toNat).length ∧ (piece size data pos.toNat).length ≤ size ∧
      (piece size data pos.toNat).length < 2 ^ 16 := by
  have copied := length_bytes size data pos.toNat
  have value : room size data pos.toNat = min (size - 1) (data.length - pos.toNat) := rfl
  rw [piece]
  split
  · rename_i last
    rw [List.length_append, copied, List.length_singleton]
    refine ⟨by omega, by omega, ?_⟩
    by_contra wraps
    exact safe ⟨by omega, by omega, last.2⟩
  · omega

/-- **Every round** of the loop, and the rounds after it. -/
theorem receive_chunked (enough : 2 ≤ size) (fits : data.length < 2 ^ 16)
    (safe : ¬ Overflows size data) (left : UInt16 → Memory UInt8) (fuel : Nat) (pos : UInt16)
    (inside : pos.toNat ≤ data.length) (fuelled : data.length - pos.toNat < fuel) :
    ∃ blocks, receive size data (fun pos => some (left pos)) fuel pos = some blocks ∧
      (∀ tx ∈ blocks, 1 ≤ tx.len.toNat ∧ tx.len.toNat ≤ size) ∧
      (∀ tx ∈ blocks, ∀ i ∈ tx.written, i < size) ∧
      blocks.flatMap Block.bytes = ahead data pos.toNat := by
  induction fuel generalizing pos with
  | zero => omega
  | succ fuel ih =>
      by_cases done : pos.toNat = data.length
      · refine ⟨[], ?_, by simp, by simp, ?_⟩
        · rw [receive, if_pos done]
        · simp [ahead, done]
      · have more : pos.toNat < data.length := by omega
        obtain ⟨next, len, load, written⟩ := fill_spec size pos (left pos) fits inside
        obtain ⟨one, most, small⟩ := length_piece enough fits more safe
        rw [Nat.mod_eq_of_lt small] at len
        have value : room size data pos.toNat = min (size - 1) (data.length - pos.toNat) := rfl
        have after : (fill size data pos (.kMalloc (left pos))).2.toNat ≤ data.length := by omega
        obtain ⟨blocks, rest, lens, writes, bytes⟩ := ih _ after (by omega)
        refine ⟨(fill size data pos (.kMalloc (left pos))).1 :: blocks, ?_, ?_, ?_, ?_⟩
        · rw [receive, if_neg done]
          simp only [rest, Option.map_some]
        · exact List.forall_mem_cons.mpr ⟨len.symm ▸ ⟨one, most⟩, lens⟩
        · refine List.forall_mem_cons.mpr ⟨fun i mem => ?_, writes⟩
          rw [written, List.mem_range] at mem
          omega
        · have first : (fill size data pos (.kMalloc (left pos))).1.bytes =
              piece size data pos.toNat := by
            rw [Block.bytes, len, load]
          rw [List.flatMap_cons, bytes, first, next, ← ahead_eq size more]

/-- **A chunk of no bytes**: the first block of a packet that overflows. -/
theorem not_delivers_of_overflows (overflows : Overflows size data) (left : UInt16 → Memory UInt8)
    (fuel : Nat) :
    ¬ Delivers size data (receive size data (fun pos => some (left pos)) fuel 0) := by
  rintro ⟨blocks, received, chunked⟩
  obtain ⟨large, long, carriage⟩ := overflows
  have zero : (0 : UInt16).toNat = 0 := rfl
  have start : ¬ (0 : UInt16).toNat = data.length := by omega
  cases fuel with
  | zero => cases received
  | succ fuel =>
      rw [receive, if_neg start] at received
      obtain ⟨rest, -, rfl⟩ := Option.map_eq_some_iff.mp received
      obtain ⟨-, len, -, -⟩ := fill_spec size 0 (left 0) (by omega : data.length < 2 ^ 16)
        (Nat.zero_le _)
      have whole : room size data 0 = data.length := by
        rw [room]
        omega
      have last : 0 + data.length = data.length ∧ data.getLast? = some cr :=
        ⟨Nat.zero_add _, carriage⟩
      have copied := length_bytes size data 0
      rw [whole] at copied
      rw [zero, piece, whole, if_pos last, List.length_append, copied, long] at len
      have one := (chunked.lens _ List.mem_cons_self).1
      exact absurd (len ▸ one) (by decide)

theorem receive_delivers_iff (enough : 2 ≤ size) (fits : data.length < 2 ^ 16)
    (left : UInt16 → Memory UInt8) :
    Delivers size data (receive size data (fun pos => some (left pos)) (data.length + 1) 0) ↔
      ¬ Overflows size data := by
  refine ⟨fun delivers overflows => not_delivers_of_overflows overflows left _ delivers,
    fun safe => ?_⟩
  have zero : (0 : UInt16).toNat = 0 := rfl
  obtain ⟨blocks, received, lens, written, bytes⟩ :=
    receive_chunked enough fits safe left (data.length + 1) 0 (Nat.zero_le _) (by omega)
  refine ⟨blocks, received, lens, written, ?_⟩
  rw [bytes, ahead, zero, List.drop_zero]
  by_cases empty : data = []
  · simp [empty]
  · have more : 0 < data.length := List.length_pos_iff.mpr empty
    simp only [more, true_and]

/-- **A packet of any length** is delivered by both ends if and only if it does not overflow. -/
theorem chunks_deliver_iff (size : Nat) (enough : 2 ≤ size) (data : List UInt8)
    (fits : data.length < 2 ^ 16) (left : UInt16 → Memory UInt8) :
    (Delivers size data (btReceiveCb size data fun pos => some (left pos)) ↔
        ¬ Overflows size data) ∧
      (Delivers size data (bleDataReceived size data fun pos => some (left pos)) ↔
        ¬ Overflows size data) :=
  ⟨receive_delivers_iff enough fits left, receive_delivers_iff enough fits left⟩

theorem chunks_deliver_tiny :
    Delivers 4 [1, 2, 3, 4, 5, 13] (btReceiveCb 4 [1, 2, 3, 4, 5, 13] fun _ => some fun _ => 0) :=
  (chunks_deliver_iff 4 (by decide) [1, 2, 3, 4, 5, 13] (by decide) fun _ _ => 0).1.mpr
    fun overflows => absurd overflows.1 (by decide)

/-- **65535 bytes with a carriage return** in a buffer of 65536. -/
theorem longest_packet_lost :
    ¬ ∀ (size : Nat) (data : List UInt8) (left : UInt16 → Memory UInt8), 2 ≤ size →
      data.length < 2 ^ 16 →
      Delivers size data (btReceiveCb size data fun pos => some (left pos)) := by
  intro always
  have length : (List.replicate 65534 0 ++ [cr] : List UInt8).length = 65535 := by
    rw [List.length_append, List.length_replicate]
    rfl
  have delivers := always 65536 (List.replicate 65534 0 ++ [cr]) (fun _ _ => 0) (by omega)
    (by omega)
  exact not_delivers_of_overflows ⟨Nat.le_refl _, length, List.getLast?_concat⟩ _ _ delivers

end NcsExp.NusBridge.Chunking
