/-
# NcsExp.Throughput.Measurement -- what a test measures

`test_run` of the master resets the metrics of the peer with a write of one byte, writes the
2511 packets of the picture and a last one of 200 bytes, prints the bytes that it has sent, and
reads the metrics of the peer, which prints them as received.

* The link delivers the accepted writes in order, as far as it comes; `write_callback` of the
  peer counts them (`Service`), whatever it has counted before.
* `measured`: what the master prints as received is the part of this test that has arrived,
  and the two numbers of bytes are the same if and only if all of it was accepted and has arrived.
-/
import NcsExp.Throughput.Rate
import NcsExp.Theory.LittleEndian

namespace NcsExp.Throughput.Service

open NcsExp.Theory

set_option autoImplicit false

/-! ## The master -/

def IMG_X : Nat := 81
def IMG_Y : Nat := 31
def IMG_SIZE : Nat := IMG_X * IMG_Y

/-- The dummy data buffer. -/
def dummy : List UInt8 := [1, 2, 3, 4, 5] ++ List.replicate 239 0

/-- The dummy buffer has room for the longest write. -/
@[simp] theorem length_dummy : dummy.length = 244 := by
  rw [dummy, List.length_append, List.length_replicate]
  rfl

/-- What `test_run` finds, and what its calls return: `write n` is the result for the packet `n`
of the picture. -/
structure Answers where
  defaultConn : Bool
  testReady : Bool
  configuration : Int
  reset : Int
  write : Nat → Int
  last : Int
  read : Int

/-- `prog` and `data` of `test_run`, and the writes that were accepted. -/
structure Progress where
  prog : Nat
  data : UInt32
  accepted : List (List UInt8)

/-- The loop over the picture, with `left` packets to go. -/
def sendImg (write : Nat → Int) : Nat → Progress → Progress
  | 0, s => s
  | left + 1, s =>
      if write s.prog ≠ 0 then s
      else sendImg write left ⟨s.prog + 1, s.data + 244, s.accepted ++ [dummy]⟩

/-- What a call of `test_run` returns, the bytes that it prints as sent, if it gets so far, and
the writes that were accepted. -/
structure Test where
  result : Int
  sent : Option UInt32
  accepted : List (List UInt8)

def EFAULT : Int := 14

/-- `test_run`, lines 528-610. -/
def testRun (a : Answers) : Test :=
  if !a.defaultConn then ⟨ -EFAULT, none, []⟩
  else if !a.testReady then ⟨0, none, []⟩
  else if a.configuration ≠ 0 then ⟨a.configuration, none, []⟩
  else if a.reset ≠ 0 then ⟨a.reset, none, []⟩
  else
    let s := sendImg a.write IMG_SIZE ⟨0, 0, [dummy.take 1]⟩
    let s := if a.last ≠ 0 then s else { s with accepted := s.accepted ++ [dummy.take 200] }
    let s := { s with data := s.data + 200 }
    ⟨a.read, some s.data, s.accepted⟩

/-! ## The metrics on the link -/

/-- The bytes of `struct bt_throughput_metrics`. -/
def Metrics.bytes (met : Metrics) : List UInt8 :=
  LittleEndian.bytes 4 met.writeCount.toNat ++
    (LittleEndian.bytes 4 met.writeLen.toNat ++ LittleEndian.bytes 4 met.writeRate.toNat)

/-- `sizeof(struct bt_throughput_metrics)`. -/
def sizeofMetrics : Nat := 12

/-- `read_callback`, lines 85-101, for a reader with room for `len` bytes. -/
def readCallback (met : Metrics) (len : Nat) : List UInt8 := met.bytes.take (min sizeofMetrics len)

/-- The `struct bt_throughput_metrics` in a memory. -/
def Metrics.load (bytes : List UInt8) : Metrics where
  writeCount := .ofNat (LittleEndian.value (bytes.take 4))
  writeLen := .ofNat (LittleEndian.value ((bytes.drop 4).take 4))
  writeRate := .ofNat (LittleEndian.value (bytes.drop 8))

/-- `read_fn`, lines 28-46: what is given to `data_read`. -/
def readFn (data : List UInt8) : Metrics :=
  let len := min data.length sizeofMetrics
  .load (data.take len ++ List.replicate (sizeofMetrics - len) 0)

theorem length_bytes (met : Metrics) : met.bytes.length = sizeofMetrics := by
  simp [Metrics.bytes, sizeofMetrics]

/-- **The metrics come back as they are**, if the reader has room for them. -/
theorem readFn_readCallback (met : Metrics) {len : Nat} (room : sizeofMetrics ≤ len) :
    readFn (readCallback met len) = met := by
  have whole : readCallback met len = met.bytes := by
    rw [readCallback, Nat.min_eq_left room]
    exact List.take_of_length_le (Nat.le_of_eq (length_bytes met))
  have word (w : UInt32) :
      UInt32.ofNat (LittleEndian.value (LittleEndian.bytes 4 w.toNat)) = w := by
    rw [LittleEndian.value_bytes w.toNat_lt]
    exact UInt32.ofNat_toNat
  have rest : sizeofMetrics - min met.bytes.length sizeofMetrics = 0 := by
    rw [length_bytes, Nat.min_self, Nat.sub_self]
  rw [readFn, whole, rest, List.replicate_zero, List.append_nil, length_bytes, Nat.min_self,
    List.take_of_length_le (Nat.le_of_eq (length_bytes met))]
  simp only [Metrics.load, Metrics.bytes]
  rw [List.take_left' (LittleEndian.length_bytes 4 _),
    List.drop_left' (LittleEndian.length_bytes 4 _),
    List.take_left' (LittleEndian.length_bytes 4 _), word, word]
  have last : (LittleEndian.bytes 4 met.writeCount.toNat ++
      (LittleEndian.bytes 4 met.writeLen.toNat ++
        LittleEndian.bytes 4 met.writeRate.toNat)).drop 8 =
      LittleEndian.bytes 4 met.writeRate.toNat := by
    rw [← List.append_assoc]
    exact List.drop_left' (by simp)
  rw [last, word]

/-! ## What a test writes -/

/-- The writes that follow the reset: `n` packets of the picture, and the last one if it is
accepted. -/
def afterReset (n : Nat) (last : Bool) : List (List UInt8) :=
  List.replicate n dummy ++ if last then [dummy.take 200] else []

theorem sendImg_eq (write : Nat → Int) (left : Nat) (s : Progress) :
    ∃ n, n ≤ left ∧ (sendImg write left s).accepted = s.accepted ++ List.replicate n dummy ∧
      (sendImg write left s).data = s.data + .ofNat (244 * n) := by
  induction left generalizing s with
  | zero => exact ⟨0, Nat.le_refl 0, by simp [sendImg], by simp [sendImg]⟩
  | succ left ih =>
      rw [sendImg]
      split
      · exact ⟨0, Nat.zero_le _, by simp, by simp⟩
      · obtain ⟨n, bound, accepted, data⟩ :=
          ih ⟨s.prog + 1, s.data + 244, s.accepted ++ [dummy]⟩
        refine ⟨n + 1, Nat.succ_le_succ bound, ?_, ?_⟩
        · rw [accepted, List.append_assoc, List.replicate_succ]
          rfl
        · rw [data, UInt32.add_assoc, Nat.mul_add, Nat.add_comm, UInt32.ofNat_add]
          rfl

/-- A call that prints what it has sent. -/
theorem testRun_eq {a : Answers} {data : UInt32} (prints : (testRun a).sent = some data) :
    ∃ n, n ≤ IMG_SIZE ∧ data = .ofNat (244 * n + 200) ∧
      (testRun a).accepted = dummy.take 1 :: afterReset n (a.last = 0) := by
  obtain ⟨n, bound, accepted, sent⟩ := sendImg_eq a.write IMG_SIZE ⟨0, 0, [dummy.take 1]⟩
  refine ⟨n, bound, ?_⟩
  unfold testRun at prints ⊢
  split at prints
  · cases prints
  split at prints
  · cases prints
  split at prints
  · cases prints
  split at prints
  · cases prints
  rename_i connected ready configured reset
  rw [if_neg connected, if_neg ready, if_neg configured, if_neg reset]
  dsimp only at prints ⊢
  by_cases last : a.last = 0
  · rw [if_neg (not_not.mpr last)] at prints ⊢
    refine ⟨?_, ?_⟩
    · rw [← Option.some.inj prints, sent, UInt32.zero_add, UInt32.ofNat_add]
      rfl
    · rw [accepted]
      simp [afterReset, last]
  · rw [if_pos last] at prints ⊢
    refine ⟨?_, ?_⟩
    · rw [← Option.some.inj prints, sent, UInt32.zero_add, UInt32.ofNat_add]
      rfl
    · rw [accepted]
      simp [afterReset, last]

/-- None of them is a command, or longer than a packet of the picture. -/
theorem length_afterReset {n : Nat} {last : Bool} {buf : List UInt8}
    (member : buf ∈ afterReset n last) : buf.length = 244 ∨ buf.length = 200 := by
  rw [afterReset, List.mem_append, List.mem_replicate] at member
  obtain ⟨-, rfl⟩ | member := member
  · exact .inl length_dummy
  · cases last
    · cases member
    · rw [if_pos rfl, List.mem_singleton] at member
      rw [member]
      exact .inr (by simp)

theorem length_flatten_afterReset (n : Nat) (last : Bool) :
    (afterReset n last).flatten.length = 244 * n + if last then 200 else 0 := by
  cases last <;> simp [afterReset, List.length_flatten, Nat.mul_comm]

/-! ## What the peer counts -/

variable {freq : Nat} {before arrived : List Received}

/-- The writes since the last reset. -/
def writesSince (writes : List Received) : Nat :=
  present (fun n r => if r.buf.length = 1 then 0 else n + 1) 0 writes

@[simp] theorem writesSince_snoc {r : Received} :
    writesSince (before ++ [r]) = if r.buf.length = 1 then 0 else writesSince before + 1 :=
  present_snoc

theorem run_writeCount {handsOn : Bool} :
    (run freq handsOn before).met.writeCount.toNat = writesSince before % 2 ^ 32 := by
  induction before using List.reverseRecOn with
  | nil => rfl
  | append_singleton done r ih =>
      rw [run_snoc, writeCallback, writesSince_snoc]
      by_cases command : r.buf.length = 1
      · rw [measure_reset command, if_pos command]
        cases handsOn <;> rfl
      · rw [measure_data command, if_neg command]
        have grown : ((run freq handsOn done).met.writeCount + 1).toNat =
            (writesSince done + 1) % 2 ^ 32 := by
          rw [UInt32.toNat_add, ih, Nat.mod_add_mod]
          rfl
        cases handsOn <;> exact grown

/-- Behind a reset only what follows it counts. -/
theorem since_reset {reset : Received} (command : reset.buf.length = 1)
    (data : ∀ r ∈ arrived, r.buf.length ≠ 1) :
    writesSince (before ++ reset :: arrived) = arrived.length ∧
      bytesSince (before ++ reset :: arrived) = (arrived.map Received.buf).flatten.length := by
  induction arrived using List.reverseRecOn with
  | nil => simp [command]
  | append_singleton done r ih =>
      obtain ⟨count, len⟩ := ih fun q member => data q (by simp [member])
      have other : r.buf.length ≠ 1 := data r (by simp)
      rw [← List.cons_append, ← List.append_assoc, writesSince_snoc, bytesSince_snoc,
        if_neg other, if_neg other, count, len]
      simp

/-! ## Both sides -/

/-- A part of the writes that has all their bytes is all of them. -/
theorem eq_of_length_flatten {part whole : List (List UInt8)} (within : part <+: whole)
    (nonempty : ∀ buf ∈ whole, buf.length ≠ 0) (same : part.flatten.length = whole.flatten.length) :
    part = whole := by
  obtain ⟨rest, rfl⟩ := within
  cases rest with
  | nil => rw [List.append_nil]
  | cons buf rest =>
      have some_ := nonempty buf (by simp)
      rw [List.flatten_append, List.flatten_cons, List.length_append, List.length_append] at same
      omega

/-- The bytes of a part of what follows the reset, against those that `test_run` prints. -/
theorem length_eq_iff {n : Nat} {last : Bool} {part : List (List UInt8)} (bound : n ≤ IMG_SIZE)
    (within : part <+: afterReset n last) :
    part.flatten.length < 2 ^ 32 ∧
      (part.flatten.length = (UInt32.ofNat (244 * n + 200)).toNat ↔
        part = afterReset n last ∧ last = true) := by
  have size : IMG_SIZE = 2511 := rfl
  have whole := length_flatten_afterReset n last
  have le : part.flatten.length ≤ (afterReset n last).flatten.length := by
    obtain ⟨rest, same⟩ := within
    rw [← same, List.flatten_append, List.length_append]
    omega
  have most : (if last = true then 200 else 0) ≤ 200 := by split <;> omega
  have small : (UInt32.ofNat (244 * n + 200)).toNat = 244 * n + 200 := by
    rw [UInt32.toNat_ofNat']
    omega
  refine ⟨by omega, ?_⟩
  rw [small]
  constructor
  · intro same
    have all : last = true := by
      apply eq_true_of_ne_false
      rintro rfl
      rw [if_neg Bool.false_ne_true] at whole
      omega
    rw [if_pos all] at whole
    refine ⟨eq_of_length_flatten within (fun buf member => ?_) (same.trans whole.symm), all⟩
    rcases length_afterReset member with packet | tail <;> omega
  · rintro ⟨rfl, all⟩
    rw [whole, if_pos all]

/-- **The two lines that a test prints.**  Whatever the peer has counted before, and wherever the
packets of the picture were refused or the link stopped: if the reset has arrived, the metrics
that the master reads back count exactly the writes and the bytes of this test that have arrived
behind it; and the bytes received are the bytes printed as sent if and only if the last write was
accepted and everything that was accepted has arrived. -/
theorem measured (freq : Nat) (before arrived : List Received) (a : Answers) {data : UInt32}
    {len : Nat} (prints : (testRun a).sent = some data)
    (inOrder : arrived.map Received.buf <+: (testRun a).accepted) (some_ : arrived ≠ [])
    (room : sizeofMetrics ≤ len) :
    let met := readFn (readCallback (run freq true (before ++ arrived)).met len)
    met.writeCount.toNat + 1 = arrived.length ∧
      met.writeLen.toNat + 1 = (arrived.map Received.buf).flatten.length ∧
      (met.writeLen = data ↔
        arrived.map Received.buf = (testRun a).accepted ∧ a.last = 0) := by
  obtain ⟨n, bound, rfl, accepted⟩ := testRun_eq prints
  rw [readFn_readCallback _ room, accepted]
  rw [accepted] at inOrder
  obtain ⟨reset, rest, rfl⟩ := List.exists_cons_of_ne_nil some_
  rw [List.map_cons, List.cons_prefix_cons] at inOrder
  obtain ⟨command, within⟩ := inOrder
  have one : reset.buf.length = 1 := by rw [command]; simp
  have data : ∀ r ∈ rest, r.buf.length ≠ 1 := by
    intro r member
    have inside := within.subset (List.mem_map_of_mem member)
    rcases length_afterReset inside with packet | tail <;> omega
  have since : writesSince (before ++ reset :: rest) = rest.length ∧
      bytesSince (before ++ reset :: rest) = (rest.map Received.buf).flatten.length :=
    since_reset one data
  obtain ⟨count, bytes⟩ := since
  obtain ⟨small, same⟩ := length_eq_iff bound within
  have few : rest.length < 2 ^ 32 := by
    have part := within.length_le
    have whole : (afterReset n (a.last = 0)).length ≤ n + 1 := by
      rw [afterReset, List.length_append, List.length_replicate]
      split <;> simp
    have size : IMG_SIZE = 2511 := rfl
    rw [List.length_map] at part
    omega
  refine ⟨?_, ?_, ?_⟩
  · rw [run_writeCount, count, Nat.mod_eq_of_lt few, List.length_cons]
  · rw [run_writeLen, bytes, Nat.mod_eq_of_lt small, List.map_cons, List.flatten_cons,
      List.length_append, one, Nat.add_comm]
  · rw [← UInt32.toNat_inj, run_writeLen, bytes, Nat.mod_eq_of_lt small, same, List.map_cons,
      command]
    simp

theorem fits_dummy : dummy.length < 2 ^ 16 := by
  rw [length_dummy]
  decide

/-- The link is lost behind the reset and one packet. -/
theorem measured_lost :
    (readFn (readCallback (run 32768 true
      ([⟨[7], by decide, 0, 0⟩, ⟨[7, 7], by decide, 9, 9⟩] ++
        [⟨dummy.take 1, by decide, 20, 21⟩,
          ⟨dummy, fits_dummy, 30, 30⟩])).met 22)).writeCount.toNat + 1 = 2 :=
  (measured 32768 [⟨[7], by decide, 0, 0⟩, ⟨[7, 7], by decide, 9, 9⟩]
    [⟨dummy.take 1, by decide, 20, 21⟩, ⟨dummy, fits_dummy, 30, 30⟩]
    ⟨true, true, 0, 0, fun n => if n = 1 then -128 else 0, -128, 0⟩
    rfl (List.prefix_refl _) (List.cons_ne_nil _ _) (by decide)).1

end NcsExp.Throughput.Service
