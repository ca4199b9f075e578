/-
# NcsExp.Throughput.Service -- the metrics of the throughput service

`write_callback` of `throughput.c` runs for every GATT write: a write of one byte resets
the metrics, any other one is counted, and both are handed on to `data_received`.

* `Received` is a write, with the cycle counter at the two places where it is read; the
  code sees its low 32 bits.
* The rate is kept as the expression that the source has (`rate`), so that a wrap or a
  division by 0 in it can be told.
* `counters_agree_iff`: the counters are those of what is handed on as long as nothing is
  reset.
-/
import NcsExp.Theory.History
import NcsExp.Theory.WordExpr
import Mathlib.Data.List.Induction

namespace NcsExp.Throughput.Service

open NcsExp.Theory

set_option autoImplicit false

/-! ## Data -/

/-- `struct bt_throughput_metrics`. -/
structure Metrics where
  writeCount : UInt32
  writeLen : UInt32
  writeRate : UInt32
  deriving DecidableEq

inductive Entry
  | reset
  | dataReceived (met : Metrics) (buf : List UInt8)
  deriving DecidableEq

/-- `met`, and the static `clock_cycles` of `write_callback`. -/
structure State where
  met : Metrics
  clockCycles : UInt32
  log : List Entry

/-- A GATT write; `now` and `resetNow` are the cycles counted when `write_callback` begins and
when it resets. -/
structure Received where
  buf : List UInt8
  fits : buf.length < 2 ^ 16
  now : Nat
  resetNow : Nat

def boot : State where
  met := ⟨0, 0, 0⟩
  clockCycles := 0
  log := []

/-! ## `write_callback` -/

/-- `k_cyc_to_ns_floor64` at `freq` cycles a second. -/
def kCycToNsFloor64 (freq : Nat) (t : UInt64) : UInt64 := .ofNat (t.toNat * 1000000000 / freq)

/-- Lines 59-60. -/
def delta (freq : Nat) (s : State) (r : Received) : UInt64 :=
  kCycToNsFloor64 freq (UInt32.ofNat r.now - s.clockCycles).toUInt64

/-- Lines 72-73, before the result is cut to 32 bits. -/
def rate (writeLen : UInt32) (delta : UInt64) : WordExpr 64 :=
  .div (.mul (.shl (.word writeLen.toUInt64.toBitVec) 3) (.word 1000000000))
    (.word delta.toBitVec)

/-- `met_data->write_len` after line 71. -/
def newLen (s : State) (r : Received) : UInt32 := s.met.writeLen + .ofNat r.buf.length

/-- Lines 62-74. -/
def measure (freq : Nat) (s : State) (r : Received) : State :=
  if r.buf.length = 1 then
    { met := ⟨0, 0, 0⟩, clockCycles := .ofNat r.resetNow, log := s.log ++ [.reset] }
  else
    { s with met :=
        { writeCount := s.met.writeCount + 1
          writeLen := newLen s r
          writeRate := .ofNat (rate (newLen s r) (delta freq s r)).eval.toNat } }

/-- Lines 48-83; `dataReceived` says whether `callbacks->data_received` is set. -/
def writeCallback (freq : Nat) (dataReceived : Bool) (s : State) (r : Received) :
    State × Nat :=
  let s := measure freq s r
  let s := if dataReceived then { s with log := s.log ++ [.dataReceived s.met r.buf] } else s
  (s, r.buf.length)

/-- The service after the writes. -/
def run (freq : Nat) (dataReceived : Bool) (writes : List Received) : State :=
  writes.foldl (fun s r => (writeCallback freq dataReceived s r).1) boot

variable {freq : Nat} {dataReceived : Bool} {writes : List Received} {r : Received}

@[simp] theorem run_snoc :
    run freq dataReceived (writes ++ [r]) =
      (writeCallback freq dataReceived (run freq dataReceived writes) r).1 := by
  rw [run, List.foldl_append]
  rfl

/-! ## What is handed on -/

/-- The writes handed on since the last reset. -/
def sinceReset (log : List Entry) : List (List UInt8) :=
  present (fun bufs e => match e with
    | .reset => []
    | .dataReceived _ buf => bufs ++ [buf]) [] log

/-- All bytes handed on. -/
def payload (log : List Entry) : List UInt8 :=
  log.flatMap fun
    | .reset => []
    | .dataReceived _ buf => buf

/-- The bytes of the writes that are no commands. -/
def dataBytes (writes : List Received) : List UInt8 :=
  writes.flatMap fun r => if r.buf.length = 1 then [] else r.buf

/-- The counters are those of what was handed on since the last reset, and no command is in the
payload. -/
structure Agrees (freq : Nat) (dataReceived : Bool) (writes : List Received) : Prop where
  writeCount : (run freq dataReceived writes).met.writeCount.toNat =
    (sinceReset (run freq dataReceived writes).log).length % 2 ^ 32
  writeLen : (run freq dataReceived writes).met.writeLen.toNat =
    (sinceReset (run freq dataReceived writes).log).flatten.length % 2 ^ 32
  payload : payload (run freq dataReceived writes).log = dataBytes writes

/-- A write that keeps the counters right: one that is counted if writes are handed on, and one
that is not if they are not. -/
def Counted (dataReceived : Bool) (r : Received) : Prop :=
  if dataReceived then r.buf.length ≠ 1 else r.buf.length = 1

theorem measure_reset {s : State} (command : r.buf.length = 1) :
    measure freq s r =
      { met := ⟨0, 0, 0⟩, clockCycles := .ofNat r.resetNow, log := s.log ++ [.reset] } :=
  if_pos command

theorem measure_data {s : State} (data : r.buf.length ≠ 1) :
    measure freq s r = { s with met :=
      { writeCount := s.met.writeCount + 1
        writeLen := newLen s r
        writeRate := .ofNat (rate (newLen s r) (delta freq s r)).eval.toNat } } :=
  if_neg data

@[simp] theorem sinceReset_reset (log : List Entry) : sinceReset (log ++ [.reset]) = [] :=
  present_snoc

@[simp] theorem sinceReset_dataReceived (log : List Entry) (met : Metrics) (buf : List UInt8) :
    sinceReset (log ++ [.dataReceived met buf]) = sinceReset log ++ [buf] :=
  present_snoc

@[simp] theorem payload_snoc (log : List Entry) (e : Entry) :
    payload (log ++ [e]) = payload log ++ match e with
      | .reset => []
      | .dataReceived _ buf => buf := by
  simp [payload]

@[simp] theorem dataBytes_snoc :
    dataBytes (writes ++ [r]) = dataBytes writes ++ if r.buf.length = 1 then [] else r.buf := by
  simp [dataBytes]

/-- A write that is handed on and counted. -/
theorem agrees_data (before : Agrees freq true writes) (data : r.buf.length ≠ 1) :
    Agrees freq true (writes ++ [r]) := by
  obtain ⟨count, len, bytes⟩ := before
  have one : (1 : UInt32).toNat = 1 := rfl
  constructor
  · simp only [run_snoc, writeCallback, measure_data data, if_true, sinceReset_dataReceived,
      List.length_append, List.length_singleton, UInt32.toNat_add, count, one]
    omega
  · simp only [run_snoc, writeCallback, measure_data data, if_true, sinceReset_dataReceived,
      List.flatten_append, List.flatten_singleton, List.length_append, newLen, UInt32.toNat_add,
      UInt32.toNat_ofNat', len]
    omega
  · simp only [run_snoc, writeCallback, measure_data data, if_true, payload_snoc, dataBytes_snoc,
      bytes, if_neg data]

/-- A reset that is not handed on. -/
theorem agrees_reset (before : Agrees freq false writes) (command : r.buf.length = 1) :
    Agrees freq false (writes ++ [r]) := by
  obtain ⟨-, -, bytes⟩ := before
  constructor
  · simp [writeCallback, measure_reset command]
  · simp [writeCallback, measure_reset command]
  · simp [writeCallback, measure_reset command, bytes, command]

/-- **A reset that is handed on is not counted.** -/
theorem counted_of_agrees_true (after : Agrees freq true (writes ++ [r])) : r.buf.length ≠ 1 := by
  intro command
  have count := after.writeCount
  simp only [run_snoc, writeCallback, measure_reset command, if_true, sinceReset_dataReceived,
    sinceReset_reset] at count
  cases count

/-- A write that is counted and not handed on. -/
theorem counted_of_agrees_false (before : Agrees freq false writes)
    (after : Agrees freq false (writes ++ [r])) : r.buf.length = 1 := by
  by_contra data
  have count := after.writeCount
  have was := before.writeCount
  simp only [run_snoc, writeCallback, measure_data data, Bool.false_eq_true, if_false,
    UInt32.toNat_add] at count
  rw [← was] at count
  have small := (run freq false writes).met.writeCount.toNat_lt
  have one : (1 : UInt32).toNat = 1 := rfl
  omega

theorem agrees_boot : Agrees freq dataReceived [] := ⟨rfl, rfl, rfl⟩

/-- **Counters and payload.**  They agree after every write if and only if no write is a reset,
or, where nothing is handed on, every write is one. -/
theorem counters_agree_iff (freq : Nat) (dataReceived : Bool) (writes : List Received) :
    Always (fun done r => Agrees freq dataReceived (done ++ [r])) writes ↔
      ∀ r ∈ writes, Counted dataReceived r := by
  suffices both : (Always (fun done r => Agrees freq dataReceived (done ++ [r])) writes ↔
      ∀ r ∈ writes, Counted dataReceived r) ∧
      ((∀ r ∈ writes, Counted dataReceived r) → Agrees freq dataReceived writes) from both.1
  induction writes using List.reverseRecOn with
  | nil => exact ⟨⟨fun _ => by simp, fun _ => always_nil⟩, fun _ => agrees_boot⟩
  | append_singleton writes r ih =>
      obtain ⟨same, agrees⟩ := ih
      have last : Agrees freq dataReceived writes → Counted dataReceived r →
          Agrees freq dataReceived (writes ++ [r]) := by
        intro before counted
        cases dataReceived with
        | true => exact agrees_data before counted
        | false => exact agrees_reset before counted
      simp only [always_snoc, same, List.mem_append, List.mem_singleton, or_imp, forall_and,
        forall_eq]
      refine ⟨and_congr_right fun before => ⟨fun after => ?_, last (agrees before)⟩,
        fun counted => last (agrees counted.1) counted.2⟩
      cases dataReceived with
      | true => exact counted_of_agrees_true after
      | false => exact counted_of_agrees_false (agrees before) after

/-- **The reset is stored with the image**: it is handed on, and not counted. -/
theorem reset_handed_on :
    ¬ ∀ (freq : Nat) (writes : List Received),
      Always (fun done r => Agrees freq true (done ++ [r])) writes := by
  intro always
  have agrees := always 32768 [⟨[1], by decide, 0, 0⟩] [] ⟨[1], by decide, 0, 0⟩ [] rfl
  exact absurd agrees.payload (by decide)

end NcsExp.Throughput.Service
