/-
# NcsExp.NusThroughput.Tests -- ten tests at the press of a button

`ble_write_thread` waits for the button and makes ten tests; a test is 1000 accepted packets
(`throughput_data_send`).  The central counts a packet that the stack has accepted, the
peripheral also those that the stack has sent (`bt_sent_cb`), and waits for all of them.
The packets reach the `recv_data_process` of the other side in order; those on their way when
the link is lost do not, and no count of either side is cleared then.

* `sent_counts`: the peripheral's `sent_cnt` counts the packets of the present test alone,
  its difference to `send_count` does not wrap, and a test ends when all are sent.
* `speeds_within_test`: of ten reports of the receiver nine have a speed, each over 100
  packets, and these are of one test as long as the link was not lost.
-/
import NcsExp.NusThroughput.Reports
import NcsExp.Theory.Runs
import NcsExp.Theory.Semaphore

namespace NcsExp.NusThroughput

open NcsExp.Theory

set_option autoImplicit false

/-! ## Data -/

def NUMBER_THROUGHPUT_TESTS : Nat := 10

/-- `CONFIG_BT_L2CAP_TX_BUF_COUNT` of the peripheral. -/
def BT_L2CAP_TX_BUF_COUNT : Nat := 10

/-- The two programs that have the thread. -/
inductive Side
  | central
  | peripheral
  deriving DecidableEq

/-- The next statement of `ble_write_thread`, and of `throughput_data_send` in it: `next` is the
head of the loop over the tests and `send` the one over the packets; `count` is behind a packet
that was accepted, `pause` in the sleep of the peripheral when its buffers get tight, and `drain`
the wait for those not sent yet. -/
inductive Pc
  | waiting
  | next
  | send
  | count
  | check
  | pause
  | drain
  | finish
  | sleep
  deriving DecidableEq

/-- A packet that the receiver has handled: the test it was sent in, and when. -/
structure Arrival where
  test : Nat
  now : Nat
  deriving DecidableEq

def Arrival.packet (a : Arrival) : Packet := ⟨.ofNat THROUGH_PACKET_SIZE, a.now⟩

/-! ## The reports of full packets -/

/-- All packets have the size of those of a test. -/
def Full (packets : List Packet) : Prop := ∀ p ∈ packets, p.len = .ofNat THROUGH_PACKET_SIZE

/-- When the packet at `i` was handled. -/
def nowAt (packets : List Packet) (i : Nat) : UInt32 := .ofNat ((packets[i]?.map Packet.now).getD 0)

/-- The report at `j`: of each ten the first has no speed, and the others that of 100 packets. -/
def reportAt (packets : List Packet) (j : Nat) : Report where
  time := nowAt packets (RECV_THRESHOLD_CNT * j + 99)
  received := .ofNat (RECV_THRESHOLD * (j + 1))
  speed :=
    if j % NUM_SPEED_CACULATIONS = 0 then none
    else some (.ofNat (RECV_THRESHOLD * 8) /
      (nowAt packets (RECV_THRESHOLD_CNT * j + 99) - nowAt packets (RECV_THRESHOLD_CNT * j - 1)))

def reportsOf (packets : List Packet) : List Report :=
  (List.range (packets.length / RECV_THRESHOLD_CNT)).map (reportAt packets)

section

variable {done : List Packet} {p : Packet} {s t : Receiver}

theorem Full.snoc (full : Full (done ++ [p])) :
    Full done ∧ p.len = .ofNat THROUGH_PACKET_SIZE :=
  ⟨fun q member => full q (by simp [member]), full p (by simp)⟩

theorem Full.total_eq (full : Full done) : total done = THROUGH_PACKET_SIZE * done.length := by
  induction done using List.reverseRecOn with
  | nil => rfl
  | append_singleton done p ih =>
      obtain ⟨before, size⟩ := full.snoc
      rw [total_snoc, ih before, size, List.length_append, Nat.mul_add]
      rfl

theorem nowAt_of_lt {i : Nat} (inside : i < done.length) :
    nowAt (done ++ [p]) i = nowAt done i := by
  rw [nowAt, nowAt, List.getElem?_append_left inside]

theorem nowAt_last : nowAt (done ++ [p]) done.length = .ofNat p.now := by
  rw [nowAt, List.getElem?_append_right (Nat.le_refl _), Nat.sub_self]
  rfl

/-- Later packets change no report. -/
theorem reportAt_snoc {j : Nat} (made : j < done.length / RECV_THRESHOLD_CNT) :
    reportAt (done ++ [p]) j = reportAt done j := by
  rw [RECV_THRESHOLD_CNT] at made
  have last : nowAt (done ++ [p]) (RECV_THRESHOLD_CNT * j + 99) =
      nowAt done (RECV_THRESHOLD_CNT * j + 99) :=
    nowAt_of_lt (by rw [RECV_THRESHOLD_CNT]; omega)
  have first : nowAt (done ++ [p]) (RECV_THRESHOLD_CNT * j - 1) =
      nowAt done (RECV_THRESHOLD_CNT * j - 1) :=
    nowAt_of_lt (by rw [RECV_THRESHOLD_CNT]; omega)
  rw [reportAt, reportAt, last, first]

/-- The hundredth packet since the last report makes one. -/
theorem reportsOf_hit (hundred : RECV_THRESHOLD_CNT ∣ done.length + 1) :
    reportsOf (done ++ [p]) =
      reportsOf done ++ [reportAt (done ++ [p]) (done.length / RECV_THRESHOLD_CNT)] := by
  have next : (done.length + 1) / RECV_THRESHOLD_CNT = done.length / RECV_THRESHOLD_CNT + 1 :=
    Nat.succ_div_of_dvd hundred
  rw [reportsOf, List.length_append, List.length_singleton, next, List.range_succ, List.map_append,
    reportsOf]
  refine congrArg (· ++ _) (List.map_congr_left fun j member => ?_)
  exact reportAt_snoc (List.mem_range.mp member)

/-- Any other makes none. -/
theorem reportsOf_miss (other : ¬ RECV_THRESHOLD_CNT ∣ done.length + 1) :
    reportsOf (done ++ [p]) = reportsOf done := by
  have same : (done.length + 1) / RECV_THRESHOLD_CNT = done.length / RECV_THRESHOLD_CNT :=
    Nat.succ_div_of_not_dvd other
  rw [reportsOf, List.length_append, List.length_singleton, same, reportsOf]
  exact List.map_congr_left fun j member => reportAt_snoc (List.mem_range.mp member)

/-- So many that the counts of the receiver do not wrap. -/
def Few (n : Nat) : Prop := n < RECV_THRESHOLD_CNT * (2 ^ 32 - 1)

theorem hits_full (full : Full (done ++ [p])) (few : Few done.length) :
    Hits done p ↔ RECV_THRESHOLD_CNT ∣ done.length + 1 := by
  obtain ⟨before, size⟩ := full.snoc
  have len : p.len.toNat = THROUGH_PACKET_SIZE := by rw [size]; rfl
  have fits : THROUGH_PACKET_SIZE * (done.length + 1) < 2 ^ 64 := by
    simp only [Few, RECV_THRESHOLD_CNT, THROUGH_PACKET_SIZE] at few ⊢
    omega
  rw [Hits, before.total_eq, len, ← Nat.mul_succ, Nat.mod_eq_of_lt fits, RECV_THRESHOLD]
  exact Nat.mul_dvd_mul_iff_left (by decide)

theorem lastHit_full (full : Full done) (few : Few done.length)
    (some_ : RECV_THRESHOLD_CNT ≤ done.length) :
    .ofNat (lastHit done) =
      nowAt done (RECV_THRESHOLD_CNT * (done.length / RECV_THRESHOLD_CNT) - 1) := by
  induction done using List.reverseRecOn with
  | nil => exact absurd some_ (by decide)
  | append_singleton done p ih =>
      rw [List.length_append, List.length_singleton] at few some_ ⊢
      have fewer : Few done.length := Nat.lt_of_succ_lt few
      rw [lastHit_snoc]
      by_cases hundred : RECV_THRESHOLD_CNT ∣ done.length + 1
      · rw [if_pos ((hits_full full fewer).mpr hundred), Nat.mul_div_cancel' hundred,
          Nat.add_sub_cancel]
        exact nowAt_last.symm
      · rw [if_neg (mt (hits_full full fewer).mp hundred), Nat.succ_div_of_not_dvd hundred]
        have earlier : RECV_THRESHOLD_CNT ≤ done.length := by
          rw [RECV_THRESHOLD_CNT] at some_ hundred ⊢
          omega
        rw [ih full.snoc.1 fewer earlier, nowAt_of_lt]
        rw [RECV_THRESHOLD_CNT] at earlier ⊢
        omega

@[simp] theorem length_reportsOf : (reportsOf done).length = done.length / RECV_THRESHOLD_CNT := by
  simp [reportsOf]

/-- The report that the hundredth packet makes, from the variables of the receiver. -/
theorem reportAt_hit (full : Full (done ++ [p])) (few : Few (done.length + 1))
    (hundred : RECV_THRESHOLD_CNT ∣ done.length + 1) (kept : Kept done s)
    (made : s.reports.length = done.length / RECV_THRESHOLD_CNT) :
    ((s.throughputSpeedCaculationCnt + 1) % .ofNat NUM_SPEED_CACULATIONS = 1 →
      reportAt (done ++ [p]) (done.length / RECV_THRESHOLD_CNT) =
        ⟨.ofNat p.now, (s.bytesReceived + p.len.toUInt64).toUInt32, none⟩) ∧
    ((s.throughputSpeedCaculationCnt + 1) % .ofNat NUM_SPEED_CACULATIONS ≠ 1 →
      reportAt (done ++ [p]) (done.length / RECV_THRESHOLD_CNT) =
        ⟨.ofNat p.now, (s.bytesReceived + p.len.toUInt64).toUInt32,
          some (.ofNat (RECV_THRESHOLD * 8) / (.ofNat p.now - s.preTimestamp))⟩) := by
  obtain ⟨before, size⟩ := full.snoc
  have len : p.len.toNat = THROUGH_PACKET_SIZE := by rw [size]; rfl
  have index : RECV_THRESHOLD_CNT * (done.length / RECV_THRESHOLD_CNT) + 99 = done.length := by
    rw [RECV_THRESHOLD_CNT] at hundred ⊢
    omega
  have time : nowAt (done ++ [p]) (RECV_THRESHOLD_CNT * (done.length / RECV_THRESHOLD_CNT) + 99) =
      .ofNat p.now := by rw [index, nowAt_last]
  have bytes : (s.bytesReceived + p.len.toUInt64).toUInt32 =
      .ofNat (RECV_THRESHOLD * (done.length / RECV_THRESHOLD_CNT + 1)) := by
    have exact_ : total done + p.len.toNat =
        RECV_THRESHOLD * (done.length / RECV_THRESHOLD_CNT + 1) := by
      rw [before.total_eq, len, RECV_THRESHOLD]
      simp only [RECV_THRESHOLD_CNT, THROUGH_PACKET_SIZE] at index ⊢
      omega
    rw [← UInt32.toNat_inj, UInt64.toNat_toUInt32, kept.bytes_snoc, exact_, UInt32.toNat_ofNat']
    exact Nat.mod_mod_of_dvd _ (by decide)
  have first := kept.first_iff
  have fewer : s.reports.length + 1 < 2 ^ 32 := by
    rw [made]
    simp only [Few, RECV_THRESHOLD_CNT] at few ⊢
    omega
  rw [Nat.mod_eq_of_lt fewer, made, NUM_SPEED_CACULATIONS, THROUGHPUT_PACKETS_TO_SEND,
    RECV_THRESHOLD_CNT] at first
  refine ⟨fun one => ?_, fun other => ?_⟩
  · have skipped : done.length / RECV_THRESHOLD_CNT % NUM_SPEED_CACULATIONS = 0 := by
      have one := first.mp one
      rw [NUM_SPEED_CACULATIONS, THROUGHPUT_PACKETS_TO_SEND, RECV_THRESHOLD_CNT]
      omega
    rw [reportAt, time, bytes, if_pos skipped]
  · have timed : done.length / RECV_THRESHOLD_CNT % NUM_SPEED_CACULATIONS ≠ 0 := by
      have other := mt first.mpr other
      rw [NUM_SPEED_CACULATIONS, THROUGHPUT_PACKETS_TO_SEND, RECV_THRESHOLD_CNT]
      omega
    have some_ : RECV_THRESHOLD_CNT ≤ done.length := by
      apply Nat.le_of_not_lt
      intro less
      exact timed (by rw [Nat.div_eq_of_lt less]; rfl)
    have pre : s.preTimestamp =
        nowAt (done ++ [p]) (RECV_THRESHOLD_CNT * (done.length / RECV_THRESHOLD_CNT) - 1) := by
      have last : .ofNat (lastHit done) = s.preTimestamp := by
        rw [← UInt32.toNat_inj, kept.pre, UInt32.toNat_ofNat']
      rw [← last, lastHit_full before (Nat.lt_of_succ_lt few) some_, nowAt_of_lt]
      omega
    rw [reportAt, time, bytes, if_neg timed, pre]

/-- **The reports of full packets**, one for each hundred of them. -/
theorem receive_full (full : Full done) (few : Few done.length) (received : receive done = some s) :
    s.reports = reportsOf done := by
  induction done using List.reverseRecOn generalizing s with
  | nil =>
      cases received
      rfl
  | append_singleton done p ih =>
      rw [List.length_append, List.length_singleton] at few
      have fewer : Few done.length := Nat.lt_of_succ_lt few
      rw [receive_snoc, Option.bind_eq_some_iff] at received
      obtain ⟨before, first, last⟩ := received
      have kept := receive_kept first
      have reports := ih full.snoc.1 fewer first
      have hits := hits_full full fewer
      unfold recvDataProcess at last
      dsimp only at last
      by_cases hundred : RECV_THRESHOLD_CNT ∣ done.length + 1
      · rw [if_pos (kept.hits_iff.mpr (hits.mpr hundred))] at last
        rw [reportsOf_hit hundred, ← reports]
        have at_ := reportAt_hit full few hundred kept (by rw [reports, length_reportsOf])
        split at last
        · rename_i other
          split at last
          · cases last
          · cases last
            rw [at_.2 other]
            rfl
        · rename_i first
          cases last
          rw [at_.1 (not_not.mp first)]
          rfl
      · rw [if_neg (mt kept.hits_iff.mp (mt hits.mp hundred))] at last
        cases last
        rw [reportsOf_miss hundred]
        exact reports

end

/-- `pending` is what the stack has accepted and not reported as sent; `tests` is the number of
tests that are over, and `inFlight` the tests of the packets on their way. -/
structure System where
  side : Side
  throughputSem : Semaphore 1
  pc : Pc
  tempcnt : UInt32
  throughputTemp : UInt64
  sendCount : UInt32
  sentCnt : UInt32
  startTimeMs : UInt32
  averages : List UInt32
  pending : Nat
  tests : Nat
  inFlight : List Nat
  delivered : List Arrival
  receiver : Receiver
  now : Nat
  deriving DecidableEq

namespace System

/-! ## The code -/

/-- The start of `throughput_data_send`; only the peripheral has a `sent_cnt` to clear. -/
def beginTest (s : System) : System :=
  { s with
    sendCount := 0
    sentCnt := if s.side = .peripheral then 0 else s.sentCnt
    startTimeMs := .ofNat s.now
    pc := .send }

/-- A packet that `bt_gatt_write_without_response`, or `bt_nus_send`, has accepted. -/
def accepted (s : System) : System :=
  { s with
    inFlight := s.inFlight ++ [s.tests]
    pending := if s.side = .peripheral then s.pending + 1 else s.pending
    pc := .count }

/-- The result of a test, and the average; `none` where it divides by zero. -/
def endTest (s : System) : Option System :=
  let time := UInt32.ofNat s.now - s.startTimeMs
  if time = 0 then none
  else
    let result := UInt32.ofNat (THROUGHPUT_PACKETS_TO_SEND * THROUGH_PACKET_SIZE * 8) / time
    let temp := s.throughputTemp + result.toUInt64
    some { s with
      throughputTemp := temp
      averages := s.averages ++ [(temp / s.tempcnt.toUInt64).toUInt32]
      tests := s.tests + 1
      pc := .sleep }

/-- `send_count - get_sent_cnt() > CONFIG_BT_L2CAP_TX_BUF_COUNT`. -/
def tight (s : System) : Prop := .ofNat BT_L2CAP_TX_BUF_COUNT < s.sendCount - s.sentCnt

instance (s : System) : Decidable s.tight := inferInstanceAs (Decidable (_ < _))

/-- `ble_write_thread` and `throughput_data_send`, a statement a step; `err` is what the stack
returns for a packet. -/
def bleWriteThread (s : System) (err : Int) : Option System :=
  match s.pc with
  | .waiting =>
      s.throughputSem.take.map fun sem =>
        { s with throughputSem := sem, tempcnt := 0, throughputTemp := 0, pc := .next }
  | .next =>
      if s.tempcnt < .ofNat NUMBER_THROUGHPUT_TESTS then
        some (beginTest { s with tempcnt := s.tempcnt + 1 })
      else some { s with tempcnt := s.tempcnt + 1, pc := .waiting }
  | .send =>
      if s.sendCount < .ofNat THROUGHPUT_PACKETS_TO_SEND then
        if err = 0 then some s.accepted
        else some { s with pc := if s.side = .peripheral then .check else .send }
      else some { s with pc := if s.side = .peripheral then .drain else .finish }
  | .count =>
      some { s with
        sendCount := s.sendCount + 1
        pc := if s.side = .peripheral then .check else .send }
  | .check => some { s with pc := if s.tight then .pause else .send }
  | .pause => some { s with pc := .send }
  | .drain =>
      if s.sentCnt < .ofNat THROUGHPUT_PACKETS_TO_SEND then some s
      else some { s with pc := .finish }
  | .finish => s.endTest
  | .sleep => some { s with pc := .next }

/-- `bt_sent_cb`. -/
def btSentCb (s : System) : System :=
  { s with sentCnt := s.sentCnt + 1, pending := s.pending - 1 }

/-- The other side handles the first packet that is on its way. -/
def deliver (s : System) : Option System :=
  match s.inFlight with
  | [] => none
  | test :: rest =>
      let a : Arrival := ⟨test, s.now⟩
      (recvDataProcess s.receiver a.packet).map fun r =>
        { s with inFlight := rest, delivered := s.delivered ++ [a], receiver := r }

/-- The link is lost, and with it what is on its way: both `disconnected` callbacks leave the
thread and the counts of the receiver alone, and the stack may still report a packet as sent. -/
def disconnected (s : System) : System := { s with inFlight := [] }

inductive Act
  | button
  | thread (err : Int)
  | sent
  | deliver
  | disconnected
  | tick
  deriving DecidableEq

def step (s : System) : Act → Option System
  | .button => some { s with throughputSem := s.throughputSem.give }
  | .thread err => s.bleWriteThread err
  | .sent => if 0 < s.pending then some s.btSentCb else none
  | .deliver => s.deliver
  | .disconnected => some s.disconnected
  | .tick => some { s with now := s.now + 1 }

structure Init (s : System) : Prop where
  pc : s.pc = .waiting
  pending : s.pending = 0
  tests : s.tests = 0
  inFlight : s.inFlight = []
  delivered : s.delivered = []
  receiver : s.receiver = .initial

/-- One such state. -/
def start (side : Side) : System :=
  ⟨side, .empty, .waiting, 0, 0, 0, 0, 0, [], 0, 0, [], [], .initial, 0⟩

theorem start_init (side : Side) : (start side).Init := ⟨rfl, rfl, rfl, rfl, rfl, rfl⟩

/-! ## The counts of a test -/

/-- A test is going on. -/
def testing (s : System) : Bool :=
  match s.pc with
  | .waiting => false
  | .next => false
  | .sleep => false
  | _ => true

/-- The packets of the present test that the stack has accepted. -/
def ofTest (s : System) : Nat :=
  if s.testing then s.sendCount.toNat + (if s.pc = .count then 1 else 0) else 0

structure Counted (s : System) : Prop where
  bound : s.testing = true → s.ofTest ≤ THROUGHPUT_PACKETS_TO_SEND
  /-- Every packet of the test is sent, or is still to be. -/
  balance : s.side = .peripheral → s.testing = true → s.sentCnt.toNat + s.pending = s.ofTest
  /-- Nothing of a test is left for the next. -/
  idle : s.side = .peripheral → s.testing = false → s.pending = 0
  central : s.side = .central → s.pending = 0
  all : s.pc = .drain ∨ s.pc = .finish → s.sendCount.toNat = THROUGHPUT_PACKETS_TO_SEND
  finish : s.side = .peripheral → s.pc = .finish → s.pending = 0

theorem counted_of_init {s : System} (init : s.Init) : Counted s := by
  obtain ⟨pc, pending, -, -, -, -⟩ := init
  refine ⟨?_, ?_, fun _ _ => pending, fun _ => pending, ?_, ?_⟩ <;> simp [testing, pc]

variable {s t : System} {a : Act} {err : Int}

namespace Counted

/-- What touches neither the thread nor the counts. -/
theorem quiet (inv : Counted s) (side : t.side = s.side) (pc : t.pc = s.pc)
    (sendCount : t.sendCount = s.sendCount) (sentCnt : t.sentCnt = s.sentCnt)
    (pending : t.pending = s.pending) : Counted t := by
  have testing : t.testing = s.testing := by rw [System.testing, System.testing, pc]
  have ofTest : t.ofTest = s.ofTest := by rw [System.ofTest, System.ofTest, testing, sendCount, pc]
  obtain ⟨bound, balance, idle, central, all, finish⟩ := inv
  rw [← testing, ← ofTest] at bound
  rw [← side, ← testing, ← ofTest, ← sentCnt, ← pending] at balance
  rw [← side, ← testing, ← pending] at idle
  rw [← side, ← pending] at central
  rw [← pc, ← sendCount] at all
  rw [← side, ← pc, ← pending] at finish
  exact ⟨bound, balance, idle, central, all, finish⟩

/-- One packet more is sent. -/
theorem sent (inv : Counted s) (some_ : 0 < s.pending) : Counted s.btSentCb := by
  have peripheral : s.side = .peripheral := by
    cases side : s.side with
    | central => exact absurd (inv.central side) (Nat.ne_of_gt some_)
    | peripheral => rfl
  have testing : s.testing = true := by
    apply eq_true_of_ne_false
    intro idle
    exact absurd (inv.idle peripheral idle) (Nat.ne_of_gt some_)
  have balance := inv.balance peripheral testing
  have bound := inv.bound testing
  rw [THROUGHPUT_PACKETS_TO_SEND] at bound
  refine ⟨inv.bound, fun _ _ => ?_, fun _ idle => ?_, fun central => ?_, inv.all, fun _ ended => ?_⟩
  · have sum : (s.sentCnt + 1).toNat = s.sentCnt.toNat + 1 := by
      rw [UInt32.toNat_add]
      exact Nat.mod_eq_of_lt (by simp; omega)
    change (s.sentCnt + 1).toNat + (s.pending - 1) = s.ofTest
    omega
  · exact absurd (testing.symm.trans idle) (by decide)
  · exact absurd (peripheral.symm.trans central) (by decide)
  · exact absurd (inv.finish peripheral ended) (Nat.ne_of_gt some_)

theorem pending_idle (inv : Counted s) (idle : s.testing = false) : s.pending = 0 := by
  cases side : s.side with
  | central => exact inv.central side
  | peripheral => exact inv.idle side idle

/-- Between two tests nothing is pending. -/
theorem of_idle (idle : t.testing = false) (none_ : t.pending = 0) : Counted t := by
  have between (pc : Pc) (ended : pc = .drain ∨ pc = .finish) (at_ : t.pc = pc) : False := by
    rcases ended with rfl | rfl <;> simp [testing, at_] at idle
  refine ⟨fun busy => ?_, fun _ busy => ?_, fun _ _ => none_, fun _ => none_, fun ended => ?_,
    fun _ _ => none_⟩
  · rw [idle] at busy
    cases busy
  · rw [idle] at busy
    cases busy
  · exact (between t.pc ended rfl).elim

theorem begins (none_ : s.pending = 0) : Counted s.beginTest := by
  refine ⟨fun _ => Nat.zero_le _, fun side _ => ?_, fun _ _ => none_, fun _ => none_,
    by simp [beginTest], fun _ _ => none_⟩
  have cleared : s.beginTest.sentCnt = 0 := if_pos side
  have ofTest : s.beginTest.ofTest = 0 := rfl
  have pending : s.beginTest.pending = 0 := none_
  rw [cleared, pending, ofTest]
  rfl

/-- Another statement of the loop over the packets, with the counts as they are. -/
theorem moves (inv : Counted s) (pc : Pc) (busy : s.testing = true)
    (testing : { s with pc := pc }.testing = true) (ofTest : { s with pc := pc }.ofTest = s.ofTest)
    (all : pc = .drain ∨ pc = .finish → s.sendCount.toNat = THROUGHPUT_PACKETS_TO_SEND)
    (finish : s.side = .peripheral → pc = .finish → s.pending = 0) :
    Counted { s with pc := pc } := by
  refine ⟨fun _ => ?_, fun side _ => ?_, fun _ idle => ?_, inv.central, all, finish⟩
  · rw [ofTest]
    exact inv.bound busy
  · rw [ofTest]
    exact inv.balance side busy
  · rw [testing] at idle
    cases idle

/-- A packet is accepted. -/
theorem accepted (inv : Counted s) (pc : s.pc = .send)
    (more : s.sendCount < .ofNat THROUGHPUT_PACKETS_TO_SEND) : Counted s.accepted := by
  have below : s.sendCount.toNat < THROUGHPUT_PACKETS_TO_SEND := UInt32.lt_iff_toNat_lt.mp more
  have ofTest : s.accepted.ofTest = s.sendCount.toNat + 1 := rfl
  have before : s.ofTest = s.sendCount.toNat := by simp [System.ofTest, testing, pc]
  refine ⟨fun _ => ?_, fun side _ => ?_, fun _ idle => ?_, fun side => ?_, fun ended => ?_,
    fun _ ended => ?_⟩
  · rw [ofTest]
    exact below
  · have balance := inv.balance side (by simp [testing, pc])
    have pending : s.accepted.pending = s.pending + 1 := if_pos side
    have sent : s.accepted.sentCnt = s.sentCnt := rfl
    rw [ofTest, pending, sent]
    omega
  · cases idle
  · have central : s.side = .central := side
    have pending : s.accepted.pending = s.pending := if_neg (by simp [central])
    exact pending.trans (inv.central side)
  · rcases ended with ended | ended <;> cases ended
  · cases ended

/-- It is counted. -/
theorem counted (inv : Counted s) (pc : s.pc = .count) :
    Counted { s with
      sendCount := s.sendCount + 1
      pc := if s.side = .peripheral then .check else .send } := by
  have busy : s.testing = true := by simp [testing, pc]
  have before : s.ofTest = s.sendCount.toNat + 1 := by simp [System.ofTest, testing, pc]
  have bound := inv.bound busy
  have sum : (s.sendCount + 1).toNat = s.sendCount.toNat + 1 := by
    rw [UInt32.toNat_add]
    rw [before, THROUGHPUT_PACKETS_TO_SEND] at bound
    exact Nat.mod_eq_of_lt (by simp; omega)
  have at_ : (if s.side = .peripheral then Pc.check else .send) = .check ∨
      (if s.side = .peripheral then Pc.check else .send) = .send := by
    split <;> simp
  have ofTest : System.ofTest { s with
      sendCount := s.sendCount + 1
      pc := if s.side = .peripheral then .check else .send } = s.ofTest := by
    rcases at_ with at_ | at_ <;> simp [System.ofTest, testing, at_, pc, sum]
  refine ⟨fun _ => ?_, fun side _ => ?_, fun side idle => ?_, inv.central, fun ended => ?_,
    fun side ended => ?_⟩
  · rw [ofTest]
    exact bound
  · rw [ofTest]
    exact inv.balance side busy
  · rcases at_ with at_ | at_ <;> simp [testing, at_] at idle
  · rcases at_ with at_ | at_ <;> simp [at_] at ended
  · rcases at_ with at_ | at_ <;> simp [at_] at ended

/-- The head of the loop over the packets. -/
theorem send (inv : Counted s) (pc : s.pc = .send) (taken : s.bleWriteThread err = some t) :
    Counted t := by
  have busy : s.testing = true := by simp [testing, pc]
  have same (after : Pc) (at_ : { s with pc := after }.testing = true) (other : after ≠ .count) :
      System.ofTest { s with pc := after } = s.ofTest := by
    simp [System.ofTest, at_, busy, other, pc]
  simp only [bleWriteThread, pc] at taken
  split at taken
  · rename_i more
    split at taken
    · cases taken
      exact inv.accepted pc more
    · cases taken
      split
      · exact inv.moves .check busy rfl (same .check rfl (by decide)) (by simp) (by simp)
      · exact inv.moves .send busy rfl (same .send rfl (by decide)) (by simp) (by simp)
  · rename_i ended
    cases taken
    have bound := inv.bound busy
    have count : s.ofTest = s.sendCount.toNat := by simp [System.ofTest, testing, pc]
    have all : s.sendCount.toNat = THROUGHPUT_PACKETS_TO_SEND := by
      have reached : THROUGHPUT_PACKETS_TO_SEND ≤ s.sendCount.toNat :=
        Nat.le_of_not_lt fun less => ended (UInt32.lt_iff_toNat_lt.mpr less)
      omega
    split
    · exact inv.moves .drain busy rfl (same .drain rfl (by decide)) (fun _ => all) (by simp)
    · rename_i central
      exact inv.moves .finish busy rfl (same .finish rfl (by decide)) (fun _ => all)
        (fun side _ => absurd side central)

/-- The wait for the packets not sent yet. -/
theorem drain (inv : Counted s) (pc : s.pc = .drain) (taken : s.bleWriteThread err = some t) :
    Counted t := by
  simp only [bleWriteThread, pc] at taken
  split at taken
  · cases taken
    exact inv
  · rename_i ended
    cases taken
    have busy : s.testing = true := by simp [testing, pc]
    have all := inv.all (.inl pc)
    have count : s.ofTest = s.sendCount.toNat := by simp [System.ofTest, testing, pc]
    refine inv.moves .finish busy rfl (by simp [System.ofTest, testing, pc]) (fun _ => all)
      fun side _ => ?_
    have balance := inv.balance side busy
    have reached : THROUGHPUT_PACKETS_TO_SEND ≤ s.sentCnt.toNat :=
      Nat.le_of_not_lt fun less => ended (UInt32.lt_iff_toNat_lt.mpr less)
    omega

theorem thread (inv : Counted s) (taken : s.bleWriteThread err = some t) : Counted t := by
  cases pc : s.pc with
  | waiting =>
      simp only [bleWriteThread, pc, Option.map_eq_some_iff] at taken
      obtain ⟨sem, -, rfl⟩ := taken
      exact of_idle rfl (inv.pending_idle (by simp [testing, pc]))
  | next =>
      have none_ := inv.pending_idle (by simp [testing, pc])
      simp only [bleWriteThread, pc] at taken
      split at taken
      · cases taken
        exact begins none_
      · cases taken
        exact of_idle rfl none_
  | send => exact inv.send pc taken
  | count =>
      simp only [bleWriteThread, pc, Option.some.injEq] at taken
      rw [← taken]
      exact inv.counted pc
  | check =>
      have busy : s.testing = true := by simp [testing, pc]
      simp only [bleWriteThread, pc, Option.some.injEq] at taken
      rw [← taken]
      split
      · exact inv.moves .pause busy rfl (by simp [System.ofTest, testing, pc]) (by simp) (by simp)
      · exact inv.moves .send busy rfl (by simp [System.ofTest, testing, pc]) (by simp) (by simp)
  | pause =>
      have busy : s.testing = true := by simp [testing, pc]
      simp only [bleWriteThread, pc, Option.some.injEq] at taken
      rw [← taken]
      exact inv.moves .send busy rfl (by simp [System.ofTest, testing, pc]) (by simp) (by simp)
  | drain => exact inv.drain pc taken
  | finish =>
      have none_ : s.pending = 0 := by
        cases side : s.side with
        | central => exact inv.central side
        | peripheral => exact inv.finish side pc
      simp only [bleWriteThread, pc, endTest] at taken
      split at taken
      · cases taken
      · cases taken
        exact of_idle rfl none_
  | sleep =>
      simp only [bleWriteThread, pc, Option.some.injEq] at taken
      rw [← taken]
      exact of_idle rfl (inv.pending_idle (by simp [testing, pc]))

theorem step (inv : Counted s) (taken : s.step a = some t) : Counted t := by
  cases a with
  | button =>
      cases taken
      exact inv.quiet rfl rfl rfl rfl rfl
  | thread err => exact inv.thread taken
  | sent =>
      simp only [System.step, Option.ite_none_right_eq_some, Option.some.injEq] at taken
      obtain ⟨some_, rfl⟩ := taken
      exact inv.sent some_
  | deliver =>
      simp only [System.step, deliver] at taken
      split at taken
      · cases taken
      · simp only [Option.map_eq_some_iff] at taken
        obtain ⟨r, -, rfl⟩ := taken
        exact inv.quiet rfl rfl rfl rfl rfl
  | disconnected =>
      cases taken
      exact inv.quiet rfl rfl rfl rfl rfl
  | tick =>
      cases taken
      exact inv.quiet rfl rfl rfl rfl rfl

end Counted

theorem counted_of_reachable (run : Reachable step Init unguarded s) : Counted s :=
  run.invariant (fun _ init => counted_of_init init) fun _ _ _ inv _ taken => inv.step taken

/-- **The peripheral counts the packets of its test.**  In every run: while a test goes on,
`sent_cnt` and what is still to be sent are together the packets accepted in that test, so that
the subtraction before the pause does not wrap; a test ends with all 1000 sent, and between two
tests nothing is left to be sent that the clearing of `sent_cnt` could lose. -/
theorem sent_counts (run : Reachable step Init unguarded s) (side : s.side = .peripheral) :
    (s.testing = true → s.sentCnt.toNat + s.pending = s.ofTest) ∧
      (s.pc = .check → (s.sendCount - s.sentCnt).toNat = s.pending) ∧
      (s.pc = .finish → s.sentCnt.toNat = THROUGHPUT_PACKETS_TO_SEND) ∧
      (s.testing = false → s.pending = 0) := by
  have inv := counted_of_reachable run
  refine ⟨inv.balance side, fun pc => ?_, fun pc => ?_, inv.idle side⟩
  · have balance := inv.balance side (by simp [testing, pc])
    have count : s.ofTest = s.sendCount.toNat := by simp [ofTest, testing, pc]
    rw [UInt32.toNat_sub_of_le _ _ (UInt32.le_iff_toNat_le.mpr (by omega))]
    omega
  · have balance := inv.balance side (by simp [testing, pc])
    have count : s.ofTest = s.sendCount.toNat := by simp [ofTest, testing, pc]
    have all := inv.all (.inr pc)
    have none_ := inv.finish side pc
    omega

/-- A packet that is sent before the thread has counted it. -/
theorem sent_before_counted : ∃ s : System, s.pc = .count ∧ s.sentCnt = 1 ∧
    s.sentCnt.toNat + s.pending = s.ofTest := by
  have found : (exec step unguarded (start .peripheral)
      [.button, .thread 0, .thread 0, .thread 0, .sent]).any
        (fun s => s.side == .peripheral && s.testing && s.pc == .count && s.sentCnt == 1) =
      true := by decide +kernel
  obtain ⟨s, run, holds⟩ := exists_reachable_of_exec (start_init .peripheral) found
  simp only [Bool.and_eq_true, beq_iff_eq] at holds
  obtain ⟨⟨⟨side, testing⟩, pc⟩, one⟩ := holds
  exact ⟨s, pc, one, (sent_counts run side).1 testing⟩

/-! ## What the receiver reports -/

/-- All packets that the stack has accepted. -/
def total (s : System) : Nat := THROUGHPUT_PACKETS_TO_SEND * s.tests + s.ofTest

/-- The receiver has handled the packets that arrived. -/
def Received (s : System) : Prop :=
  receive (s.delivered.map Arrival.packet) = some s.receiver

/-- All packets accepted arrive in order, a thousand of each test. -/
def InOrder (s : System) : Prop :=
  s.delivered.map Arrival.test ++ s.inFlight =
    (List.range s.total).map (· / THROUGHPUT_PACKETS_TO_SEND)

/-- The link is not lost. -/
def linkKept (_ : System) (a : Act) : Bool := decide (a ≠ .disconnected)

/-- A statement of the thread hands a packet to the stack, or leaves the packets alone. -/
theorem bleWriteThread_cases (inv : Counted s) (taken : s.bleWriteThread err = some t) :
    s.pc = .send ∧ s.sendCount < .ofNat THROUGHPUT_PACKETS_TO_SEND ∧ t = s.accepted ∨
      t.total = s.total ∧ t.inFlight = s.inFlight ∧ t.delivered = s.delivered ∧
        t.receiver = s.receiver := by
  cases pc : s.pc with
  | waiting =>
      simp only [bleWriteThread, pc, Option.map_eq_some_iff] at taken
      obtain ⟨sem, -, rfl⟩ := taken
      exact .inr ⟨by simp [total, ofTest, testing, pc], rfl, rfl, rfl⟩
  | next =>
      simp only [bleWriteThread, pc] at taken
      split at taken <;> cases taken
      · exact .inr ⟨by simp [total, ofTest, testing, beginTest, pc], rfl, rfl, rfl⟩
      · exact .inr ⟨by simp [total, ofTest, testing, pc], rfl, rfl, rfl⟩
  | send =>
      simp only [bleWriteThread, pc] at taken
      split at taken
      · rename_i more
        split at taken <;> cases taken
        · exact .inl ⟨rfl, more, rfl⟩
        · refine .inr ⟨?_, rfl, rfl, rfl⟩
          cases side : s.side <;> simp [total, ofTest, testing, pc]
      · cases taken
        refine .inr ⟨?_, rfl, rfl, rfl⟩
        cases side : s.side <;> simp [total, ofTest, testing, pc]
  | count =>
      have bound := inv.bound (by simp [testing, pc])
      have count : s.ofTest = s.sendCount.toNat + 1 := by simp [ofTest, testing, pc]
      have sum : (s.sendCount + 1).toNat = s.sendCount.toNat + 1 := by
        rw [UInt32.toNat_add]
        rw [count, THROUGHPUT_PACKETS_TO_SEND] at bound
        exact Nat.mod_eq_of_lt (by simp; omega)
      simp only [bleWriteThread, pc, Option.some.injEq] at taken
      subst taken
      refine .inr ⟨?_, rfl, rfl, rfl⟩
      cases side : s.side <;> simp [total, ofTest, testing, pc, sum]
  | check =>
      simp only [bleWriteThread, pc, Option.some.injEq] at taken
      subst taken
      refine .inr ⟨?_, rfl, rfl, rfl⟩
      split <;> simp [total, ofTest, testing, pc]
  | pause =>
      simp only [bleWriteThread, pc, Option.some.injEq] at taken
      subst taken
      exact .inr ⟨by simp [total, ofTest, testing, pc], rfl, rfl, rfl⟩
  | drain =>
      simp only [bleWriteThread, pc] at taken
      split at taken <;> cases taken
      · exact .inr ⟨rfl, rfl, rfl, rfl⟩
      · exact .inr ⟨by simp [total, ofTest, testing, pc], rfl, rfl, rfl⟩
  | finish =>
      have all := inv.all (.inr pc)
      simp only [bleWriteThread, pc, endTest] at taken
      split at taken <;> cases taken
      exact .inr ⟨by simp [total, ofTest, testing, pc, all, Nat.mul_add], rfl, rfl, rfl⟩
  | sleep =>
      simp only [bleWriteThread, pc, Option.some.injEq] at taken
      subst taken
      exact .inr ⟨by simp [total, ofTest, testing, pc], rfl, rfl, rfl⟩

theorem InOrder.accepted (order : InOrder s) (pc : s.pc = .send)
    (more : s.sendCount < .ofNat THROUGHPUT_PACKETS_TO_SEND) : InOrder s.accepted := by
  have below : s.sendCount.toNat < THROUGHPUT_PACKETS_TO_SEND := UInt32.lt_iff_toNat_lt.mp more
  have ofTest : s.ofTest = s.sendCount.toNat := by simp [System.ofTest, testing, pc]
  have total : s.accepted.total = s.total + 1 := by
    rw [System.total, System.total, ofTest]
    rfl
  have test : s.total / THROUGHPUT_PACKETS_TO_SEND = s.tests := by
    rw [System.total, ofTest, Nat.mul_add_div (by decide), Nat.div_eq_of_lt below, Nat.add_zero]
  rw [InOrder, total, List.range_succ, List.map_append, ← order, List.map_singleton, test]
  exact (List.append_assoc _ _ _).symm

theorem deliver_cases (taken : s.deliver = some t) :
    ∃ test rest r, s.inFlight = test :: rest ∧
      recvDataProcess s.receiver (Arrival.packet ⟨test, s.now⟩) = some r ∧
      t = { s with
        inFlight := rest
        delivered := s.delivered ++ [⟨test, s.now⟩]
        receiver := r } := by
  simp only [System.deliver] at taken
  split at taken
  · cases taken
  · rename_i test rest inFlight
    simp only [Option.map_eq_some_iff] at taken
    obtain ⟨r, handled, rfl⟩ := taken
    exact ⟨test, rest, r, inFlight, handled, rfl⟩

/-- Every step leaves the receiver with the packets that arrived. -/
theorem Received.step (counted : Counted s) (received : Received s) (taken : s.step a = some t) :
    Received t := by
  cases a with
  | button =>
      cases taken
      exact received
  | thread err =>
      obtain ⟨-, -, rfl⟩ | ⟨-, -, delivered, receiver⟩ := bleWriteThread_cases counted taken
      · exact received
      · rw [Received, delivered, receiver]
        exact received
  | sent =>
      simp only [System.step, Option.ite_none_right_eq_some, Option.some.injEq] at taken
      obtain ⟨-, rfl⟩ := taken
      exact received
  | deliver =>
      obtain ⟨test, rest, r, -, handled, rfl⟩ := deliver_cases taken
      rw [Received, List.map_append, List.map_singleton, receive_snoc, received, Option.bind_some]
      exact handled
  | disconnected =>
      cases taken
      exact received
  | tick =>
      cases taken
      exact received

/-- And those that do not lose the link leave the packets in order. -/
theorem InOrder.step (counted : Counted s) (order : InOrder s) (linked : linkKept s a = true)
    (taken : s.step a = some t) : InOrder t := by
  cases a with
  | button =>
      cases taken
      exact order
  | thread err =>
      obtain ⟨pc, more, rfl⟩ | ⟨total, inFlight, delivered, -⟩ := bleWriteThread_cases counted taken
      · exact order.accepted pc more
      · rw [InOrder, delivered, inFlight, total]
        exact order
  | sent =>
      simp only [System.step, Option.ite_none_right_eq_some, Option.some.injEq] at taken
      obtain ⟨-, rfl⟩ := taken
      exact order
  | deliver =>
      obtain ⟨test, rest, r, inFlight, -, rfl⟩ := deliver_cases taken
      rw [InOrder, inFlight] at order
      rw [InOrder, List.map_append, List.append_assoc]
      exact order
  | disconnected => exact absurd linked (by simp [linkKept])
  | tick =>
      cases taken
      exact order

theorem received_of_reachable (run : Reachable step Init unguarded s) : Received s := by
  apply run.strengthen fun _ => counted_of_reachable
  · intro s init
    rw [Received, init.delivered, init.receiver]
    rfl
  · intro _ _ _ counted received _ taken
    exact received.step counted taken

theorem inOrder_of_reachable (run : Reachable step Init linkKept s) : InOrder s := by
  have unlinked {t : System} (run : Reachable step Init linkKept t) : Counted t :=
    counted_of_reachable (run.mono fun _ _ _ => rfl)
  apply run.strengthen fun _ => unlinked
  · rintro s ⟨pc, -, tests, inFlight, delivered, -⟩
    simp [InOrder, inFlight, delivered, total, tests, ofTest, testing, pc]
  · intro _ _ _ counted order linked taken
    exact order.step counted linked taken

theorem full_delivered (s : System) : Full (s.delivered.map Arrival.packet) := by
  intro p member
  obtain ⟨a, -, rfl⟩ := List.mem_map.mp member
  rfl

/-- The packet handled at `i` was sent in test `i / 1000`. -/
theorem InOrder.test_eq (inOrder : InOrder s) {i : Nat} {d : Arrival}
    (at_ : s.delivered[i]? = some d) : d.test = i / THROUGHPUT_PACKETS_TO_SEND := by
  have order := congrArg (fun l => l[i]?) inOrder
  obtain ⟨inside, -⟩ := List.getElem?_eq_some_iff.mp at_
  rw [List.getElem?_append_left (by simpa using inside), List.getElem?_map, at_, List.getElem?_map,
    List.getElem?_range] at order
  · exact Option.some.inj order
  · have length := congrArg List.length inOrder
    simp only [List.length_append, List.length_map, List.length_range] at length
    omega

theorem nowAt_delivered {i : Nat} {d : Arrival} (at_ : s.delivered[i]? = some d) :
    nowAt (s.delivered.map Arrival.packet) i = .ofNat d.now := by
  rw [nowAt, List.getElem?_map, at_]
  rfl

/-- The reports are those of the packets handled. -/
theorem Received.reports (received : Received s) (few : Few s.delivered.length) :
    s.receiver.reports = reportsOf (s.delivered.map Arrival.packet) :=
  receive_full s.full_delivered (by rwa [List.length_map]) received

/-- **Speeds are those of one test.**  In every run, as long as the counts of the receiver do not
wrap: there is one report for each hundred packets; of each ten reports the first has no speed;
and every speed is that of a hundred packets, one after the other, between two packets that are of
one and the same test if the link was not lost. -/
theorem speeds_within_test (run : Reachable step Init unguarded s) (few : Few s.delivered.length) :
    s.receiver.reports.length = s.delivered.length / RECV_THRESHOLD_CNT ∧
      ∀ j r, s.receiver.reports[j]? = some r →
        (r.speed = none ↔ j % NUM_SPEED_CACULATIONS = 0) ∧
        ∀ v, r.speed = some v → ∃ a b,
          s.delivered[RECV_THRESHOLD_CNT * j - 1]? = some a ∧
          s.delivered[RECV_THRESHOLD_CNT * j + 99]? = some b ∧
          (Reachable step Init linkKept s → a.test = b.test) ∧
          v = .ofNat (RECV_THRESHOLD * 8) / (.ofNat b.now - .ofNat a.now) := by
  have reports := (received_of_reachable run).reports few
  refine ⟨by rw [reports, length_reportsOf, List.length_map], fun j r made => ?_⟩
  rw [reports, reportsOf, List.getElem?_map, Option.map_eq_some_iff] at made
  obtain ⟨k, within, rfl⟩ := made
  obtain ⟨inside, same⟩ := List.getElem?_eq_some_iff.mp within
  rw [List.getElem_range] at same
  subst same
  rw [List.length_range, List.length_map] at inside
  refine ⟨?_, fun v speed => ?_⟩
  · rw [reportAt]
    split
    · rename_i first
      exact iff_of_true rfl first
    · rename_i other
      exact iff_of_false nofun other
  · rw [reportAt] at speed
    split at speed
    · cases speed
    · rename_i other
      simp only [NUM_SPEED_CACULATIONS, THROUGHPUT_PACKETS_TO_SEND, RECV_THRESHOLD_CNT]
        at other inside ⊢
      have last : 100 * j + 99 < s.delivered.length := by omega
      have first : 100 * j - 1 < s.delivered.length := by omega
      have at_ := List.getElem?_eq_getElem first
      have at' := List.getElem?_eq_getElem last
      refine ⟨_, _, at_, at', fun linked => ?_, ?_⟩
      · have inOrder := inOrder_of_reachable linked
        rw [inOrder.test_eq at_, inOrder.test_eq at', THROUGHPUT_PACKETS_TO_SEND]
        omega
      · rw [← nowAt_delivered at_, ← nowAt_delivered at']
        exact (Option.some.inj speed).symm

/-- Two hundred packets of the central without a loss of the link: the second report is the speed
of a hundred packets of one test. -/
theorem second_report : ∃ s : System, s.receiver.reports.length = 2 ∧ ∃ a b v,
    (s.receiver.reports[1]?.bind Report.speed) = some v ∧ s.delivered[99]? = some a ∧
      s.delivered[199]? = some b ∧ a.test = b.test := by
  have found : (exec step linkKept (start .central) ([.button, .thread 0, .thread 0] ++
      (List.replicate 200 [Act.thread 0, .thread 0, .deliver, .tick]).flatten)).any
        (fun s => s.delivered.length == 200 &&
          (s.receiver.reports[1]?.bind Report.speed).isSome) = true := by decide +kernel
  obtain ⟨s, linked, holds⟩ := exists_reachable_of_exec (start_init .central) found
  rw [Bool.and_eq_true, beq_iff_eq] at holds
  obtain ⟨both, speed⟩ := holds
  obtain ⟨v, made⟩ := Option.isSome_iff_exists.mp speed
  have run : Reachable step Init unguarded s := linked.mono fun _ _ _ => rfl
  obtain ⟨count, speeds⟩ := speeds_within_test run (by rw [both, Few]; decide)
  obtain ⟨r, second, timed⟩ := Option.bind_eq_some_iff.mp made
  obtain ⟨a, b, first, last, sameTest, -⟩ := (speeds 1 r second).2 v timed
  rw [both] at count
  exact ⟨s, count, a, b, v, made, first, last, sameTest linked⟩

/-- Where nothing is on its way, no test goes on and the link was not lost, each test has its ten
reports. -/
theorem ten_reports (linked : Reachable step Init linkKept s) (few : Few s.delivered.length)
    (idle : s.testing = false) (arrived : s.inFlight = []) :
    s.receiver.reports.length = NUM_SPEED_CACULATIONS * s.tests := by
  have length := congrArg List.length (inOrder_of_reachable linked)
  have ofTest : s.ofTest = 0 := by simp [ofTest, idle]
  have reports := (received_of_reachable (linked.mono fun _ _ _ => rfl)).reports few
  rw [arrived, List.append_nil, List.length_map, List.length_map, List.length_range, total,
    ofTest] at length
  rw [reports, length_reportsOf, List.length_map, length]
  simp only [NUM_SPEED_CACULATIONS, THROUGHPUT_PACKETS_TO_SEND, RECV_THRESHOLD_CNT]
  omega

end System

end NcsExp.NusThroughput
