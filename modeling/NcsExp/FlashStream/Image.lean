/-
# NcsExp.FlashStream.Image -- the picture in the flash

The network core hands every write of a throughput test on to the application core, which
gives it to the flash stream and ends with the first block of 200 bytes.

* `ends_at_last`: the blocks written are none of 200 bytes until `app_task` ends, and end in
  one then.
* `image_written`: if the blocks forwarded are writes of one call of `test_run`, in order, and
  each is delivered in its turn, an `app_task` that has ended has written all that the call
  wrote, and the stream is still within the erased pages.
-/
import NcsExp.FlashStream.Overrun
import NcsExp.Throughput.Measurement

namespace NcsExp.FlashStream

open NcsExp.Theory
open NcsExp.Throughput.Service (Answers testRun testRun_eq afterReset dummy length_dummy
  length_afterReset length_flatten_afterReset IMG_SIZE)

set_option autoImplicit false

def FLASH_PAGE_SIZE : Nat := 4096
def PAGES : Nat := 150

/-! ## Where `app_task` ends -/

/-- Every block but the last is not one of 200 bytes, and the last one is. -/
def EndsAt200 (blocks : List (List UInt8)) : Prop :=
  ∃ before last, blocks = before ++ [last] ∧ last.length = 200 ∧ ∀ b ∈ before, b.length ≠ 200

structure Ends (m : Machine) : Prop where
  busy : m.app.busy = true → m.app.dataRxSem.count = 0
  block : m.app.block.length = m.app.receivedDataLen
  write : m.app.pc = .write → m.app.receivedDataLen ≠ 200
  writeLast : m.app.pc = .writeLast → m.app.receivedDataLen = 200
  running : m.app.pc ≠ .finished → ∀ b ∈ m.app.written, b.length ≠ 200
  finished : m.app.pc = .finished → EndsAt200 m.app.written

theorem init_ends {m : Machine} (init : Init m) : Ends m := by
  subst init
  exact ⟨by decide, by decide, by decide, by decide,
    fun _ b member => absurd member List.not_mem_nil, nofun⟩

namespace Ends

variable {m t : Machine}

theorem appTask (inv : Ends m) (taken : appTask m = some t) : Ends t := by
  unfold FlashStream.appTask at taken
  cases at_ : m.app.pc <;> simp only [at_] at taken
  case sendFirst | sendAck =>
      cases taken
      have before := inv.running (by simp [at_])
      exact ⟨by simp [App.busy], inv.block, by simp, by simp, fun _ => before, by simp⟩
  case take =>
      obtain ⟨sem, took, rfl⟩ := Option.map_eq_some_iff.mp taken
      have count := Semaphore.take_eq_some.mp took
      have bounded := m.app.dataRxSem.bounded
      have before := inv.running (by simp [at_])
      refine ⟨fun _ => ?_, inv.block, by simp, by simp, fun _ => before, by simp⟩
      show sem.count = 0
      omega
  case test =>
      cases taken
      have before := inv.running (by simp [at_])
      have free := inv.busy (by simp [App.busy, at_])
      by_cases last : m.app.receivedDataLen = 200
      · rw [if_pos last]
        exact ⟨fun _ => free, inv.block, by simp, fun _ => last, fun _ => before, by simp⟩
      · rw [if_neg last]
        exact ⟨fun _ => free, inv.block, fun _ => last, by simp, fun _ => before, by simp⟩
  case writeLast =>
      cases taken
      have before := inv.running (by simp [at_])
      have last : m.app.block.length = 200 := inv.block.trans (inv.writeLast at_)
      exact ⟨by simp [App.busy], inv.block, by simp, by simp, by simp,
        fun _ => ⟨m.app.written, m.app.block, rfl, last, before⟩⟩
  case write =>
      cases taken
      have before := inv.running (by simp [at_])
      have other : m.app.block.length ≠ 200 := fun same =>
        inv.write at_ (inv.block.symm.trans same)
      refine ⟨by simp [App.busy], inv.block, by simp, by simp, fun _ b member => ?_, by simp⟩
      rcases List.mem_append.mp member with earlier | now
      · exact before b earlier
      · rw [List.mem_singleton.mp now]
        exact other
  case finished => cases taken

theorem deliver (inv : Ends m) {data : List UInt8} (turn : m.app.inTurn = true)
    (rest : List Packet) : Ends { m with app := m.app.endpointCb data, toApp := rest } := by
  have pc : (m.app.endpointCb data).pc = m.app.pc := rfl
  have busy : (m.app.endpointCb data).busy = m.app.busy := rfl
  have idle : m.app.busy = false := by
    by_cases done : m.app.pc = .finished
    · simp [App.busy, done]
    · have both : m.app.dataRxSem.count = 0 ∧ m.app.busy = false := by
        simpa [App.inTurn, done] using turn
      exact both.2
  have length : (m.app.endpointCb data).block.length = data.length := by
    rw [block_endpointCb]
  refine ⟨fun active => ?_, length, fun at_ => ?_, fun at_ => ?_, inv.running, inv.finished⟩
  · rw [busy, idle] at active
    cases active
  · rw [pc] at at_
    simp [App.busy, at_] at idle
  · rw [pc] at at_
    simp [App.busy, at_] at idle

theorem step {a : Act} (inv : Ends m) (ok : deliveredInTurn m a = true)
    (taken : step m a = some t) : Ends t := by
  cases a with
  | forward p =>
      simp only [FlashStream.step, throughputReceived, Option.ite_none_right_eq_some,
        Option.some.injEq] at taken
      obtain ⟨-, rfl⟩ := taken
      exact ⟨inv.busy, inv.block, inv.write, inv.writeLast, inv.running, inv.finished⟩
  | receiveMessage =>
      simp only [FlashStream.step, receiveMessage, Option.ite_none_right_eq_some,
        Option.map_eq_some_iff] at taken
      obtain ⟨-, sem, -, rfl⟩ := taken
      exact ⟨inv.busy, inv.block, inv.write, inv.writeLast, inv.running, inv.finished⟩
  | appTask => exact inv.appTask taken
  | deliverToApp =>
      cases inFlight : m.toApp with
      | nil => simp [FlashStream.step, inFlight] at taken
      | cons p rest =>
          simp only [FlashStream.step, inFlight, Option.some.injEq] at taken
          subst taken
          exact inv.deliver ok rest
  | deliverToNet =>
      cases inFlight : m.toNet with
      | nil => simp [FlashStream.step, inFlight] at taken
      | cons data rest =>
          simp only [FlashStream.step, inFlight, Option.some.injEq] at taken
          subst taken
          exact ⟨inv.busy, inv.block, inv.write, inv.writeLast, inv.running, inv.finished⟩

end Ends

/-- The blocks written are none of 200 bytes until `app_task` ends, and end in one then. -/
theorem ends_at_last {m : Machine} (run : Reachable step Init deliveredInTurn m) : Ends m :=
  run.invariant (fun _ init => init_ends init) fun _ _ _ inv ok taken => inv.step ok taken

/-! ## The picture -/

/-- Of the writes of a test only the last has 200 bytes: what ends there is all of it. -/
theorem eq_of_endsAt200 {written : List (List UInt8)} {n : Nat} {last : Bool}
    (ends : EndsAt200 written) (within : written <+: dummy.take 1 :: afterReset n last) :
    written = dummy.take 1 :: afterReset n last ∧ last = true := by
  obtain ⟨before, final, rfl, length, -⟩ := ends
  have packets (k : Nat) : ¬ before ++ [final] <+: dummy.take 1 :: List.replicate k dummy := by
    intro inside
    have member := inside.subset (List.mem_append_right before (List.mem_singleton_self final))
    rcases List.mem_cons.mp member with rfl | packet
    · simp at length
    · rw [(List.mem_replicate.mp packet).2, length_dummy] at length
      cases length
  cases last with
  | false =>
      rw [afterReset, if_neg Bool.false_ne_true, List.append_nil] at within
      exact absurd within (packets n)
  | true =>
      rw [afterReset, if_pos rfl, ← List.cons_append] at within ⊢
      rcases List.prefix_concat_iff.mp within with all | short
      · exact ⟨all, rfl⟩
      · exact absurd short (packets n)

/-- **The picture gets into the flash.**  In every run of the two cores in which the packets are
delivered in their turn and are writes of one call of `test_run`, in order: when `app_task` has
ended, it has given the flash stream every write of that call, the last one was accepted, and the
stream ends within the pages that were erased for it. -/
theorem image_written {m : Machine} {a : Answers} {data : UInt32}
    (run : Reachable step Init deliveredInTurn m) (prints : (testRun a).sent = some data)
    (forwarded : m.blocks <+: (testRun a).accepted) (ended : m.app.pc = .finished) :
    m.app.written = (testRun a).accepted ∧ a.last = 0 ∧
      m.app.written.flatten.length = data.toNat + 1 ∧
      m.app.written.flatten.length ≤ FLASH_PAGE_SIZE * PAGES := by
  obtain ⟨n, bound, rfl, accepted⟩ := testRun_eq prints
  rw [accepted] at forwarded ⊢
  have within := ((reachable_slotInv run).finished ended).trans forwarded
  obtain ⟨all, last⟩ := eq_of_endsAt200 ((ends_at_last run).finished ended) within
  have size : IMG_SIZE = 2511 := rfl
  have bytes : m.app.written.flatten.length = 244 * n + 200 + 1 := by
    rw [all, List.flatten_cons, List.length_append, length_flatten_afterReset, if_pos last]
    simp
    omega
  have sent : (UInt32.ofNat (244 * n + 200)).toNat = 244 * n + 200 := by
    rw [UInt32.toNat_ofNat']
    omega
  refine ⟨all, by simpa using last, by rw [bytes, sent], ?_⟩
  rw [bytes, FLASH_PAGE_SIZE, PAGES]
  omega

/-- A packet of `n` bytes of the dummy buffer. -/
def dummyPacket (n : Nat) (some_ : 0 < n) (room : n ≤ 244) : Packet where
  bytes := dummy.take n
  nonempty := by rwa [List.length_take_of_le (by rwa [length_dummy])]
  fits := by
    rw [List.length_take_of_le (by rwa [length_dummy])]
    omega

/-- The reset and the last packet, each delivered when it is forwarded. -/
def shortRun : List Act :=
  [.appTask, .forward (dummyPacket 1 Nat.one_pos (Nat.le_of_ble_eq_true rfl)), .deliverToApp] ++
    writeOne ++
    [.deliverToNet, .receiveMessage,
      .forward (dummyPacket 200 (Nat.zero_lt_succ _) (Nat.le_of_ble_eq_true rfl)),
      .deliverToApp, .appTask, .appTask, .appTask]

/-- The first packet of the picture is refused. -/
def shortAnswers : Answers := ⟨true, true, 0, 0, fun _ => -128, 0, 0⟩

theorem image_written_shortRun :
    ∃ m : Machine, m.app.pc = .finished ∧ m.app.written = [dummy.take 1, dummy.take 200] := by
  have accepted : (testRun shortAnswers).accepted = [dummy.take 1, dummy.take 200] := rfl
  have found : (exec step deliveredInTurn start shortRun).any (fun m : Machine =>
      decide (m.app.pc = .finished) && m.blocks.isPrefixOf [dummy.take 1, dummy.take 200]) =
        true := by
    decide +kernel
  obtain ⟨m, run, both⟩ := exists_reachable_of_exec init_start found
  obtain ⟨ended, forwarded⟩ := Bool.and_eq_true_iff.mp both
  rw [← accepted] at forwarded
  have ended : m.app.pc = .finished := of_decide_eq_true ended
  have written := image_written run (a := shortAnswers) rfl
    (List.isPrefixOf_iff_prefix.mp forwarded) ended
  exact ⟨m, ended, written.1.trans accepted⟩

end NcsExp.FlashStream
