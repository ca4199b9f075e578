/-
# NcsExp.FlashStream.Overrun -- packets overwritten before they are written

`app_task` acknowledges once before it has received anything, so the network core
holds two credits: it may forward a second packet while the first one still waits
in `received_data`, and the second delivery overwrites it
(`second_packet_overwrites_first`).  The README promises that this cannot happen.

`written_prefix` is the exact positive half: when every packet is delivered in its
turn, to an application core that has written the packet before, what is written is
a prefix of what was forwarded.
-/
import NcsExp.FlashStream.Model

namespace NcsExp.FlashStream

open NcsExp.Theory

set_option autoImplicit false

/-- `app_task` has taken the semaphore and not yet written the block. -/
def App.busy (a : App) : Bool :=
  match a.pc with
  | .test => true
  | .writeLast => true
  | .write => true
  | _ => false

/-- A delivery overwrites no block that is still to be written. -/
def App.inTurn (a : App) : Bool :=
  decide (a.dataRxSem.count = 0) && !a.busy || decide (a.pc = .finished)

/-- Packets are delivered in their turn. -/
def deliveredInTurn (m : Machine) : Act → Bool
  | .deliverToApp => m.app.inTurn
  | _ => true

/-- What was written is a prefix of what was forwarded. -/
def WrittenPrefix (m : Machine) : Prop := m.app.written <+: m.blocks

/-! ## The invariant -/

/-- The block received and not yet written. -/
def App.slot (a : App) : List (List UInt8) :=
  if 0 < a.dataRxSem.count ∨ a.busy = true then [a.block] else []

theorem slot_of_idle {a : App} (idle : a.busy = false) :
    a.slot = if 0 < a.dataRxSem.count then [a.block] else [] := by
  simp [App.slot, idle]

theorem slot_of_busy {a : App} (busy : a.busy = true) : a.slot = [a.block] := by
  simp [App.slot, busy]

structure SlotInv (m : Machine) : Prop where
  busy : m.app.busy = true → m.app.dataRxSem.count = 0
  running : m.app.pc ≠ .finished →
    m.blocks = m.app.written ++ m.app.slot ++ m.toApp.map Packet.bytes
  finished : m.app.pc = .finished → m.app.written <+: m.blocks

theorem init_slotInv {m : Machine} (init : Init m) : SlotInv m := by
  subst init
  constructor <;> decide

theorem slotInv_forward {m m' : Machine} (inv : SlotInv m) {p : Packet}
    (taken : throughputReceived m p = some m') : SlotInv m' := by
  simp only [throughputReceived, Option.ite_none_right_eq_some, Option.some.injEq] at taken
  obtain ⟨-, rfl⟩ := taken
  refine ⟨inv.busy, fun running => ?_, fun finished => ?_⟩
  · have before : m.forwarded.map Packet.bytes = _ := inv.running running
    simp [Machine.blocks, before]
  · have before : m.app.written <+: m.forwarded.map Packet.bytes := inv.finished finished
    show m.app.written <+: (m.forwarded ++ [p]).map Packet.bytes
    rw [List.map_append]
    exact before.trans (List.prefix_append _ _)

/-- A delivery in turn fills the empty slot. -/
theorem slotInv_deliver {m : Machine} (inv : SlotInv m) {p : Packet} {rest : List Packet}
    (oldest : m.toApp = p :: rest) (turn : m.app.inTurn = true) :
    SlotInv { m with app := m.app.endpointCb p.bytes, toApp := rest } := by
  by_cases done : m.app.pc = .finished
  · refine ⟨fun busy => ?_, fun running => absurd done running, fun _ => inv.finished done⟩
    simp [App.endpointCb, dataHandler, App.busy, done] at busy
  · obtain ⟨free, idle⟩ : m.app.dataRxSem.count = 0 ∧ m.app.busy = false := by
      simpa [App.inTurn, done] using turn
    have given : 0 < (m.app.endpointCb p.bytes).dataRxSem.count :=
      m.app.dataRxSem.give_pos Nat.one_pos
    have before := inv.running done
    refine ⟨fun busy => ?_, fun _ => ?_, fun finished => absurd finished done⟩
    · exact absurd (idle.symm.trans busy) (by simp)
    · have empty : m.app.slot = [] := by simp [App.slot, free, idle]
      have filled : (m.app.endpointCb p.bytes).slot = [p.bytes] := by
        simp [App.slot, given]
      show m.blocks = m.app.written ++ (m.app.endpointCb p.bytes).slot ++ rest.map Packet.bytes
      rw [before, empty, filled, oldest]
      simp

theorem slotInv_appTask {m m' : Machine} (inv : SlotInv m) (taken : appTask m = some m') :
    SlotInv m' := by
  unfold appTask at taken
  cases at_ : m.app.pc <;> simp only [at_] at taken
  case sendFirst | sendAck =>
      cases taken
      have before := inv.running (by simp [at_])
      rw [slot_of_idle (by simp [App.busy, at_])] at before
      refine ⟨by simp [App.busy], fun _ => ?_, by simp⟩
      show m.blocks = m.app.written ++ App.slot { m.app with pc := .take } ++ _
      rw [slot_of_idle rfl]
      exact before
  case take =>
      obtain ⟨sem, took, rfl⟩ := Option.map_eq_some_iff.mp taken
      have count := Semaphore.take_eq_some.mp took
      have bounded := m.app.dataRxSem.bounded
      have given : 0 < m.app.dataRxSem.count := by omega
      have before := inv.running (by simp [at_])
      rw [slot_of_idle (by simp [App.busy, at_]), if_pos given] at before
      refine ⟨fun _ => ?_, fun _ => ?_, by simp⟩
      · show sem.count = 0
        omega
      · show m.blocks = m.app.written ++ App.slot { m.app with pc := .test, dataRxSem := sem } ++ _
        rw [slot_of_busy rfl]
        exact before
  case test =>
      cases taken
      have before := inv.running (by simp [at_])
      have free := inv.busy (by simp [App.busy, at_])
      rw [slot_of_busy (by simp [App.busy, at_])] at before
      by_cases last : m.app.receivedDataLen = 200
      · rw [if_pos last]
        refine ⟨fun _ => free, fun _ => ?_, by simp⟩
        show m.blocks = m.app.written ++ App.slot { m.app with pc := .writeLast } ++ _
        rw [slot_of_busy rfl]
        exact before
      · rw [if_neg last]
        refine ⟨fun _ => free, fun _ => ?_, by simp⟩
        show m.blocks = m.app.written ++ App.slot { m.app with pc := .write } ++ _
        rw [slot_of_busy rfl]
        exact before
  case writeLast =>
      cases taken
      have before := inv.running (by simp [at_])
      rw [slot_of_busy (by simp [App.busy, at_])] at before
      refine ⟨by simp [App.busy], by simp, fun _ => ?_⟩
      show m.app.written ++ [m.app.block] <+: m.blocks
      rw [before]
      exact List.prefix_append _ _
  case write =>
      cases taken
      have before := inv.running (by simp [at_])
      have free := inv.busy (by simp [App.busy, at_])
      rw [slot_of_busy (by simp [App.busy, at_])] at before
      refine ⟨by simp [App.busy], fun _ => ?_, by simp⟩
      show m.blocks = m.app.written ++ [m.app.block] ++ App.slot { m.app with
        pc := .sendAck, written := m.app.written ++ [m.app.block] } ++ _
      rw [slot_of_idle rfl, if_neg (by simp [free]), List.append_nil]
      exact before
  case finished => cases taken

theorem step_slotInv {m m' : Machine} {a : Act} (inv : SlotInv m)
    (ok : deliveredInTurn m a = true) (taken : step m a = some m') : SlotInv m' := by
  cases a with
  | forward p => exact slotInv_forward inv taken
  | receiveMessage =>
      simp only [step, receiveMessage, Option.ite_none_right_eq_some, Option.map_eq_some_iff]
        at taken
      obtain ⟨-, sem, -, rfl⟩ := taken
      exact ⟨inv.busy, inv.running, inv.finished⟩
  | appTask => exact slotInv_appTask inv taken
  | deliverToApp =>
      cases inFlight : m.toApp with
      | nil => simp [step, inFlight] at taken
      | cons p rest =>
          simp only [step, inFlight, Option.some.injEq] at taken
          subst taken
          exact slotInv_deliver inv inFlight ok
  | deliverToNet =>
      cases inFlight : m.toNet with
      | nil => simp [step, inFlight] at taken
      | cons data rest =>
          simp only [step, inFlight, Option.some.injEq] at taken
          subst taken
          exact ⟨inv.busy, inv.running, inv.finished⟩

theorem reachable_slotInv {m : Machine} (run : Reachable step Init deliveredInTurn m) :
    SlotInv m := by
  apply run.invariant
  · intro s init
    exact init_slotInv init
  · intro s a t inv ok taken
    exact step_slotInv inv ok taken

/-- **Nothing is lost, overwritten, duplicated or reordered** in the runs whose
packets are delivered in their turn. -/
theorem written_prefix {m : Machine} (run : Reachable step Init deliveredInTurn m) :
    WrittenPrefix m := by
  have inv := reachable_slotInv run
  by_cases done : m.app.pc = .finished
  · exact inv.finished done
  · rw [WrittenPrefix, inv.running done, List.append_assoc]
    exact List.prefix_append _ _

/-! ## A run in turn, and one with two credits -/

/-- A packet of one byte. -/
def onePacket (byte : UInt8) : Packet := ⟨[byte], Nat.one_pos, by simp⟩

/-- A packet is delivered, tested, written and acknowledged. -/
def writeOne : List Act := [.appTask, .appTask, .appTask, .appTask]

/-- Two packets, the second forwarded on the first credit and delivered in turn. -/
def inTurnRun : List Act :=
  [.appTask, .forward (onePacket 1), .deliverToNet, .receiveMessage, .forward (onePacket 2),
    .deliverToApp] ++ writeOne ++ [.deliverToApp] ++ writeOne

theorem written_prefix_inTurnRun :
    ∃ m, exec step deliveredInTurn start inTurnRun = some m ∧ WrittenPrefix m := by
  have possible : (exec step deliveredInTurn start inTurnRun).isSome := by decide +kernel
  obtain ⟨m, taken⟩ := Option.isSome_iff_exists.mp possible
  exact ⟨m, taken, written_prefix (reachable_of_exec init_start taken)⟩

/-- The initial acknowledgement lets a second packet out, and both are delivered
before `app_task` writes. -/
def twoCreditsRun : List Act :=
  [.appTask, .forward (onePacket 1), .deliverToNet, .receiveMessage, .forward (onePacket 2),
    .deliverToApp, .deliverToApp] ++ writeOne

/-- **The second packet overwrites the first one**, which is never written. -/
theorem second_packet_overwrites_first :
    ¬ ∀ m, Reachable step Init unguarded m → WrittenPrefix m := by
  intro writesPrefix
  have found : (exec step unguarded start twoCreditsRun).any
      (fun m => !m.app.written.isPrefixOf m.blocks) = true := by decide +kernel
  obtain ⟨m, run, lost⟩ := exists_reachable_of_exec init_start found
  have kept := List.isPrefixOf_iff_prefix.mpr (writesPrefix m run)
  simp [kept] at lost

end NcsExp.FlashStream
