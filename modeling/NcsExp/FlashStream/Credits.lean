/-
# NcsExp.FlashStream.Credits -- the network core is never left without a credit

Every `receive_message` takes one acknowledgement, and the application core sends
one before it starts and one after each packet but the last.  The sum balances as
long as no give is absorbed: neither a packet's, whose block is then overwritten and
never acknowledged, nor an acknowledgement's, which the network core then takes only
once.  Both happen, and the network core is stuck in the end
(`last_packet_never_acknowledged`).

`not_stuck` is the positive half: when packets and acknowledgements are delivered in
their turn, no reachable state is stuck.
-/
import NcsExp.FlashStream.Overrun

namespace NcsExp.FlashStream

open NcsExp.Theory

set_option autoImplicit false

/-- The network core waits for a credit that nothing can bring any more. -/
def Stuck (m : Machine) : Prop :=
  m.net.pc = .receiveMessage ∧ m.net.dataRxSem.count = 0 ∧ m.toNet = [] ∧ m.toApp = [] ∧
    m.app.dataRxSem.count = 0 ∧ (m.app.pc = .take ∨ m.app.pc = .finished)

instance (m : Machine) : Decidable (Stuck m) := by
  unfold Stuck
  infer_instance

/-- Nothing is forwarded after a packet of length 200. -/
def lastIs200 (m : Machine) : Act → Bool
  | .forward _ => m.forwarded.all fun p => decide (p.bytes.length ≠ 200)
  | _ => true

/-- Moreover, packets are delivered in their turn, and acknowledgements to a
semaphore that can count them. -/
def creditsInTurn (m : Machine) (a : Act) : Bool :=
  lastIs200 m a && deliveredInTurn m a &&
    match a with
    | .deliverToNet => decide (m.net.dataRxSem.count = 0)
    | _ => true

/-! ## The balance -/

/-- The acknowledgements sent: one before the first packet, one for each packet
written that was not the last. -/
def App.acknowledged (a : App) : Nat :=
  match a.pc with
  | .sendFirst => 0
  | .sendAck => a.written.length
  | .finished => a.written.length
  | _ => a.written.length + 1

/-- The call of `receive_message` that has not returned. -/
def Net.waiting (n : Net) : Nat := if n.pc = .receiveMessage then 1 else 0

structure CreditInv (m : Machine) : Prop where
  /-- Credits in flight, credits held, and one taken for each packet forwarded but
  the one waited for: together the acknowledgements sent. -/
  balance : m.toNet.length + m.net.dataRxSem.count + m.forwarded.length =
    m.app.acknowledged + m.net.waiting
  started : m.app.pc = .sendFirst → m.app.written = []
  last : ∀ p ∈ m.forwarded.dropLast, p.bytes.length ≠ 200
  length : 0 < m.app.dataRxSem.count ∨ m.app.busy = true →
    m.app.block.length = m.app.receivedDataLen
  writeLast : m.app.pc = .writeLast → m.app.receivedDataLen = 200
  finished : m.app.pc = .finished →
    m.app.written = m.blocks ∧ ∃ p ∈ m.forwarded, p.bytes.length = 200

theorem init_creditInv {m : Machine} (init : Init m) : CreditInv m := by
  subst init
  constructor <;> decide

/-- A block of length 200 is the last one forwarded. -/
theorem last_of_length {m : Machine} (last : ∀ p ∈ m.forwarded.dropLast, p.bytes.length ≠ 200)
    {front : List (List UInt8)} {block : List UInt8} {back : List (List UInt8)}
    (split : m.blocks = front ++ block :: back) (length : block.length = 200) : back = [] := by
  by_contra some_
  have early : block ∈ m.blocks.dropLast := by
    rw [split, List.dropLast_append_of_ne_nil (by simp), List.dropLast_cons_of_ne_nil some_]
    simp
  rw [Machine.blocks, ← List.map_dropLast] at early
  obtain ⟨p, member, rfl⟩ := List.mem_map.mp early
  exact last p member length

theorem creditInv_forward {m m' : Machine} (inv : CreditInv m) {p : Packet}
    (early : ∀ q ∈ m.forwarded, q.bytes.length ≠ 200)
    (taken : throughputReceived m p = some m') : CreditInv m' := by
  simp only [throughputReceived, Option.ite_none_right_eq_some, Option.some.injEq] at taken
  obtain ⟨idle, rfl⟩ := taken
  have balance := inv.balance
  refine ⟨?_, inv.started, ?_, inv.length, inv.writeLast, fun finished => ?_⟩
  · simp only [Net.waiting, idle, reduceCtorEq, if_false] at balance
    simp only [List.length_append, List.length_singleton, Net.waiting, if_true]
    omega
  · simpa using early
  · obtain ⟨-, q, member, length⟩ := inv.finished finished
    exact absurd length (early q member)

theorem creditInv_receiveMessage {m m' : Machine} (inv : CreditInv m)
    (taken : receiveMessage m = some m') : CreditInv m' := by
  simp only [receiveMessage, Option.ite_none_right_eq_some, Option.map_eq_some_iff] at taken
  obtain ⟨waiting, sem, took, rfl⟩ := taken
  have count := Semaphore.take_eq_some.mp took
  have balance := inv.balance
  refine ⟨?_, inv.started, inv.last, inv.length, inv.writeLast, inv.finished⟩
  simp only [Net.waiting, waiting, if_true] at balance
  simp only [Net.waiting, reduceCtorEq, if_false]
  omega

theorem creditInv_deliverToApp {m : Machine} (inv : CreditInv m) (turn : m.app.inTurn = true)
    {p : Packet} {rest : List Packet} :
    CreditInv { m with app := m.app.endpointCb p.bytes, toApp := rest } := by
  refine ⟨inv.balance, inv.started, inv.last, fun _ => ?_, fun at_ => ?_, inv.finished⟩
  · rw [block_endpointCb]
    rfl
  · have at_ : m.app.pc = .writeLast := at_
    simp [App.inTurn, App.busy, at_] at turn

theorem creditInv_appTask {m m' : Machine} (slots : SlotInv m) (inv : CreditInv m)
    (taken : appTask m = some m') : CreditInv m' := by
  have balance := inv.balance
  unfold appTask at taken
  cases at_ : m.app.pc <;> simp only [at_] at taken
  case sendFirst =>
      cases taken
      have none_ := inv.started at_
      refine ⟨?_, by simp, inv.last, ?_, by simp, by simp⟩
      · simp only [App.acknowledged, at_] at balance
        simp only [App.acknowledged, none_, List.length_append, List.length_singleton,
          List.length_nil]
        omega
      · intro given
        exact inv.length (Or.inl (by simpa [App.busy] using given))
  case sendAck =>
      cases taken
      refine ⟨?_, by simp, inv.last, ?_, by simp, by simp⟩
      · simp only [App.acknowledged, at_] at balance
        simp only [App.acknowledged, List.length_append, List.length_singleton]
        omega
      · intro given
        exact inv.length (Or.inl (by simpa [App.busy] using given))
  case take =>
      obtain ⟨sem, took, rfl⟩ := Option.map_eq_some_iff.mp taken
      have count := Semaphore.take_eq_some.mp took
      refine ⟨?_, by simp, inv.last, fun _ => inv.length (Or.inl (by omega)), by simp, by simp⟩
      simpa only [App.acknowledged, at_] using balance
  case test =>
      cases taken
      have length := inv.length (Or.inr (by simp [App.busy, at_]))
      by_cases last : m.app.receivedDataLen = 200
      · rw [if_pos last]
        refine ⟨?_, by simp, inv.last, fun _ => length, fun _ => last, by simp⟩
        simpa only [App.acknowledged, at_] using balance
      · rw [if_neg last]
        refine ⟨?_, by simp, inv.last, fun _ => length, by simp, by simp⟩
        simpa only [App.acknowledged, at_] using balance
  case writeLast =>
      cases taken
      have busy : m.app.busy = true := by simp [App.busy, at_]
      have before := slots.running (by simp [at_])
      have length : m.app.block.length = 200 :=
        (inv.length (Or.inr busy)).trans (inv.writeLast at_)
      rw [slot_of_busy busy, List.append_assoc, List.singleton_append] at before
      have none_ := last_of_length inv.last before length
      rw [none_] at before
      refine ⟨?_, by simp, inv.last, ?_, by simp, fun _ => ⟨before.symm, ?_⟩⟩
      · simp only [App.acknowledged, at_] at balance
        simp only [App.acknowledged, List.length_append, List.length_singleton]
        exact balance
      · intro _
        exact inv.length (Or.inr busy)
      · have member : m.app.block ∈ m.blocks := by rw [before]; simp
        obtain ⟨p, forwarded, same⟩ := List.mem_map.mp member
        exact ⟨p, forwarded, by rw [same]; exact length⟩
  case write =>
      cases taken
      refine ⟨?_, by simp, inv.last, ?_, by simp, by simp⟩
      · simp only [App.acknowledged, at_] at balance
        simp only [App.acknowledged, List.length_append, List.length_singleton]
        exact balance
      · intro _
        exact inv.length (Or.inr (by simp [App.busy, at_]))
  case finished => cases taken

theorem creditInv_deliverToNet {m : Machine} (inv : CreditInv m) {data : UInt32}
    {rest : List UInt32} (oldest : m.toNet = data :: rest) (free : m.net.dataRxSem.count = 0) :
    CreditInv { m with net := m.net.endpointCb data, toNet := rest } := by
  refine ⟨?_, inv.started, inv.last, inv.length, inv.writeLast, inv.finished⟩
  have balance := inv.balance
  have given := m.net.dataRxSem.count_give_of_room (by omega)
  rw [oldest, List.length_cons] at balance
  show rest.length + m.net.dataRxSem.give.count + m.forwarded.length =
    m.app.acknowledged + m.net.waiting
  omega

theorem step_creditInv {m m' : Machine} {a : Act} (slots : SlotInv m) (inv : CreditInv m)
    (ok : creditsInTurn m a = true) (taken : step m a = some m') : CreditInv m' := by
  simp only [creditsInTurn, Bool.and_eq_true] at ok
  obtain ⟨⟨early, turn⟩, counted⟩ := ok
  cases a with
  | forward p =>
      have early' : ∀ q ∈ m.forwarded, q.bytes.length ≠ 200 := by
        simpa [lastIs200] using early
      exact creditInv_forward inv early' taken
  | receiveMessage => exact creditInv_receiveMessage inv taken
  | appTask => exact creditInv_appTask slots inv taken
  | deliverToApp =>
      cases inFlight : m.toApp with
      | nil => simp [step, inFlight] at taken
      | cons p rest =>
          simp only [step, inFlight, Option.some.injEq] at taken
          subst taken
          exact creditInv_deliverToApp inv turn
  | deliverToNet =>
      cases inFlight : m.toNet with
      | nil => simp [step, inFlight] at taken
      | cons data rest =>
          simp only [step, inFlight, Option.some.injEq] at taken
          subst taken
          exact creditInv_deliverToNet inv inFlight (of_decide_eq_true counted)

theorem deliveredInTurn_of_creditsInTurn (m : Machine) (a : Act)
    (ok : creditsInTurn m a = true) : deliveredInTurn m a = true := by
  simp only [creditsInTurn, Bool.and_eq_true] at ok
  exact ok.1.2

theorem reachable_creditInv {m : Machine} (run : Reachable step Init creditsInTurn m) :
    CreditInv m := by
  apply run.strengthen (Q := SlotInv)
  · intro s before
    exact reachable_slotInv (before.mono deliveredInTurn_of_creditsInTurn)
  · intro s init
    exact init_creditInv init
  · intro s a t slots inv ok taken
    exact step_creditInv slots inv ok taken

/-- **A credit is always on its way** in the runs whose packets and acknowledgements
are delivered in their turn, with a packet of length 200 last if at all. -/
theorem not_stuck {m : Machine} (run : Reachable step Init creditsInTurn m) : ¬ Stuck m := by
  rintro ⟨waiting, noCredit, noAck, noPacket, free, rest⟩
  have inv := reachable_creditInv run
  have slots := reachable_slotInv (run.mono deliveredInTurn_of_creditsInTurn)
  have balance := inv.balance
  have forwarded : m.blocks.length = m.forwarded.length := List.length_map _
  simp only [noAck, noCredit, Net.waiting, waiting, List.length_nil, if_true] at balance
  rcases rest with at_ | at_
  · -- Everything forwarded is written, and acknowledged once more than that.
    have written := slots.running (by simp [at_])
    rw [slot_of_idle (by simp [App.busy, at_]), if_neg (by omega), noPacket] at written
    have count := congrArg List.length written
    simp only [List.append_nil, List.map_nil] at count
    simp only [App.acknowledged, at_] at balance
    omega
  · have count := congrArg List.length (inv.finished at_).1
    simp only [App.acknowledged, at_] at balance
    omega

/-! ## A run to its end, and one that sticks -/

/-- A packet of 200 bytes. -/
def lastPacket : Packet where
  bytes := List.replicate 200 7
  nonempty := by rw [List.length_replicate]; decide
  fits := by rw [List.length_replicate]; decide

/-- The last packet is written and not acknowledged. -/
def writeLastOne : List Act := [.appTask, .appTask, .appTask]

/-- One packet and the last one, each delivered in turn. -/
def endedRun : List Act :=
  [.appTask, .forward (onePacket 1), .deliverToNet, .receiveMessage, .deliverToApp] ++ writeOne ++
    [.forward lastPacket, .deliverToNet, .receiveMessage, .deliverToApp] ++ writeLastOne

theorem not_stuck_endedRun :
    ∃ m, exec step creditsInTurn start endedRun = some m ∧ ¬ Stuck m := by
  have possible : (exec step creditsInTurn start endedRun).isSome := by decide +kernel
  obtain ⟨m, taken⟩ := Option.isSome_iff_exists.mp possible
  exact ⟨m, taken, not_stuck (reachable_of_exec init_start taken)⟩

/-- The second packet overwrites the first one, so one acknowledgement is missing
when the last packet has been written. -/
def missingAckRun : List Act :=
  twoCreditsRun ++
    [.deliverToNet, .receiveMessage, .forward lastPacket, .deliverToApp] ++ writeLastOne

/-- **The last packet finds no credit**: the network core waits for ever. -/
theorem last_packet_never_acknowledged :
    ¬ ∀ m, Reachable step Init lastIs200 m → ¬ Stuck m := by
  intro neverStuck
  have found :
      (exec step lastIs200 start missingAckRun).any (fun m => decide (Stuck m)) = true := by
    decide +kernel
  obtain ⟨m, run, stuck⟩ := exists_reachable_of_exec init_start found
  exact neverStuck m run (of_decide_eq_true stuck)

end NcsExp.FlashStream
