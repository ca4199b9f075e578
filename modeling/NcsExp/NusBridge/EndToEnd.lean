/-
# NcsExp.NusBridge.EndToEnd -- from one UART to the other

The peripheral sends what its UART receives (`uart_cb`, `ble_write_thread`), and the central
transmits it on its own UART: `ble_data_received` of the central is the loop of `bt_receive_cb`,
and the two `uart_cb` are the same.  The stack accepts a packet or refuses it, which is only
logged; it delivers what it has accepted in order, as far as the connection lasts.  A `k_malloc`
of the central that fails drops the rest of its packet; the results are about the runs without
one, which are undisturbed otherwise as well.

* `whole_packets`: whatever is refused or lost, what is transmitted is made of whole packets, in
  their order, each a full buffer or one that ends at a terminator.
* `end_to_end`: if nothing is refused or lost, what is transmitted is what was received so far,
  with line feeds behind some of the carriage returns.
* `delivered`: then the threads and drivers alone bring all of it to the other side but the
  buffer that is still being filled.
-/
import NcsExp.NusBridge.RxOwnership
import NcsExp.NusBridge.TxOrder
import NcsExp.Theory.Insertion
import NcsExp.Theory.Progress
import Mathlib.Algebra.Ring.Nat

namespace NcsExp.NusBridge

open NcsExp.Theory

set_option autoImplicit false

/-! ## What the sending end writes down -/

/-- A full buffer, or one that ends at a terminator. -/
def Framed (c : Config) (bytes : List UInt8) : Prop :=
  bytes.length = c.uartBufSize ∨ bytes.getLast? = some lf ∨ bytes.getLast? = some cr

/-- What a step may write in the log. -/
def Notes (c : Config) (m : Machine) (a : Act) : Entry → Prop
  | .allocated _ => True
  | .freed _ => True
  | .rxPut _ bytes => a ≠ .ble ∧ Framed c bytes
  | .nusSent buf bytes => m.ble = .nusSend buf ∧ bytes = m.app.content m.mem buf ∧ a = .ble

section

variable {c : Config} {m t : Machine} {a : Act}

/-- What is put in the FIFO by a report. -/
theorem Reported.log {buf : Buf} {bytes : List UInt8} (reported : Reported c m buf bytes)
    (some_ : bytes ≠ []) :
    (m.afterReport buf bytes
        (rxRdy c (m.mem.store (buf + m.drv.filled) bytes) m.app buf bytes.length)).app.log =
      m.app.log ∨
    ∃ contents, (m.afterReport buf bytes
        (rxRdy c (m.mem.store (buf + m.drv.filled) bytes) m.app buf bytes.length)).app.log =
      m.app.log ++ [.rxPut buf contents] ∧ Framed c contents := by
  have nonempty : 0 < (m.app.reported buf bytes.length).len buf := by
    have more := List.length_pos_iff.mpr some_
    rw [reported.len]
    omega
  have last : ((m.app.reported buf bytes.length).content
      (m.mem.store (buf + m.drv.filled) bytes) buf).getLast? =
        some (m.mem.store (buf + m.drv.filled) bytes
          (buf + ((m.app.reported buf bytes.length).len buf - 1))) :=
    Memory.getLast?_load _ _ nonempty
  unfold Machine.afterReport rxRdy
  dsimp only
  split
  · rename_i full
    exact .inr ⟨_, rfl, .inl ((Memory.length_load _ _ _).trans full)⟩
  · split
    · rename_i terminator
      refine .inr ⟨_, rfl, .inr ?_⟩
      change ((m.app.reported buf bytes.length).content _ buf).getLast? = _ ∨
        ((m.app.reported buf bytes.length).content _ buf).getLast? = _
      rw [last, Option.some.injEq, Option.some.injEq]
      exact terminator
    · exact .inl rfl

theorem uartWorkHandler_log (c : Config) (alloc : Option Buf) (app : App) :
    (uartWorkHandler c alloc app).1.log = app.log ∨
      ∃ buf, (uartWorkHandler c alloc app).1.log = app.log ++ [.allocated buf] := by
  cases alloc with
  | none => exact .inl rfl
  | some buf => exact .inr ⟨buf, rfl⟩

/-- A statement of `ble_write_thread`. -/
theorem ble_cases (taken : step c m .ble = some t) :
    (∃ buf rest, m.ble = .fifoGet ∧ m.app.fifoUartRxData = buf :: rest ∧
        t = { m with app := { m.app with fifoUartRxData := rest }, ble := .nusSend buf }) ∨
      (∃ buf, m.ble = .nusSend buf ∧
        t = { m with
          app := m.app.note (.nusSent buf (m.app.content m.mem buf))
          ble := .free buf }) ∨
      ∃ buf, m.ble = .free buf ∧ t = { m with app := m.app.kFree buf, ble := .fifoGet } := by
  simp only [step, Option.map_eq_some_iff] at taken
  obtain ⟨⟨app, ble⟩, done, rfl⟩ := taken
  cases pc : m.ble with
  | fifoGet =>
      rw [pc] at done
      unfold bleWriteThread at done
      dsimp only at done
      split at done
      · cases done
      · rename_i buf rest fifo
        cases done
        exact .inl ⟨buf, rest, rfl, fifo, rfl⟩
  | nusSend buf =>
      rw [pc] at done
      cases done
      exact .inr (.inl ⟨buf, rfl, rfl⟩)
  | free buf =>
      rw [pc] at done
      cases done
      exact .inr (.inr ⟨buf, rfl, rfl⟩)

/-- A step writes one entry at most. -/
theorem log_step (inv : RxInv c m) (met : undisturbed c m a = true) (taken : step c m a = some t) :
    t.app.log = m.app.log ∨ ∃ e, t.app.log = m.app.log ++ [e] ∧ Notes c m a e := by
  cases a with
  | rxRdy bytes =>
      have some_ : bytes ≠ [] := by
        simp only [step] at taken
        split at taken
        · simp only [Option.ite_none_right_eq_some] at taken
          exact taken.1.2.1
        · cases taken
      obtain ⟨buf, reported, rfl⟩ := reported_of_step inv met taken
      rcases reported.log some_ with same | ⟨contents, log, framed⟩
      · exact .inl same
      · have other : Act.rxRdy bytes ≠ .ble := by
          intro same
          cases same
        exact .inr ⟨_, log, other, framed⟩
  | rxBufRequest alloc =>
      rcases rxBufRequest_cases taken with rfl | ⟨buf, -, -, -, rfl⟩
      · exact .inl rfl
      · exact .inr ⟨.allocated buf, rfl, trivial⟩
  | switch =>
      obtain ⟨-, -, rfl⟩ := switch_done inv taken
      exact .inl rfl
  | rxBufReleased buf =>
      obtain ⟨-, ⟨-, rfl⟩ | ⟨-, -, rfl⟩⟩ := rxBufReleased_cases inv taken
      · exact .inl rfl
      · exact .inr ⟨.freed buf, rfl, trivial⟩
  | rxStopped reason =>
      simp only [step, Option.ite_none_right_eq_some, Option.some.injEq] at taken
      obtain ⟨-, rfl⟩ := taken
      exact .inl rfl
  | rxDisabled alloc =>
      simp only [step, Option.ite_none_right_eq_some, Option.some.injEq] at taken
      obtain ⟨-, rfl⟩ := taken
      rcases uartWorkHandler_log c alloc m.app with same | ⟨buf, log⟩
      · exact .inl same
      · exact .inr ⟨.allocated buf, log, trivial⟩
  | uartWork alloc =>
      simp only [step, Option.ite_none_right_eq_some, Option.some.injEq] at taken
      obtain ⟨-, rfl⟩ := taken
      rcases uartWorkHandler_log c alloc { m.app with uartWork := false } with same | ⟨buf, log⟩
      · exact .inl same
      · exact .inr ⟨.allocated buf, log, trivial⟩
  | ble =>
      obtain ⟨buf, rest, -, -, rfl⟩ | ⟨buf, pc, rfl⟩ | ⟨buf, -, rfl⟩ := ble_cases taken
      · exact .inl rfl
      · exact .inr ⟨_, rfl, pc, rfl, rfl⟩
      · exact .inr ⟨.freed buf, rfl, trivial⟩

/-- Only `bt_nus_send` sends. -/
theorem sents_step (inv : RxInv c m) (met : undisturbed c m a = true) (taken : step c m a = some t)
    (other : a = .ble → m.ble.unsent = []) : sents t.app.log = sents m.app.log := by
  rcases log_step inv met taken with same | ⟨e, log, notes⟩
  · rw [same]
  · rw [log, sents_snoc]
    cases e with
    | nusSent buf bytes =>
        obtain ⟨pc, -, ble⟩ := notes
        have none_ := other ble
        rw [pc] at none_
        cases none_
    | _ => exact List.append_nil _

/-- What is put in the FIFO is framed. -/
theorem puts_step (inv : RxInv c m) (met : undisturbed c m a = true) (taken : step c m a = some t) :
    puts t.app.log = puts m.app.log ∨
      ∃ p, puts t.app.log = puts m.app.log ++ [p] ∧ a ≠ .ble ∧ Framed c p.2 := by
  rcases log_step inv met taken with same | ⟨e, log, notes⟩
  · exact .inl (congrArg puts same)
  · rw [log, puts_snoc]
    cases e with
    | rxPut buf bytes => exact .inr ⟨(buf, bytes), rfl, notes⟩
    | _ => exact .inl (List.append_nil _)

end

/-- A carriage return at the end of a packet gets a line feed. -/
theorem inserted_forwarded (data : List UInt8) : Inserted cr lf data (Tx.forwarded data) := by
  unfold Tx.forwarded
  split
  · rename_i last
    obtain ⟨before, rfl⟩ := List.getLast?_eq_some_iff.mp last
    rw [List.append_assoc]
    exact (Inserted.refl cr lf before).append (.insert .nil)
  · exact .refl cr lf data

/-! ## Both ends -/

/-- `air` is what the stack has accepted and not delivered. -/
structure Bridge where
  near : Machine
  air : List (List UInt8)
  far : Tx.Machine

namespace Bridge

/-- A packet reaches the other end in a step of both. -/
def receives : Tx.Act → Bool
  | .receive _ => true
  | _ => false

inductive Act
  | near (a : NusBridge.Act)
  /-- The stack accepts the packet of `bt_nus_send`, or refuses it. -/
  | nusSend (accepted : Bool)
  | arrive
  | far (a : Tx.Act)
  /-- The connection is lost, with what is on the air. -/
  | disconnect
  /-- `k_malloc` fails in `ble_data_received`: the rest of the packet is dropped. -/
  | mallocFails

def step (c d : Config) (s : Bridge) : Act → Option Bridge
  | .near a =>
      if a = .ble ∧ s.near.ble.unsent ≠ [] then none
      else (NusBridge.step c s.near a).map fun m => { s with near := m }
  | .nusSend accepted =>
      match s.near.ble with
      | .nusSend buf =>
          (NusBridge.step c s.near .ble).map fun m => { s with
            near := m
            air := if accepted then s.air ++ [s.near.app.content s.near.mem buf] else s.air }
      | _ => none
  | .arrive =>
      match s.air with
      | [] => none
      | data :: rest =>
          (Tx.step d s.far (.receive data)).map fun m => { s with air := rest, far := m }
  | .far a =>
      if receives a then none else (Tx.step d s.far a).map fun m => { s with far := m }
  | .disconnect => some { s with air := [] }
  | .mallocFails =>
      match s.far.bt with
      | .malloc _ _ => some { s with far := { s.far with bt := .idle } }
      | _ => none

structure Init (s : Bridge) : Prop where
  near : NusBridge.Init s.near
  air : s.air = []
  far : Tx.Init s.far

/-- What was put in the FIFO of the sending end. -/
def put (s : Bridge) : List (List UInt8) := (puts s.near.app.log).map (·.2)

/-- What was given to `bt_nus_send`. -/
def sent (s : Bridge) : List (List UInt8) := (sents s.near.app.log).map (·.2)

/-- What has arrived, and what still may. -/
def carried (s : Bridge) : List (List UInt8) := s.far.packets ++ s.air

/-- The near receiver reports nothing once it stops, and no error stops it in the middle of a
buffer; no `UART_TX_DONE` of the far end finds the FIFO empty while a chunk is on its way there,
and its `k_malloc` does not fail. -/
def undisturbed (c : Config) (s : Bridge) : Act → Bool
  | .near a => NusBridge.undisturbed c s.near a
  | .far a => Tx.unraced s.far a
  | .mallocFails => false
  | _ => true

/-- Moreover, no packet is refused, and the connection lasts. -/
def kept (c : Config) (s : Bridge) : Act → Bool
  | .nusSend accepted => accepted
  | .disconnect => false
  | a => undisturbed c s a

/-! ## What a step does to the packets -/

variable {c d : Config} {s t : Bridge} {a : Act}

structure Ends (c d : Config) (s : Bridge) : Prop where
  near : RxInv c s.near
  far : Tx.TxInv d s.far
  framed : ∀ p ∈ s.put, Framed c p

theorem near_eq_some {a : NusBridge.Act} (taken : s.step c d (.near a) = some t) :
    ∃ m, NusBridge.step c s.near a = some m ∧ (a = .ble → s.near.ble.unsent = []) ∧
      t = { s with near := m } := by
  simp only [step, Option.ite_none_left_eq_some, Option.map_eq_some_iff] at taken
  obtain ⟨other, m, moved, rfl⟩ := taken
  refine ⟨m, moved, ?_, rfl⟩
  intro ble
  by_contra sends
  exact other ⟨ble, sends⟩

theorem nusSend_eq_some {accepted : Bool} (taken : s.step c d (.nusSend accepted) = some t) :
    ∃ buf m, s.near.ble = .nusSend buf ∧ NusBridge.step c s.near .ble = some m ∧
      t = { s with
        near := m
        air := if accepted then s.air ++ [s.near.app.content s.near.mem buf] else s.air } := by
  simp only [step] at taken
  split at taken
  · rename_i buf pc
    obtain ⟨m, moved, rfl⟩ := Option.map_eq_some_iff.mp taken
    exact ⟨buf, m, pc, moved, rfl⟩
  · cases taken

theorem arrive_eq_some (taken : s.step c d .arrive = some t) :
    ∃ data rest m, s.air = data :: rest ∧ Tx.step d s.far (.receive data) = some m ∧
      t = { s with air := rest, far := m } := by
  simp only [step] at taken
  split at taken
  · cases taken
  · rename_i data rest air
    obtain ⟨m, moved, rfl⟩ := Option.map_eq_some_iff.mp taken
    exact ⟨data, rest, m, air, moved, rfl⟩

theorem far_eq_some {a : Tx.Act} (taken : s.step c d (.far a) = some t) :
    ∃ m, receives a = false ∧ Tx.step d s.far a = some m ∧ t = { s with far := m } := by
  simp only [step, Option.ite_none_left_eq_some, Option.map_eq_some_iff] at taken
  obtain ⟨other, m, moved, rfl⟩ := taken
  exact ⟨m, by simpa using other, moved, rfl⟩

/-- The packets stay the same while none is received. -/
theorem packets_step {m w : Tx.Machine} {a : Tx.Act} (inv : Tx.TxInv d m)
    (other : receives a = false) (taken : Tx.step d m a = some w) : w.packets = m.packets := by
  cases a with
  | receive data => cases other
  | malloc tx =>
      simp only [Tx.step] at taken
      split at taken
      · simp only [Option.ite_none_right_eq_some, Option.some.injEq] at taken
        obtain ⟨-, rfl⟩ := taken
        rfl
      · cases taken
  | uartTx =>
      simp only [Tx.step] at taken
      split at taken
      · split at taken <;> cases taken <;> rfl
      · cases taken
  | fifoPut =>
      simp only [Tx.step] at taken
      split at taken
      · cases taken
        rfl
      · cases taken
  | shift =>
      simp only [Tx.step] at taken
      split at taken
      · simp only [Option.ite_none_right_eq_some, Option.some.injEq] at taken
        obtain ⟨-, rfl⟩ := taken
        rfl
      · cases taken
  | txDone =>
      obtain ⟨x, -, -, ⟨-, rfl⟩ | ⟨buf, rest, -, rfl⟩⟩ := Tx.txDone_cases inv.toLayout taken
      · rfl
      · rfl

/-- A statement of `ble_write_thread` puts nothing. -/
theorem put_ble {m : Machine} (inv : Ends c d s) (taken : NusBridge.step c s.near .ble = some m) :
    (puts m.app.log).map (·.2) = s.put := by
  rcases puts_step inv.near rfl taken with same | ⟨p, -, other, -⟩
  · rw [same]
    rfl
  · exact absurd rfl other

namespace Ends

theorem of_init (init : s.Init) : Ends c d s := by
  refine ⟨init_rxInv init.near, Tx.init_txInv init.far, ?_⟩
  obtain ⟨rx, mem, -, near⟩ := init.near
  intro p member
  rw [put, near] at member
  cases member

theorem step (inv : Ends c d s) (met : s.undisturbed c a = true) (taken : s.step c d a = some t) :
    Ends c d t := by
  cases a with
  | near a =>
      obtain ⟨m, moved, -, rfl⟩ := near_eq_some taken
      refine ⟨step_rxInv inv.near met moved, inv.far, ?_⟩
      intro p member
      rcases puts_step inv.near met moved with same | ⟨q, log, -, framed⟩
      · rw [put, same] at member
        exact inv.framed p member
      · rw [put, log, List.map_append, List.mem_append] at member
        rcases member with old | new
        · exact inv.framed p old
        · rw [List.mem_singleton.mp new]
          exact framed
  | nusSend accepted =>
      obtain ⟨buf, m, -, moved, rfl⟩ := nusSend_eq_some taken
      refine ⟨step_rxInv inv.near rfl moved, inv.far, ?_⟩
      intro p member
      rw [put, put_ble inv moved] at member
      exact inv.framed p member
  | arrive =>
      obtain ⟨data, rest, m, -, moved, rfl⟩ := arrive_eq_some taken
      exact ⟨inv.near, Tx.step_txInv inv.far rfl moved, inv.framed⟩
  | far a =>
      obtain ⟨m, -, moved, rfl⟩ := far_eq_some taken
      exact ⟨inv.near, Tx.step_txInv inv.far met moved, inv.framed⟩
  | disconnect =>
      cases taken
      exact ⟨inv.near, inv.far, inv.framed⟩
  | mallocFails => cases met

/-- What is sent was put before. -/
theorem sent_put (inv : Ends c d s) : s.sent <+: s.put := by
  rw [put, inv.near.books.unmodified, List.map_append]
  exact List.prefix_append _ _

/-- What is received, up to the buffer that is being filled. -/
theorem received (inv : Ends c d s) : s.near.received = s.put.flatten ++ s.near.pending c := by
  rw [inv.near.pending_eq, put, ← List.flatMap_def]
  exact inv.near.stream

/-- What is transmitted comes from the packets that have arrived. -/
theorem wire (inv : Ends c d s) : s.far.wire <+: s.far.packets.flatMap Tx.forwarded :=
  inv.far.toOrdered.wire

/-- Every step sends a packet, loses what is on the air, or changes neither. -/
theorem carried_step (inv : Ends c d s) (met : s.undisturbed c a = true)
    (taken : s.step c d a = some t) :
    t.carried = s.carried ∧ t.sent = s.sent ∨
      (∃ p, t.sent = s.sent ++ [p] ∧
        (a = .nusSend true ∧ t.carried = s.carried ++ [p] ∨
          a = .nusSend false ∧ t.carried = s.carried)) ∨
      a = .disconnect ∧ t.carried = s.far.packets ∧ t.sent = s.sent := by
  cases a with
  | near a =>
      obtain ⟨m, moved, other, rfl⟩ := near_eq_some taken
      exact .inl ⟨rfl, congrArg (List.map _) (sents_step inv.near met moved other)⟩
  | nusSend accepted =>
      obtain ⟨buf, m, pc, moved, rfl⟩ := nusSend_eq_some taken
      refine .inr (.inl ⟨s.near.app.content s.near.mem buf, ?_, ?_⟩)
      · obtain ⟨b, rest, fifoGet, -⟩ | ⟨b, at_, rfl⟩ | ⟨b, free, -⟩ := ble_cases moved
        · cases pc.symm.trans fifoGet
        · cases pc.symm.trans at_
          rw [sent, sent]
          show (sents (s.near.app.log ++ [_])).map _ = _
          rw [sents_snoc, List.map_append]
          rfl
        · cases pc.symm.trans free
      · cases accepted with
        | true => exact .inl ⟨rfl, (List.append_assoc _ _ _).symm⟩
        | false => exact .inr ⟨rfl, rfl⟩
  | arrive =>
      obtain ⟨data, rest, m, air, moved, rfl⟩ := arrive_eq_some taken
      refine .inl ⟨?_, rfl⟩
      simp only [Tx.step, Option.ite_none_right_eq_some, Option.some.injEq] at moved
      obtain ⟨-, rfl⟩ := moved
      rw [carried, carried, air]
      simp
  | far a =>
      obtain ⟨m, other, moved, rfl⟩ := far_eq_some taken
      refine .inl ⟨?_, rfl⟩
      rw [carried, packets_step inv.far other moved]
      rfl
  | disconnect =>
      cases taken
      exact .inr (.inr ⟨rfl, List.append_nil _, rfl⟩)
  | mallocFails => cases met

end Ends

theorem ends_of_reachable (run : Reachable (step c d) Init (undisturbed c) s) : Ends c d s := by
  apply run.invariant
  · intro s init
    exact .of_init init
  · intro s a t inv met taken
    exact inv.step met taken

theorem carried_of_init (init : s.Init) : s.carried = [] ∧ s.sent = [] := by
  obtain ⟨rx, mem, -, near⟩ := init.near
  refine ⟨?_, ?_⟩
  · rw [carried, init.far.packets, init.air]
    rfl
  · rw [sent, near]
    rfl

/-- What arrives is part of what was sent, in its order. -/
theorem carried_sublist (run : Reachable (step c d) Init (undisturbed c) s) :
    s.carried.Sublist s.sent := by
  apply run.strengthen (Q := Ends c d)
  · intro s before
    exact ends_of_reachable before
  · intro s init
    rw [(carried_of_init init).1]
    exact List.nil_sublist _
  · intro s a t inv part met taken
    obtain ⟨same, sent⟩ | ⟨p, sent, ⟨-, more⟩ | ⟨-, same⟩⟩ | ⟨-, less, sent⟩ :=
      inv.carried_step met taken
    · rw [same, sent]
      exact part
    · rw [more, sent]
      exact part.append (List.Sublist.refl _)
    · rw [same, sent]
      exact part.trans (List.sublist_append_left _ _)
    · rw [less, sent]
      exact (List.sublist_append_left _ _).trans part

/-- **Whole packets, in their order.**  In every undisturbed run of the two ends, whatever the
stack refuses and whenever the connection is lost: what is transmitted comes from a part of the
packets of the sending end, in their order, each transmitted completely but for the last; and the
packets are what its UART has received, cut at full buffers and at terminators. -/
theorem whole_packets (run : Reachable (step c d) Init (undisturbed c) s) :
    (∃ packets : List (List UInt8), packets.Sublist s.put ∧
        s.far.wire <+: packets.flatMap Tx.forwarded) ∧
      s.near.received = s.put.flatten ++ s.near.pending c ∧ ∀ p ∈ s.put, Framed c p := by
  have inv := ends_of_reachable run
  have part := (carried_sublist run).trans inv.sent_put.sublist
  have arrived := (List.sublist_append_left s.far.packets s.air).trans part
  exact ⟨⟨s.far.packets, arrived, inv.wire⟩, inv.received, inv.framed⟩

/-- Before the first byte. -/
def booted : Bridge := ⟨rxBooted, [], Tx.booted⟩

theorem booted_init : booted.Init := ⟨rxBooted_init, rfl, Tx.booted_init⟩

/-- A full buffer, and a line, as `ble_write_thread` takes them. -/
def received : List Act :=
  [.near (.rxBufRequest (some 200)), .near (.rxRdy [1, 2, 3, 4]), .near .switch,
    .near (.rxRdy [5, 13]), .near .ble]

/-- The full buffer is refused. -/
def refusedRun : List Act :=
  received ++ [.nusSend false, .near .ble, .near .ble, .nusSend true, .arrive,
    .far (.malloc 100), .far .uartTx, .far .shift]

theorem whole_packets_refusedRun : ∃ s : Bridge, s.put = [[1, 2, 3, 4], [5, 13]] ∧
    s.far.wire = [5] ∧
    ∃ packets : List (List UInt8), packets.Sublist s.put ∧
      s.far.wire <+: packets.flatMap Tx.forwarded := by
  have found : (exec (step tiny tiny) (undisturbed tiny) booted refusedRun).any
      (fun s => s.put == [[1, 2, 3, 4], [5, 13]] && s.far.wire == [5]) = true := by
    decide +kernel
  obtain ⟨s, run, shown⟩ := exists_reachable_of_exec booted_init found
  rw [Bool.and_eq_true, beq_iff_eq, beq_iff_eq] at shown
  exact ⟨s, shown.1, shown.2, (whole_packets run).1⟩

/-! ## Nothing refused, nothing lost -/

theorem undisturbed_of_kept (met : s.kept c a = true) : s.undisturbed c a = true := by
  cases a with
  | near a => exact met
  | far a => exact met
  | mallocFails => exact met
  | _ => rfl

/-- What was sent has arrived, or is on the air. -/
structure Whole (c d : Config) (s : Bridge) : Prop extends Ends c d s where
  carried : s.carried = s.sent

theorem Whole.step (whole : Whole c d s) (met : s.kept c a = true)
    (taken : s.step c d a = some t) : Whole c d t := by
  have inv := whole.toEnds
  have met' := undisturbed_of_kept met
  refine ⟨inv.step met' taken, ?_⟩
  obtain ⟨same, sent⟩ | ⟨p, sent, ⟨-, more⟩ | ⟨rfl, -⟩⟩ | ⟨rfl, -⟩ := inv.carried_step met' taken
  · rw [same, sent]
    exact whole.carried
  · rw [more, sent, whole.carried]
  · cases met
  · cases met

theorem whole_of_reachable (run : Reachable (step c d) Init (kept c) s) : Whole c d s := by
  apply run.invariant
  · intro s init
    obtain ⟨carried, sent⟩ := carried_of_init init
    exact ⟨.of_init init, carried.trans sent.symm⟩
  · intro s a t whole met taken
    exact whole.step met taken

/-- The packets that have arrived are the first ones that were put. -/
theorem Whole.arrived (whole : Whole c d s) : s.far.packets <+: s.put := by
  have carried : s.far.packets <+: s.carried := List.prefix_append _ _
  rw [whole.carried] at carried
  exact carried.trans whole.sent_put

/-- **From one UART to the other.**  In every undisturbed run of the two ends in which no packet is
refused or lost: what is transmitted at one end is a part, from its beginning, of what is received
at the other, with line feeds behind some of the carriage returns, and nothing else. -/
theorem end_to_end (run : Reachable (step c d) Init (kept c) s) :
    ∃ part, part <+: s.near.received ∧ Inserted cr lf part s.far.wire := by
  have whole := whole_of_reachable run
  have wire : s.far.wire <+: s.put.flatMap Tx.forwarded := by
    obtain ⟨rest, put⟩ := whole.arrived
    rw [← put, List.flatMap_append]
    exact whole.wire.trans (List.prefix_append _ _)
  have all := Inserted.flatMap inserted_forwarded s.put
  obtain ⟨part, source, inserted⟩ := all.of_prefix wire
  refine ⟨part, source.trans ?_, inserted⟩
  rw [whole.received]
  exact List.prefix_append _ _

/-- Both packets are accepted; the first byte of the second one is transmitted. -/
def acceptedRun : List Act :=
  received ++ [.nusSend true, .near .ble, .near .ble, .nusSend true, .arrive,
    .far (.malloc 100), .far .uartTx, .far (.malloc 200), .far .uartTx, .far .fifoPut, .arrive,
    .far (.malloc 300), .far .uartTx, .far .fifoPut, .far .shift, .far .shift, .far .shift,
    .far .txDone, .far .shift, .far .txDone, .far .shift]

theorem end_to_end_acceptedRun : ∃ s : Bridge, s.far.wire = [1, 2, 3, 4, 5] ∧
    ∃ part, part <+: s.near.received ∧ Inserted cr lf part s.far.wire := by
  have found : (exec (step tiny tiny) (kept tiny) booted acceptedRun).any
      (fun s => s.far.wire == [1, 2, 3, 4, 5]) = true := by
    decide +kernel
  obtain ⟨s, run, shown⟩ := exists_reachable_of_exec booted_init found
  exact ⟨s, beq_iff_eq.mp shown, end_to_end run⟩

/-! ## Everything arrives -/

/-- The steps of `ble_write_thread`, of the link and of the other end. -/
def Own : Act → Prop
  | .near a => a = .ble
  | .nusSend accepted => accepted = true
  | .arrive => True
  | .far _ => True
  | .disconnect | .mallocFails => False

/-- Nothing is on its way. -/
structure AtRest (s : Bridge) : Prop where
  ble : s.near.ble = .fifoGet
  fifo : s.near.app.fifoUartRxData = []
  air : s.air = []
  bt : s.far.bt = .idle
  uart : s.far.uart = none

/-- Then everything that was put has been transmitted. -/
theorem Whole.wire_eq (whole : Whole c d s) (rest : s.AtRest) :
    s.far.wire = s.put.flatMap Tx.forwarded := by
  have sent : s.sent = s.put := by
    rw [Bridge.sent, put, whole.near.books.unmodified, rest.ble, rest.fifo]
    simp [BlePc.unsent]
  have arrived : s.far.packets = s.put := by
    have carried := whole.carried
    rwa [Bridge.carried, rest.air, List.append_nil, sent] at carried
  have waiting : s.far.waiting = [] := by
    rw [Tx.Machine.waiting, (whole.far.busy rest.uart).1, rest.bt]
    rfl
  have unsent : s.far.unsent = [] := by
    unfold Tx.Machine.unsent
    rw [rest.uart]
  have started : s.far.chunks = s.far.started := by
    rw [whole.far.chunks, waiting, List.map_nil, List.append_nil]
  have packets := whole.far.packets
  rw [rest.bt, started, whole.far.wire, unsent, arrived] at packets
  simpa [Tx.BtPc.rest] using packets.symm

/-! ### What is left to do -/

/-- A byte still to be copied weighs 5, as there is one byte in a chunk at least. -/
def btWork (len : Buf → Nat) : Tx.BtPc → Nat
  | .idle => 0
  | .malloc data pos => 5 * (Tx.rest data pos).length
  | .uartTx data pos tx => 5 * (Tx.rest data pos).length + len tx + 3
  | .fifoPut data pos tx => 5 * (Tx.rest data pos).length + len tx + 2

def farWork (m : Tx.Machine) : Nat :=
  btWork m.app.len m.bt + (m.app.fifoUartTxData.map fun b => m.app.len b + 1).sum +
    (m.uart.map fun x => x.len - x.sent + 1).getD 0

def packetWork (length : Nat) : Nat := 5 * (length + 1) + 1

def nearWork (m : Machine) : Nat :=
  (match m.ble with
    | .fifoGet => 0
    | .nusSend buf => packetWork (m.app.len buf) + 2
    | .free _ => 1) +
  (m.app.fifoUartRxData.map fun b => packetWork (m.app.len b) + 3).sum

def rank (s : Bridge) : Nat :=
  nearWork s.near + (s.air.map fun p => packetWork p.length).sum + farWork s.far

theorem btWork_loop (len : Buf → Nat) (data : List UInt8) (pos : Nat) :
    btWork len (.loop data pos) = 5 * (Tx.rest data pos).length := by
  unfold Tx.BtPc.loop
  split
  · rename_i last
    rw [Tx.rest, if_pos last]
    rfl
  · rfl

/-- One of the steps of the other end that lower what is left to do there. -/
def FarMoves (d : Config) (m : Tx.Machine) : Prop :=
  ∃ a w, receives a = false ∧ Tx.unraced m a = true ∧ Tx.step d m a = some w ∧
    farWork w < farWork m

section

variable {m : Tx.Machine} {data : List UInt8} {pos : Nat} {tx : Buf}

/-- The next chunk is filled. -/
theorem malloc_moves (inv : Tx.TxInv d m) (bt : m.bt = .malloc data pos) : FarMoves d m := by
  obtain ⟨tx, fresh⟩ := exists_fresh d m.app
  have taken : Tx.step d m (.malloc tx) = some { m with
      app := m.app.fill tx (chunk d data pos)
      mem := m.mem.store tx (chunk d data pos)
      bt := .uartTx data (pos + chunkLen d data.length pos) tx
      chunks := m.chunks ++ [(tx, chunk d data pos)] } := by
    simp only [Tx.step, bt, if_pos fresh]
  refine ⟨.malloc tx, _, rfl, rfl, taken, ?_⟩
  have inside := inv.inside
  rw [bt] at inside
  have some_ := Tx.length_chunk_pos d inside
  have rest := congrArg List.length (Tx.rest_eq_chunk d inside)
  rw [List.length_append] at rest
  have same : (m.app.fifoUartTxData.map fun b => (m.app.fill tx (chunk d data pos)).len b + 1) =
      m.app.fifoUartTxData.map fun b => m.app.len b + 1 := by
    apply List.map_congr_left
    intro b member
    have live : b ∈ m.live := by simp [Tx.Machine.live, Tx.Machine.waiting, member]
    rw [fill_len (inv.blocks.ne_fresh fresh live)]
  have new : (m.app.fill tx (chunk d data pos)).len tx = (chunk d data pos).length := if_pos rfl
  have fifo : (m.app.fill tx (chunk d data pos)).fifoUartTxData = m.app.fifoUartTxData := rfl
  simp only [farWork, btWork, bt, fifo, same, new]
  omega

/-- It is given to the UART, or refused. -/
theorem uartTx_moves (bt : m.bt = .uartTx data pos tx) : FarMoves d m := by
  have before : btWork m.app.len m.bt = 5 * (Tx.rest data pos).length + m.app.len tx + 3 := by
    rw [bt]
    rfl
  by_cases idle : m.uart = none
  · have taken : Tx.step d m .uartTx =
        some { m.start tx (m.app.len tx) with bt := .loop data pos } := by
      simp only [Tx.step, bt, if_pos idle]
    refine ⟨.uartTx, _, rfl, rfl, taken, ?_⟩
    simp only [farWork, Tx.Machine.start, btWork_loop, before, idle, Option.map_some,
      Option.map_none, Option.getD_some, Option.getD_none]
    omega
  · have taken : Tx.step d m .uartTx = some { m with bt := .fifoPut data pos tx } := by
      simp only [Tx.step, bt, if_neg idle]
    have after : btWork m.app.len (.fifoPut data pos tx) =
        5 * (Tx.rest data pos).length + m.app.len tx + 2 := rfl
    refine ⟨.uartTx, _, rfl, rfl, taken, ?_⟩
    simp only [farWork, before, after]
    omega

/-- Then it waits in the FIFO. -/
theorem fifoPut_moves (bt : m.bt = .fifoPut data pos tx) : FarMoves d m := by
  have before : btWork m.app.len m.bt = 5 * (Tx.rest data pos).length + m.app.len tx + 2 := by
    rw [bt]
    rfl
  have taken : Tx.step d m .fifoPut =
      some { m with app := m.app.txPut tx, bt := .loop data pos } := by
    simp only [Tx.step, bt]
  refine ⟨.fifoPut, _, rfl, rfl, taken, ?_⟩
  simp only [farWork, App.txPut, btWork_loop, before, List.map_append, List.map_cons,
    List.map_nil, List.sum_append, List.sum_cons, List.sum_nil]
  omega

/-- The UART goes on. -/
theorem uart_moves (inv : Tx.TxInv d m) (bt : m.bt = .idle) {x : Tx.Transfer}
    (active : m.uart = some x) : FarMoves d m := by
  have bound := (inv.transfer x active).2
  by_cases more : x.sent < x.len
  · have taken : Tx.step d m .shift = some { m with
        wire := m.wire ++ [m.mem (x.buf + x.sent)]
        uart := some { x with sent := x.sent + 1 } } := by
      simp only [Tx.step, active, if_pos more]
    refine ⟨.shift, _, rfl, rfl, taken, ?_⟩
    simp only [farWork, active, Option.map_some, Option.getD_some]
    omega
  · have all : x.sent = x.len := by omega
    have taken : Tx.step d m .txDone =
        some (Tx.callback d { m with uart := none } (.txDone x.buf x.len)) := by
      simp only [Tx.step, active, if_pos all]
    refine ⟨.txDone, _, rfl, by simp only [Tx.unraced, bt], taken, ?_⟩
    obtain ⟨y, same, -, ⟨-, after⟩ | ⟨buf, rest, fifo, after⟩⟩ := Tx.txDone_cases inv.toLayout taken
    · rw [after]
      simp only [farWork, active, App.kFree, App.note, Option.map_some, Option.getD_some,
        Option.map_none, Option.getD_none, all]
      omega
    · rw [after]
      simp only [farWork, Tx.Machine.start, active, fifo, App.kFree, App.note, Option.map_some,
        Option.getD_some, List.map_cons, List.sum_cons, all]
      omega

theorem far_moves (inv : Tx.TxInv d m) (busy : m.bt ≠ .idle ∨ m.uart ≠ none) : FarMoves d m := by
  cases bt : m.bt with
  | idle =>
      obtain ⟨x, active⟩ := Option.ne_none_iff_exists'.mp (busy.resolve_left (not_not.mpr bt))
      exact uart_moves inv bt active
  | malloc data pos => exact malloc_moves inv bt
  | uartTx data pos tx => exact uartTx_moves bt
  | fifoPut data pos tx => exact fifoPut_moves bt

end

/-- One of the steps that lead on. -/
def Moves (c d : Config) (s : Bridge) : Prop :=
  ∃ a t, Own a ∧ s.kept c a = true ∧ s.step c d a = some t ∧ t.put = s.put ∧ t.rank < s.rank

/-- `ble_write_thread` takes a step in which it sends nothing. -/
theorem step_ble {m : Machine} (quiet : s.near.ble.unsent = [])
    (moved : NusBridge.step c s.near .ble = some m) :
    s.step c d (.near .ble) = some { s with near := m } := by
  have allowed : ¬ (NusBridge.Act.ble = .ble ∧ s.near.ble.unsent ≠ []) := by
    rintro ⟨-, sends⟩
    exact sends quiet
  unfold Bridge.step
  dsimp only
  rw [if_neg allowed, moved, Option.map_some]

/-- `ble_write_thread` goes on. -/
theorem Whole.near_moves (whole : Whole c d s)
    (busy : s.near.ble ≠ .fifoGet ∨ s.near.app.fifoUartRxData ≠ []) : Moves c d s := by
  cases pc : s.near.ble with
  | fifoGet =>
      obtain ⟨buf, rest, fifo⟩ :=
        List.exists_cons_of_ne_nil (busy.resolve_left (not_not.mpr pc))
      have moved : NusBridge.step c s.near .ble = some { s.near with
          app := { s.near.app with fifoUartRxData := rest }, ble := .nusSend buf } := by
        simp only [NusBridge.step, pc, bleWriteThread, fifo, Option.map_some]
      have quiet : s.near.ble.unsent = [] := by
        rw [pc]
        rfl
      refine ⟨.near .ble, _, rfl, rfl, step_ble quiet moved, put_ble whole.toEnds moved, ?_⟩
      · simp only [rank, nearWork, pc, fifo, List.map_cons, List.sum_cons]
        omega
  | nusSend buf =>
      have moved : NusBridge.step c s.near .ble = some { s.near with
          app := s.near.app.note (.nusSent buf (s.near.app.content s.near.mem buf))
          ble := .free buf } := by
        simp only [NusBridge.step, pc, bleWriteThread, Option.map_some]
      have taken : s.step c d (.nusSend true) = some { s with
          near := { s.near with
            app := s.near.app.note (.nusSent buf (s.near.app.content s.near.mem buf))
            ble := .free buf }
          air := s.air ++ [s.near.app.content s.near.mem buf] } := by
        simp only [Bridge.step, pc, moved, Option.map_some, if_true]
      refine ⟨.nusSend true, _, rfl, rfl, taken, put_ble whole.toEnds moved, ?_⟩
      · simp only [rank, nearWork, pc, App.note, App.content, List.map_append,
          List.map_cons, List.map_nil, List.sum_append, List.sum_cons, List.sum_nil,
          Memory.length_load]
        omega
  | free buf =>
      have moved : NusBridge.step c s.near .ble = some { s.near with
          app := s.near.app.kFree buf, ble := .fifoGet } := by
        simp only [NusBridge.step, pc, bleWriteThread, Option.map_some]
      have quiet : s.near.ble.unsent = [] := by
        rw [pc]
        rfl
      refine ⟨.near .ble, _, rfl, rfl, step_ble quiet moved, put_ble whole.toEnds moved, ?_⟩
      · simp only [rank, nearWork, pc, App.kFree, App.note]
        omega

/-- The other end goes on. -/
theorem Whole.far_moves (whole : Whole c d s) (busy : s.far.bt ≠ .idle ∨ s.far.uart ≠ none) :
    Moves c d s := by
  obtain ⟨a, m, other, unraced, moved, less⟩ := Bridge.far_moves whole.far busy
  refine ⟨.far a, { s with far := m }, trivial, unraced, ?_, rfl, ?_⟩
  · simp only [Bridge.step, other, Bool.false_eq_true, if_false, moved, Option.map_some]
  · simp only [rank]
    omega

theorem length_forwarded_le (data : List UInt8) :
    (Tx.forwarded data).length ≤ data.length + 1 := by
  unfold Tx.forwarded
  split
  · simp
  · omega

/-- A packet arrives. -/
theorem arrive_moves {data : List UInt8} {rest : List (List UInt8)} (air : s.air = data :: rest)
    (bt : s.far.bt = .idle) : Moves c d s := by
  have moved : Tx.step d s.far (.receive data) = some { s.far with
      bt := .loop data 0, packets := s.far.packets ++ [data] } := by
    simp only [Tx.step, if_pos bt]
  have taken : s.step c d .arrive = some { s with
      air := rest
      far := { s.far with bt := .loop data 0, packets := s.far.packets ++ [data] } } := by
    simp only [step, air, moved, Option.map_some]
  refine ⟨.arrive, _, trivial, rfl, taken, rfl, ?_⟩
  have bound := length_forwarded_le data
  have before : btWork s.far.app.len s.far.bt = 0 := by
    rw [bt]
    rfl
  simp only [rank, farWork, air, btWork_loop, Tx.rest_zero, before, List.map_cons, List.sum_cons,
    packetWork]
  omega

/-- Something leads on until nothing is on its way. -/
theorem Whole.moves (whole : Whole c d s) (notYet : ¬ s.AtRest) : Moves c d s := by
  by_cases near : s.near.ble = .fifoGet ∧ s.near.app.fifoUartRxData = []
  · by_cases far : s.far.bt = .idle ∧ s.far.uart = none
    · cases air : s.air with
      | nil => exact absurd ⟨near.1, near.2, air, far.1, far.2⟩ notYet
      | cons data rest => exact arrive_moves air far.1
    · exact whole.far_moves (not_and_or.mp far)
  · exact whole.near_moves (not_and_or.mp near)

/-- **Everything arrives.**  In every undisturbed run in which no packet is refused or lost, the
threads, the link and the driver of the other end alone lead on to where all that was received is
transmitted, with line feeds behind some of the carriage returns, but for the buffer that is still
being filled. -/
theorem delivered (run : Reachable (step c d) Init (kept c) s) :
    ∃ whole t, Leads (step c d) Own s t ∧ s.near.received = whole ++ s.near.pending c ∧
      Inserted cr lf whole t.far.wire := by
  have whole := whole_of_reachable run
  -- what was put stays as it is, until nothing is on its way
  let still (t : Bridge) : Prop := Whole c d t ∧ t.put = s.put
  have arrives : ∃ t, Leads (step c d) Own s t ∧ still t ∧ t.AtRest := by
    by_cases rest : s.AtRest
    · exact ⟨s, .here, ⟨whole, rfl⟩, rest⟩
    · refine Leads.exists_of_rank (P := fun t => still t ∧ ¬ t.AtRest) rank ?_ ⟨⟨whole, rfl⟩, rest⟩
      rintro t ⟨⟨inv, same⟩, notYet⟩
      obtain ⟨a, w, own, met, taken, put, less⟩ := inv.moves notYet
      have after : still w := ⟨inv.step met taken, put.trans same⟩
      refine ⟨a, w, own, taken, ?_⟩
      by_cases rest : w.AtRest
      · exact .inl ⟨after, rest⟩
      · exact .inr ⟨⟨after, rest⟩, less⟩
  obtain ⟨t, leads, ⟨inv, same⟩, rest⟩ := arrives
  refine ⟨s.put.flatten, t, leads, whole.received, ?_⟩
  rw [inv.wire_eq rest, same]
  exact Inserted.flatMap inserted_forwarded s.put

/-- Both packets are still at the sending end. -/
theorem delivered_received : ∃ s : Bridge, s.far.wire = [] ∧ s.put = [[1, 2, 3, 4], [5, 13]] ∧
    ∃ whole t, Leads (step tiny tiny) Own s t ∧ s.near.received = whole ++ s.near.pending tiny ∧
      Inserted cr lf whole t.far.wire := by
  have found : (exec (step tiny tiny) (kept tiny) booted received).any
      (fun s => s.far.wire == [] && s.put == [[1, 2, 3, 4], [5, 13]]) = true := by
    decide +kernel
  obtain ⟨s, run, shown⟩ := exists_reachable_of_exec booted_init found
  rw [Bool.and_eq_true, beq_iff_eq, beq_iff_eq] at shown
  exact ⟨s, shown.1, shown.2, delivered run⟩

end Bridge

end NcsExp.NusBridge
