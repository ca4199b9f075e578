/-
# NcsExp.CentralUart.Pacing -- the main loop of the central UART and its writes

The main loop takes a buffer from `fifo_uart_rx_data`, starts a write of it with
`bt_nus_client_send` and waits for `nus_write_sem`, 150 ms at most; `ble_data_sent`
frees the buffer and gives the semaphore.  What `bt_nus_client_send` and `k_sem_take`
return is logged only.

* `Machine` holds the program counter of the loop, the FIFO, the semaphore and the
  write that is outstanding; `Act` is one statement of the loop, one callback, or one
  millisecond.
* `paced` is what the loop does in the runs in which no send fails on its own and no
  wait times out: every buffer is freed once, and no write is started behind another.
* `timeout_breaks` and `failed_send_breaks` say what either leads to.

A wait that times out leaves its write outstanding.  The next send then fails, and its
buffer has no owner; or the completion comes first, finds nobody waiting, and the wait
of the next write is over before it begins.
-/
import NcsExp.Theory.Runs
import NcsExp.Theory.Semaphore
import Mathlib.Data.Fintype.EquivFin
import Mathlib.Data.List.Count

namespace NcsExp.CentralUart

open NcsExp.Theory

set_option autoImplicit false

/-! ## Data -/

/-- `NUS_WRITE_TIMEOUT`, in milliseconds. -/
def nusWriteTimeout : Nat := 150

/-- A `struct uart_data_t *`. -/
abbrev Buf := Nat

/-- A write that `bt_nus_client_send` has started, and the time since. -/
structure Write where
  buf : Buf
  age : Nat
  deriving DecidableEq

def Write.older (w : Write) : Write := { w with age := w.age + 1 }

/-- The next statement of the main loop; `wait` is inside `k_sem_take`. -/
inductive Pc
  | get
  | send (buf : Buf)
  | take
  | wait (left : Nat)
  deriving DecidableEq

inductive Entry
  | taken (buf : Buf)
  | sent (buf : Buf) (outstanding : Option Write)
  | freed (buf : Buf)
  deriving DecidableEq

structure Machine where
  pc : Pc
  fifoUartRxData : List Buf
  /-- The buffers the UART side has put in the FIFO and nobody has freed. -/
  allocated : List Buf
  nusWriteSem : Semaphore 1
  outstanding : Option Write
  log : List Entry
  deriving DecidableEq

def Machine.note (m : Machine) (entry : Entry) : Machine := { m with log := m.log ++ [entry] }

/-! ## The code -/

/-- `k_sem_give`: a thread that waits gets it. -/
def Machine.semGive (m : Machine) : Machine :=
  match m.pc with
  | .wait _ => { m with pc := .get }
  | _ => { m with nusWriteSem := m.nusWriteSem.give }

/-- `k_sem_take` with `NUS_WRITE_TIMEOUT`. -/
def Machine.semTake (m : Machine) : Machine :=
  match m.nusWriteSem.take with
  | some sem => { m with nusWriteSem := sem, pc := .get }
  | none => { m with pc := .wait nusWriteTimeout }

/-- Lines 63-76. -/
def bleDataSent (m : Machine) (data : Buf) : Machine :=
  let m := { m.note (.freed data) with allocated := m.allocated.erase data }
  m.semGive

/-- `bt_nus_client_send` of the main loop, which ignores its result. -/
def clientSend (m : Machine) (buf : Buf) (err : Int) : Machine :=
  let m := { m.note (.sent buf m.outstanding) with pc := .take }
  if err = 0 then { m with outstanding := some ⟨buf, 0⟩ } else m

/-- A millisecond passes. -/
def tick (m : Machine) : Machine :=
  let m := { m with outstanding := m.outstanding.map Write.older }
  match m.pc with
  | .wait left => if left ≤ 1 then { m with pc := .get } else { m with pc := .wait (left - 1) }
  | _ => m

inductive Act
  /-- The UART side puts a buffer in the FIFO. -/
  | put (buf : Buf)
  | get
  | send (err : Int)
  | take
  /-- The outstanding write completes. -/
  | complete
  | tick
  deriving DecidableEq

/-- Lines 631-646, one statement a step, with the callback between any two of them.
`bt_nus_client_send` fails whenever a write is outstanding. -/
def step (m : Machine) : Act → Option Machine
  | .put buf =>
      if buf ∈ m.allocated then none
      else some { m with
        fifoUartRxData := m.fifoUartRxData ++ [buf]
        allocated := buf :: m.allocated }
  | .get =>
      match m.pc, m.fifoUartRxData with
      | .get, buf :: rest =>
          some { m.note (.taken buf) with fifoUartRxData := rest, pc := .send buf }
      | _, _ => none
  | .send err =>
      match m.pc with
      | .send buf => if err = 0 ∧ m.outstanding.isSome then none else some (clientSend m buf err)
      | _ => none
  | .take =>
      match m.pc with
      | .take => some m.semTake
      | _ => none
  | .complete => m.outstanding.map fun w => bleDataSent { m with outstanding := none } w.buf
  | .tick => some (tick m)

structure Init (m : Machine) : Prop where
  pc : m.pc = .get
  fifo : m.fifoUartRxData = []
  allocated : m.allocated = []
  sem : m.nusWriteSem = .empty
  outstanding : m.outstanding = none
  log : m.log = []

/-! ## What is asked of it -/

/-- The buffer that the main loop is about to send. -/
def Pc.held : Pc → List Buf
  | .send buf => [buf]
  | _ => []

/-- The taken buffers that somebody is still to free: the one about to be sent, and
the one of the write whose `ble_data_sent` is to come. -/
def Machine.pending (m : Machine) : List Buf := m.pc.held ++ m.outstanding.toList.map (·.buf)

/-- Every buffer taken from the FIFO is freed once, or still to be freed; nothing else
stays allocated. -/
structure FreedOnce (m : Machine) : Prop where
  freed : ∀ buf, m.log.count (.taken buf) = m.log.count (.freed buf) + m.pending.count buf
  allocated : ∀ buf, m.allocated.count buf = (m.fifoUartRxData ++ m.pending).count buf

/-- No call of `bt_nus_client_send` found a write outstanding within its 150 ms. -/
def Paced (m : Machine) : Prop :=
  ∀ buf w, .sent buf (some w) ∈ m.log → nusWriteTimeout ≤ w.age

/-- No send fails on its own, and no wait times out. -/
def onTime (m : Machine) : Act → Bool
  | .send err => err == 0 || m.outstanding.isSome
  | .tick =>
      match m.pc with
      | .wait left => decide (1 < left)
      | _ => true
  | _ => true

/-! ## Every run -/

/-- The buffers that are still to be freed, by where they are. -/
theorem count_pending (m : Machine) (b : Buf) :
    m.pending.count b = m.pc.held.count b + (m.outstanding.toList.map (·.buf)).count b :=
  List.count_append

/-- Who is to free a buffer does not matter, nor does the semaphore. -/
theorem FreedOnce.of_same {m t : Machine} (once : FreedOnce m) (log : t.log = m.log)
    (fifo : t.fifoUartRxData = m.fifoUartRxData) (allocated : t.allocated = m.allocated)
    (pending : t.pending = m.pending) : FreedOnce t := by
  refine ⟨fun b => ?_, fun b => ?_⟩
  · rw [log, pending]
    exact once.freed b
  · rw [allocated, fifo, pending]
    exact once.allocated b

/-! ### Who is to free what -/

theorem FreedOnce.put {m t : Machine} {buf : Buf} (once : FreedOnce m)
    (taken : step m (.put buf) = some t) : FreedOnce t := by
  simp only [step, Option.ite_none_left_eq_some] at taken
  obtain ⟨_, same⟩ := taken
  cases same
  refine ⟨once.freed, fun b => ?_⟩
  have before := once.allocated b
  show (buf :: m.allocated).count b = (m.fifoUartRxData ++ [buf] ++ m.pending).count b
  simp only [List.count_append, List.count_cons, List.count_nil] at before ⊢
  omega

theorem get_cases {m t : Machine} (taken : step m .get = some t) :
    ∃ buf rest, m.pc = .get ∧ m.fifoUartRxData = buf :: rest ∧
      t = { m.note (.taken buf) with fifoUartRxData := rest, pc := .send buf } := by
  simp only [step] at taken
  split at taken
  · rename_i buf rest pc fifo
    exact ⟨buf, rest, pc, fifo, (Option.some.inj taken).symm⟩
  · cases taken

theorem FreedOnce.get {m t : Machine} (once : FreedOnce m) (taken : step m .get = some t) :
    FreedOnce t := by
  obtain ⟨buf, rest, pc, fifo, rfl⟩ := get_cases taken
  refine ⟨fun b => ?_, fun b => ?_⟩
  · have before := once.freed b
    rw [count_pending, pc] at before
    rw [count_pending]
    show (m.log ++ [_]).count _ = (m.log ++ [_]).count _ +
      ([buf].count b + (m.outstanding.toList.map (·.buf)).count b)
    simp only [Pc.held, List.count_append, List.count_singleton, List.count_nil,
      Entry.taken.injEq, beq_iff_eq, reduceCtorEq, if_false] at before ⊢
    omega
  · have before := once.allocated b
    rw [List.count_append, count_pending, pc, fifo] at before
    rw [List.count_append, count_pending]
    show m.allocated.count b = rest.count b +
      ([buf].count b + (m.outstanding.toList.map (·.buf)).count b)
    simp only [Pc.held, List.count_cons, List.count_nil] at before ⊢
    omega

/-- The buffer of a write that starts passes from the loop to `ble_data_sent`. -/
theorem FreedOnce.start {m : Machine} {buf : Buf} (once : FreedOnce m) (pc : m.pc = .send buf)
    (idle : m.outstanding = none) : FreedOnce (clientSend m buf 0) := by
  refine ⟨fun b => ?_, fun b => ?_⟩
  · have before := once.freed b
    rw [count_pending, pc, idle] at before
    rw [count_pending]
    show (m.log ++ [_]).count _ = (m.log ++ [_]).count _ + ([].count b + [buf].count b)
    simp only [Pc.held, Option.toList_none, List.map_nil, List.count_append,
      List.count_singleton, List.count_nil, beq_iff_eq, reduceCtorEq, if_false] at before ⊢
    omega
  · have before := once.allocated b
    rw [List.count_append, count_pending, pc, idle] at before
    rw [List.count_append, count_pending]
    show m.allocated.count b = m.fifoUartRxData.count b + ([].count b + [buf].count b)
    simp only [Pc.held, Option.toList_none, List.map_nil, List.count_singleton,
      List.count_nil] at before ⊢
    omega

theorem step_send_failed {m : Machine} {buf : Buf} {err : Int} (pc : m.pc = .send buf)
    (failed : err ≠ 0) : step m (.send err) = some (clientSend m buf err) := by
  simp [step, pc, failed]

/-- Nobody is to free the buffer of a send that failed. -/
theorem failed_send_breaks {m : Machine} {buf : Buf} {err : Int} (once : FreedOnce m)
    (pc : m.pc = .send buf) (failed : err ≠ 0) : ¬ FreedOnce (clientSend m buf err) := by
  intro after
  have before := once.freed buf
  have lost := after.freed buf
  rw [count_pending, pc] at before
  rw [count_pending] at lost
  simp only [clientSend, failed, if_false, Machine.note, Pc.held, List.count_append,
    List.count_singleton, List.count_nil, beq_iff_eq, reduceCtorEq] at before lost
  simp only [if_true] at before
  omega

/-- `k_sem_give` and `k_sem_take` concern nothing that is still to be freed. -/
theorem FreedOnce.semGive {m : Machine} (once : FreedOnce m) : FreedOnce m.semGive := by
  unfold Machine.semGive
  split
  · rename_i left pc
    refine once.of_same rfl rfl rfl ?_
    simp [Machine.pending, pc, Pc.held]
  · exact once.of_same rfl rfl rfl rfl

theorem semGive_log (m : Machine) : m.semGive.log = m.log := by
  unfold Machine.semGive
  split <;> rfl

theorem FreedOnce.semTake {m : Machine} (once : FreedOnce m) (pc : m.pc = .take) :
    FreedOnce m.semTake := by
  unfold Machine.semTake
  split
  · refine once.of_same rfl rfl rfl ?_
    simp [Machine.pending, pc, Pc.held]
  · refine once.of_same rfl rfl rfl ?_
    simp [Machine.pending, pc, Pc.held]

/-- The buffer of the write that completes is freed. -/
theorem FreedOnce.complete {m : Machine} {w : Write} (once : FreedOnce m)
    (busy : m.outstanding = some w) :
    FreedOnce (bleDataSent { m with outstanding := none } w.buf) := by
  apply FreedOnce.semGive
  refine ⟨fun b => ?_, fun b => ?_⟩
  · have before := once.freed b
    rw [count_pending, busy] at before
    rw [count_pending]
    show (m.log ++ [_]).count _ = (m.log ++ [_]).count _ + (m.pc.held.count b + [].count b)
    simp only [Option.toList_some, List.map_singleton, List.count_append, List.count_singleton,
      List.count_nil, Entry.freed.injEq, beq_iff_eq, reduceCtorEq, if_false] at before ⊢
    omega
  · have before := once.allocated b
    rw [List.count_append, count_pending, busy] at before
    rw [List.count_append, count_pending]
    show (m.allocated.erase w.buf).count b =
      m.fifoUartRxData.count b + (m.pc.held.count b + [].count b)
    simp only [Option.toList_some, List.map_singleton, List.count_singleton, List.count_nil,
      List.count_erase] at before ⊢
    omega

theorem FreedOnce.tick {m : Machine} (once : FreedOnce m) : FreedOnce (tick m) := by
  have older : (m.outstanding.map Write.older).toList.map (·.buf) =
      m.outstanding.toList.map (·.buf) := by
    cases m.outstanding <;> rfl
  unfold CentralUart.tick
  dsimp only
  split
  · rename_i left pc
    split
    · refine once.of_same rfl rfl rfl ?_
      simp [Machine.pending, pc, Pc.held, older]
    · refine once.of_same rfl rfl rfl ?_
      simp [Machine.pending, pc, Pc.held, older]
  · refine once.of_same rfl rfl rfl ?_
    simp [Machine.pending, older]

/-! ### Who has the semaphore -/

/-- The loop sends with no write outstanding and the semaphore taken, and waits for a
write that is outstanding. -/
def Control : Pc → Option Write → Nat → Prop
  | .get, outstanding, sem => outstanding = none ∧ sem = 0
  | .send _, outstanding, sem => outstanding = none ∧ sem = 0
  | .take, outstanding, sem => sem = if outstanding.isSome then 0 else 1
  | .wait _, outstanding, sem => outstanding.isSome ∧ sem = 0

structure PacingInv (m : Machine) : Prop where
  control : Control m.pc m.outstanding m.nusWriteSem.count
  once : FreedOnce m
  alone : ∀ buf w, Entry.sent buf (some w) ∉ m.log

theorem init_pacingInv {m : Machine} (init : Init m) : PacingInv m := by
  obtain ⟨pc, fifo, allocated, sem, outstanding, log⟩ := init
  refine ⟨?_, ⟨?_, ?_⟩, ?_⟩
  · rw [pc, outstanding, sem]
    exact ⟨rfl, rfl⟩
  · simp [Machine.pending, Pc.held, pc, outstanding, log]
  · simp [Machine.pending, Pc.held, pc, outstanding, fifo, allocated]
  · simp [log]

theorem put_inv {m t : Machine} {buf : Buf} (inv : PacingInv m)
    (taken : step m (.put buf) = some t) : PacingInv t := by
  have once := inv.once.put taken
  simp only [step, Option.ite_none_left_eq_some] at taken
  obtain ⟨_, same⟩ := taken
  cases same
  exact ⟨inv.control, once, inv.alone⟩

theorem get_inv {m t : Machine} (inv : PacingInv m) (taken : step m .get = some t) :
    PacingInv t := by
  have once := inv.once.get taken
  obtain ⟨buf, rest, pc, _, rfl⟩ := get_cases taken
  refine ⟨?_, once, ?_⟩
  · have control := inv.control
    rw [pc] at control
    exact control
  · intro b w member
    rcases List.mem_append.mp member with before | now
    · exact inv.alone b w before
    · simp at now

/-- A send that meets the condition finds no write outstanding, so it starts one. -/
theorem send_inv {m t : Machine} {err : Int} (inv : PacingInv m)
    (met : onTime m (.send err) = true) (taken : step m (.send err) = some t) : PacingInv t := by
  simp only [step] at taken
  split at taken
  · rename_i buf pc
    have control := inv.control
    rw [pc] at control
    obtain ⟨idle, sem⟩ := control
    have ok : err = 0 := by simpa [onTime, idle] using met
    simp only [ok, idle, Option.isSome_none, Bool.false_eq_true, and_false, if_false,
      Option.some.injEq] at taken
    cases taken
    refine ⟨sem, inv.once.start pc idle, ?_⟩
    intro b w member
    rcases List.mem_append.mp member with before | now
    · exact inv.alone b w before
    · simp [idle] at now
  · cases taken

theorem take_inv {m t : Machine} (inv : PacingInv m) (taken : step m .take = some t) :
    PacingInv t := by
  simp only [step] at taken
  split at taken
  · rename_i pc
    cases taken
    have once := inv.once.semTake pc
    have control := inv.control
    rw [pc] at control
    unfold Machine.semTake at once ⊢
    cases given : m.nusWriteSem.take with
    | none =>
        rw [given] at once
        have empty : m.nusWriteSem.count = 0 := by
          by_contra some_
          simp [Semaphore.take, some_] at given
        have waits : m.outstanding.isSome := by
          by_contra idle
          simp [Control, idle, empty] at control
        exact ⟨⟨waits, empty⟩, once, inv.alone⟩
    | some sem =>
        rw [given] at once
        have full := Semaphore.take_eq_some.mp given
        have bound := m.nusWriteSem.bounded
        have idle : m.outstanding = none := by
          by_contra busy
          have isSome := Option.isSome_iff_ne_none.mpr busy
          simp only [Control, isSome, if_true] at control
          omega
        have empty : sem.count = 0 := by omega
        exact ⟨⟨idle, empty⟩, once, inv.alone⟩
  · cases taken

/-- A completion finds the loop on its way to the semaphore, or waiting for it. -/
theorem complete_inv {m t : Machine} (inv : PacingInv m) (taken : step m .complete = some t) :
    PacingInv t := by
  simp only [step, Option.map_eq_some_iff] at taken
  obtain ⟨w, busy, same⟩ := taken
  cases same
  have control := inv.control
  rw [busy] at control
  refine ⟨?_, inv.once.complete busy, ?_⟩
  · unfold bleDataSent Machine.semGive
    dsimp only [Machine.note]
    cases pc : m.pc with
    | get =>
        rw [pc] at control
        cases control.1
    | send buf =>
        rw [pc] at control
        cases control.1
    | take =>
        rw [pc] at control
        have empty : m.nusWriteSem.count = 0 := control
        have given := m.nusWriteSem.count_give_of_room (by omega)
        simp [Control, given, empty]
    | wait left =>
        rw [pc] at control
        exact ⟨rfl, control.2⟩
  · intro b v member
    rw [bleDataSent, semGive_log] at member
    rcases List.mem_append.mp member with before | now
    · exact inv.alone b v before
    · simp at now

/-- A millisecond that does not end the wait. -/
theorem tick_inv {m : Machine} (inv : PacingInv m) (met : onTime m .tick = true) :
    PacingInv (tick m) := by
  have once := inv.once.tick
  have control := inv.control
  unfold tick at once ⊢
  dsimp only at once ⊢
  split at once
  · rename_i left pc
    have more : ¬ left ≤ 1 := by
      have goesOn : 1 < left := by simpa [onTime, pc] using met
      omega
    rw [pc] at control
    rw [if_neg more] at once ⊢
    exact ⟨⟨by simpa using control.1, control.2⟩, once, inv.alone⟩
  · refine ⟨?_, once, inv.alone⟩
    cases pc : m.pc with
    | get =>
        rw [pc] at control
        exact ⟨by simp [control.1], control.2⟩
    | send buf =>
        rw [pc] at control
        exact ⟨by simp [control.1], control.2⟩
    | take =>
        rw [pc] at control
        simpa [Control] using control
    | wait left =>
        rw [pc] at control
        exact ⟨by simpa using control.1, control.2⟩

theorem step_pacingInv {m t : Machine} {a : Act} (inv : PacingInv m) (met : onTime m a = true)
    (taken : step m a = some t) : PacingInv t := by
  cases a with
  | put buf => exact put_inv inv taken
  | get => exact get_inv inv taken
  | send err => exact send_inv inv met taken
  | take => exact take_inv inv taken
  | complete => exact complete_inv inv taken
  | tick =>
      cases taken
      exact tick_inv inv met

theorem reachable_pacingInv {m : Machine} (run : Reachable step Init onTime m) : PacingInv m := by
  apply run.invariant
  · intro s init
    exact init_pacingInv init
  · intro s a t inv met taken
    exact step_pacingInv inv met taken

/-- **Pacing and release.**  In every run in which no send fails on its own and no wait
times out, every buffer taken from the FIFO is freed once, and no send finds a write
outstanding. -/
theorem paced {m : Machine} (run : Reachable step Init onTime m) : FreedOnce m ∧ Paced m := by
  have inv := reachable_pacingInv run
  refine ⟨inv.once, ?_⟩
  intro buf w found
  exact absurd found (inv.alone buf w)

/-- The machine before the first buffer. -/
def booted : Machine where
  pc := .get
  fifoUartRxData := []
  allocated := []
  nusWriteSem := .empty
  outstanding := none
  log := []

theorem booted_init : Init booted := ⟨rfl, rfl, rfl, rfl, rfl, rfl⟩

/-- Two buffers; the second write completes before the loop waits for it. -/
def twoWritesRun : List Act :=
  [.put 1, .put 2, .get, .send 0, .take, .tick, .complete, .get, .send 0, .complete, .take]

theorem paced_twoWritesRun : ∃ m : Machine, (FreedOnce m ∧ Paced m) ∧ m.allocated = [] ∧
    m.log = [.taken 1, .sent 1 none, .freed 1, .taken 2, .sent 2 none, .freed 2] := by
  have found : (exec step onTime booted twoWritesRun).any (fun m => m.allocated == [] &&
      m.log == [.taken 1, .sent 1 none, .freed 1, .taken 2, .sent 2 none, .freed 2]) = true := by
    decide +kernel
  obtain ⟨m, run, shown⟩ := exists_reachable_of_exec booted_init found
  rw [Bool.and_eq_true, beq_iff_eq, beq_iff_eq] at shown
  exact ⟨m, paced run, shown⟩

/-! ### The condition is needed -/

/-- **The condition is needed.**  A send that fails with no write outstanding loses its
buffer at once. -/
theorem send_breaks {m t : Machine} {err : Int} (run : Reachable step Init onTime m)
    (fails : onTime m (.send err) = false) (taken : step m (.send err) = some t) :
    ¬ FreedOnce t := by
  have once := (reachable_pacingInv run).once
  have failed : err ≠ 0 := by
    rintro rfl
    cases fails
  cases pc : m.pc with
  | send buf =>
      rw [step_send_failed pc failed] at taken
      cases taken
      exact failed_send_breaks once pc failed
  | get => simp [step, pc] at taken
  | take => simp [step, pc] at taken
  | wait left => simp [step, pc] at taken

/-- **The condition is needed.**  After a wait that times out, the next buffer is lost if
it is sent before the completion. -/
theorem timeout_breaks {m : Machine} (run : Reachable step Init onTime m)
    (expires : onTime m .tick = false) :
    ∃ acts u, exec step unguarded (tick m) acts = some u ∧ ¬ FreedOnce u := by
  have inv := reachable_pacingInv run
  have once := inv.once.tick
  have control := inv.control
  unfold onTime at expires
  cases pc : m.pc with
  | wait left =>
      rw [pc] at control
      rw [pc, decide_eq_false_iff_not, Nat.not_lt] at expires
      obtain ⟨w, busy⟩ := Option.isSome_iff_exists.mp control.1
      have idle : (tick m).pc = .get := by simp [tick, pc, expires]
      have outstanding : (tick m).outstanding = some w.older := by simp [tick, pc, expires, busy]
      obtain ⟨fresh, new⟩ := Infinite.exists_notMem_finset (tick m).allocated.toFinset
      rw [List.mem_toFinset] at new
      have put : step (tick m) (.put fresh) = some { tick m with
          fifoUartRxData := (tick m).fifoUartRxData ++ [fresh]
          allocated := fresh :: (tick m).allocated } := if_neg new
      generalize tick m = t at *
      obtain ⟨buf, rest, fifo⟩ := List.exists_cons_of_ne_nil
        (List.append_ne_nil_of_right_ne_nil t.fifoUartRxData (List.cons_ne_nil fresh []))
      have get : step { t with
          fifoUartRxData := t.fifoUartRxData ++ [fresh]
          allocated := fresh :: t.allocated } .get = some { t.note (.taken buf) with
            fifoUartRxData := rest, allocated := fresh :: t.allocated, pc := .send buf } := by
        simp [step, idle, fifo, Machine.note]
      have failed : (-1 : Int) ≠ 0 := by decide
      have sendFails := step_send_failed (m := { t.note (.taken buf) with
        fifoUartRxData := rest, allocated := fresh :: t.allocated, pc := .send buf }) rfl failed
      refine ⟨[.put fresh, .get, .send (-1)], _, ?_, failed_send_breaks ((once.put put).get get)
        rfl failed⟩
      simp only [exec, unguarded, if_true, put, get, sendFails, Option.bind_some]
  | get => simp [pc] at expires
  | send buf => simp [pc] at expires
  | take => simp [pc] at expires

/-- The first write completes after its wait; the third send finds the second write
outstanding, which has just been started. -/
def lateCompletionRun : List Act :=
  [.put 1, .put 2, .put 3, .get, .send 0, .take] ++ List.replicate 150 .tick ++
    [.complete, .get, .send 0, .take, .get, .send (-1)]

/-- **Lost buffers and early sends.**  The buffer of a failing send is never freed; a
completion after the wait of its write makes the loop send while a write is outstanding
that is not 150 ms old. -/
theorem lost_and_early : (¬ ∀ m, Reachable step Init unguarded m → FreedOnce m) ∧
    ¬ ∀ m, Reachable step Init unguarded m → Paced m := by
  constructor
  · intro always
    have found : (exec step unguarded booted [.put 1, .get, .send (-1)]).any
        (fun m => m.log == [.taken 1, .sent 1 none] && m.pending == []) = true := by decide +kernel
    obtain ⟨m, run, shown⟩ := exists_reachable_of_exec booted_init found
    rw [Bool.and_eq_true, beq_iff_eq, beq_iff_eq] at shown
    have freed := (always m run).freed 1
    rw [shown.1, shown.2] at freed
    revert freed
    decide +kernel
  · intro always
    have found : (exec step unguarded booted lateCompletionRun).any
        (fun m => m.log.contains (.sent 3 (some ⟨2, 0⟩))) = true := by decide +kernel
    obtain ⟨m, run, shown⟩ := exists_reachable_of_exec booted_init found
    have old := always m run 3 ⟨2, 0⟩ (by simpa using shown)
    revert old
    decide +kernel

end NcsExp.CentralUart
