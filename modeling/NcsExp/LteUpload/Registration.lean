/-
# NcsExp.LteUpload.Registration -- which registration ends a cycle's wait

`lp_udp_cfun_1_4/src/main.c`: `lte_handler` gives the binary semaphore
`lte_connected` at every registration, and `server_transmission_work_fn` takes it
once per cycle after `modem_connect`.  Nothing takes a give back that a cycle left
over, so a second registration during one cycle ends the wait of the next at once,
while its own `modem_connect` is still under way.

The events of the modem and the steps of the work are interleaved freely.
`registered_this_cycle` holds in the runs in which every cycle begins with the
semaphore at 0; a cycle that begins with a give left over can reach
`server_connect` unregistered (`leftover_breaks`).
-/
import NcsExp.Theory.Runs
import NcsExp.Theory.History
import NcsExp.Theory.Semaphore

namespace NcsExp.LteUpload.Registration

open NcsExp.Theory

set_option autoImplicit false

/-! ## The work and the handler -/

/-- `enum lte_lc_nw_reg_status`, the registered ones and the others. -/
inductive RegStatus
  | registeredHome
  | registeredRoaming
  | other (code : Nat)
  deriving DecidableEq

/-- Where the work is. -/
inductive Pc
  | scheduled
  | waiting
  | connecting
  | stopped
  deriving DecidableEq

inductive Obs
  | modemConnect
  | registered
  | serverConnect
  deriving DecidableEq

/-- `handler` says whether `lte_handler` is registered with the modem, `clearReset` is
`gs_clear_modem_reset_flag`. -/
structure State where
  pc : Pc
  lteConnected : Semaphore 1
  handler : Bool
  clearReset : Bool
  log : List Obs
  deriving DecidableEq

/-- After `main`. -/
def start : State := ⟨.scheduled, .empty, false, false, []⟩

def State.goTo (s : State) (pc : Pc) : State := { s with pc := pc }

def State.note (s : State) (o : Obs) : State := { s with log := s.log ++ [o] }

/-- `lte_handler` at LTE_LC_EVT_NW_REG_STATUS, lines 241-252. -/
def nwRegStatus (s : State) : RegStatus → State
  | .other _ => s
  | _ => { s.note .registered with lteConnected := s.lteConnected.give }

inductive Act
  | nwRegStatus (status : RegStatus)
  | modemResetLoop
  | modemConnect
  | taken
  | timeout
  | returned (scheduled : Bool)
  deriving DecidableEq

/-- One step.  `modemConnect` is the work up to its wait, `taken` the wait that ends
and the way to `server_connect`, `returned` the rest of the execution; a wait that
times out while a reset is asked for reboots the device. -/
def step (s : State) : Act → Option State
  | .nwRegStatus status => if s.handler then some (nwRegStatus s status) else none
  | .modemResetLoop => if s.handler then some { s with clearReset := true } else none
  | .modemConnect =>
      if s.pc = .scheduled then some { (s.note .modemConnect).goTo .waiting with handler := true }
      else none
  | .taken =>
      if s.pc = .waiting then
        s.lteConnected.take.map fun left =>
          { (s.note .serverConnect).goTo .connecting with lteConnected := left }
      else none
  | .timeout =>
      if s.pc = .waiting ∧ s.lteConnected.count = 0 then
        some (if s.clearReset then { start with log := s.log } else s)
      else none
  | .returned scheduled =>
      if s.pc = .connecting then some (s.goTo (if scheduled then .scheduled else .stopped))
      else none

/-! ## The law -/

/-- Whether the modem has registered since the last `modem_connect`. -/
def Obs.sinceConnect (registered : Bool) : Obs → Bool
  | .modemConnect => false
  | .registered => true
  | .serverConnect => registered

def registeredSince (log : List Obs) : Bool := present Obs.sinceConnect false log

/-- `server_connect` is reached with a registration of its own cycle. -/
def OwnRegistration (past : List Obs) : Obs → Prop
  | .serverConnect => registeredSince past = true
  | _ => True

/-- Each cycle begins with the semaphore at 0. -/
def nothingLeft (s : State) : Act → Bool
  | .modemConnect => decide (s.lteConnected.count = 0)
  | _ => true

/-! ## Every run in which nothing is left over -/

structure Inv (s : State) : Prop where
  given : s.pc = .waiting → 0 < s.lteConnected.count → registeredSince s.log = true
  moments : Always OwnRegistration s.log

theorem inv_start : Inv start := ⟨by simp [start], always_nil⟩

/-- A registration counts for the cycle it comes in. -/
theorem inv_nwRegStatus {s : State} (inv : Inv s) (status : RegStatus) :
    Inv (nwRegStatus s status) := by
  cases status with
  | other code => exact inv
  | _ => exact ⟨fun _ _ => present_snoc, always_snoc.mpr ⟨inv.moments, trivial⟩⟩

theorem step_inv {s t : State} {a : Act} (inv : Inv s) (met : nothingLeft s a = true)
    (taken : step s a = some t) : Inv t := by
  cases a with
  | nwRegStatus status =>
      simp only [step, Option.ite_none_right_eq_some, Option.some.injEq] at taken
      obtain ⟨-, rfl⟩ := taken
      exact inv_nwRegStatus inv status
  | modemResetLoop =>
      simp only [step, Option.ite_none_right_eq_some, Option.some.injEq] at taken
      obtain ⟨-, rfl⟩ := taken
      exact ⟨inv.given, inv.moments⟩
  | modemConnect =>
      simp only [step, Option.ite_none_right_eq_some, Option.some.injEq] at taken
      obtain ⟨-, rfl⟩ := taken
      have empty : s.lteConnected.count = 0 := of_decide_eq_true met
      refine ⟨fun _ given => ?_, always_snoc.mpr ⟨inv.moments, trivial⟩⟩
      have given : 0 < s.lteConnected.count := given
      omega
  | taken =>
      simp only [step, Option.ite_none_right_eq_some, Option.map_eq_some_iff] at taken
      obtain ⟨waiting, left, given, rfl⟩ := taken
      have count := Semaphore.take_eq_some.mp given
      have registered := inv.given waiting (by omega)
      exact ⟨by simp [State.goTo], always_snoc.mpr ⟨inv.moments, registered⟩⟩
  | timeout =>
      simp only [step, Option.ite_none_right_eq_some, Option.some.injEq] at taken
      obtain ⟨-, rfl⟩ := taken
      split
      · exact ⟨by simp [start], inv.moments⟩
      · exact inv
  | returned scheduled =>
      simp only [step, Option.ite_none_right_eq_some, Option.some.injEq] at taken
      obtain ⟨-, rfl⟩ := taken
      cases scheduled <;> exact ⟨by simp [State.goTo], inv.moments⟩

theorem reachable_inv {s : State} (run : Reachable step (· = start) nothingLeft s) : Inv s := by
  apply run.invariant
  · rintro s rfl
    exact inv_start
  · intro s a t inv met taken
    exact step_inv inv met taken

/-- **`server_connect` follows a registration of its own cycle**, in every run whose
cycles begin with the semaphore at 0. -/
theorem registered_this_cycle {s : State} (run : Reachable step (· = start) nothingLeft s) :
    Always OwnRegistration s.log :=
  (reachable_inv run).moments

/-- **The condition is exact**: a cycle that begins with a give left over can reach
`server_connect` before any registration. -/
theorem leftover_breaks {s t : State} (refused : nothingLeft s .modemConnect = false)
    (taken : step s .modemConnect = some t) :
    ∃ t', step t .taken = some t' ∧ ¬ Always OwnRegistration t'.log := by
  simp only [step, Option.ite_none_right_eq_some, Option.some.injEq] at taken
  obtain ⟨-, rfl⟩ := taken
  have left : s.lteConnected.count ≠ 0 := of_decide_eq_false refused
  obtain ⟨after, given⟩ : ∃ after, s.lteConnected.take = some after := ⟨_, if_neg left⟩
  refine ⟨⟨.connecting, after, true, s.clearReset,
      s.log ++ [Obs.modemConnect] ++ [Obs.serverConnect]⟩,
    by simp [step, State.goTo, State.note, given], fun law => ?_⟩
  have registered : registeredSince (s.log ++ [Obs.modemConnect]) = true := (always_snoc.mp law).2
  simp [registeredSince, Obs.sinceConnect] at registered

/-! ## Two cycles, and two registrations in one -/

/-- Each of two cycles registers once, the first after a wait that timed out. -/
def twoCycles : List Act :=
  [.modemConnect, .timeout, .nwRegStatus .registeredHome, .taken, .returned true,
    .modemConnect, .nwRegStatus (.other 2), .nwRegStatus .registeredRoaming, .taken]

theorem registered_this_cycle_twoCycles :
    ∃ s, exec step nothingLeft start twoCycles = some s ∧ Always OwnRegistration s.log := by
  obtain ⟨s, taken⟩ : ∃ s, exec step nothingLeft start twoCycles = some s := ⟨_, rfl⟩
  exact ⟨s, taken, registered_this_cycle (reachable_of_exec rfl taken)⟩

/-- The modem registers again while the first cycle sends. -/
def registersTwice : List Act :=
  [.modemConnect, .nwRegStatus .registeredHome, .taken, .nwRegStatus .registeredHome,
    .returned true, .modemConnect, .taken]

/-- **A second registration in one cycle ends the wait of the next.** -/
theorem leftover_ends_wait :
    ¬ ∀ s, Reachable step (· = start) unguarded s → Always OwnRegistration s.log := by
  intro registeredFirst
  obtain ⟨s, taken, log⟩ : ∃ s, exec step unguarded start registersTwice = some s ∧
      s.log = [Obs.modemConnect, .registered, .serverConnect, .registered, .modemConnect] ++
        [.serverConnect] :=
    ⟨_, rfl, rfl⟩
  have law := registeredFirst s (reachable_of_exec rfl taken)
  rw [log, always_snoc] at law
  have registered : registeredSince [.modemConnect, .registered, .serverConnect, .registered,
    .modemConnect] = true := law.2
  exact absurd registered (by decide)

end NcsExp.LteUpload.Registration
