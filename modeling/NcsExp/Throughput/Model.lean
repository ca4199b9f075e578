/-
# NcsExp.Throughput.Model -- configuring the connection of the throughput test

`connection_configuration_set` requests up to three procedures of the controller, a
PHY update, a data length update and a connection parameter update, and waits after
each request for `throughput_sem`, which the callbacks of all three give, as does
`throughput_read`.

* `thread` is one statement of `connection_configuration_set`, or of what `test_run`
  does after it; `answer` is what the Bluetooth host or the kernel returns to a
  statement that calls it, 0 for success.
* `callback` is one event of the controller or of the peer; it may come at any time.

A give to a thread that is blocked in `k_sem_take` is a give followed at once by the
thread's take.  `log` records the calls, the requests, the events and the returns.
-/
import NcsExp.Theory.Runs
import NcsExp.Theory.Semaphore
import Mathlib.Data.List.Basic

namespace NcsExp.Throughput

open NcsExp.Theory

set_option autoImplicit false

/-! ## Data -/

inductive Role
  | master
  | slave
  deriving DecidableEq

/-- What the Bluetooth host keeps of the connection. -/
structure Connection where
  role : Role
  interval : Nat
  txMaxLen : Nat
  deriving DecidableEq

/-- `struct bt_conn_info`; its `le.data_len` points to the connection's own value. -/
structure Info where
  role : Role
  interval : Nat
  deriving DecidableEq

/-- What `test_run` is given for the connection. -/
structure Params where
  intervalMax : Nat
  txMaxLen : Nat
  deriving DecidableEq

/-- The procedures the call requests and waits for. -/
inductive Procedure
  | phy
  | dataLength
  | param
  deriving DecidableEq

/-- The next statement of the thread. -/
inductive Pc
  | idle
  | getInfo
  | roleTest
  | phyUpdate
  | phyTake
  | dataLenTest
  | setDataLengthReq
  | dataLenUpdate
  | dataLenTake
  | intervalTest
  | paramUpdate
  | paramTake
  | returned (err : Int)
  | throughputWrite
  | throughputRead
  | readTake
  deriving DecidableEq

inductive Entry
  | called
  | requested (p : Procedure)
  | updated (p : Procedure)
  | dataRead
  | returned (err : Int)
  deriving DecidableEq

structure Machine where
  throughputSem : Semaphore 1
  dataLengthReq : Bool
  conn : Connection
  pc : Pc
  info : Info
  params : Params
  log : List Entry
  deriving DecidableEq

def Machine.note (m : Machine) (entry : Entry) : Machine := { m with log := m.log ++ [entry] }

/-! ## The thread -/

/-- Leave `connection_configuration_set`. -/
def Machine.ret (m : Machine) (err : Int) : Machine :=
  { m.note (.returned err) with pc := .returned err }

/-- A request, then the wait for it at `pc`. -/
def Machine.request (m : Machine) (p : Procedure) (pc : Pc) (answer : Int) : Machine :=
  if answer ≠ 0 then m.ret answer
  else { m.note (.requested p) with pc := pc }

/-- `k_sem_take(&throughput_sem, THROUGHPUT_CONFIG_TIMEOUT)`: it succeeds when there is
something to take, and times out only while there is nothing. -/
def Machine.semTake (m : Machine) (answer : Int) (taken : Machine → Machine) : Option Machine :=
  if answer = 0 then
    m.throughputSem.take.map fun sem => taken { m with throughputSem := sem }
  else if m.throughputSem.count = 0 then some (m.ret answer)
  else none

/-- Lines 457-526, then lines 556-609 of `test_run`. -/
def thread (m : Machine) (answer : Int) : Option Machine :=
  match m.pc with
  | .idle => none
  | .getInfo =>
      if answer ≠ 0 then some (m.ret answer)
      else some { m with info := ⟨m.conn.role, m.conn.interval⟩, pc := .roleTest }
  -- The slave's user is told, and the call goes on.
  | .roleTest => some { m with pc := .phyUpdate }
  | .phyUpdate => some (m.request .phy .phyTake answer)
  | .phyTake => m.semTake answer fun m => { m with pc := .dataLenTest }
  | .dataLenTest => some { m with
      pc := if m.conn.txMaxLen ≠ m.params.txMaxLen then .setDataLengthReq else .intervalTest }
  | .setDataLengthReq => some { m with dataLengthReq := true, pc := .dataLenUpdate }
  | .dataLenUpdate => some (m.request .dataLength .dataLenTake answer)
  | .dataLenTake => m.semTake answer fun m => { m with pc := .intervalTest }
  | .intervalTest =>
      if m.info.interval ≠ m.params.intervalMax then some { m with pc := .paramUpdate }
      else some (m.ret 0)
  | .paramUpdate => some (m.request .param .paramTake answer)
  | .paramTake => m.semTake answer fun m => m.ret 0
  -- test_run
  | .returned err => some { m with pc := if err ≠ 0 then .idle else .throughputWrite }
  | .throughputWrite => some { m with pc := if answer ≠ 0 then .idle else .throughputRead }
  | .throughputRead => some { m with pc := if answer ≠ 0 then .idle else .readTake }
  | .readTake =>
      if answer = 0 then
        m.throughputSem.take.map fun sem => { m with throughputSem := sem, pc := .idle }
      else if m.throughputSem.count = 0 then some { m with pc := .idle }
      else none

/-- `test_run` calls `connection_configuration_set`. -/
def call (m : Machine) (params : Params) : Option Machine :=
  if m.pc = .idle then
    some { m.note .called with params := params, pc := .getInfo }
  else none

/-! ## The callbacks -/

inductive Event
  | phyUpdated
  | paramUpdated (interval : Nat)
  | dataLengthUpdated (txMaxLen : Nat)
  | dataRead
  deriving DecidableEq

/-- `k_sem_give(&throughput_sem)`. -/
def Machine.give (m : Machine) : Machine := { m with throughputSem := m.throughputSem.give }

def leParamUpdated (m : Machine) (interval : Nat) : Machine :=
  Machine.give { m.note (.updated .param) with conn := { m.conn with interval := interval } }

def lePhyUpdated (m : Machine) : Machine := (m.note (.updated .phy)).give

/-- An update that was not requested is left alone. -/
def leDataLengthUpdated (m : Machine) (txMaxLen : Nat) : Machine :=
  let m := { m.note (.updated .dataLength) with conn := { m.conn with txMaxLen := txMaxLen } }
  if !m.dataLengthReq then m else Machine.give { m with dataLengthReq := false }

def throughputRead (m : Machine) : Machine := (m.note .dataRead).give

/-- Lines 346-390. -/
def callback (m : Machine) : Event → Machine
  | .phyUpdated => lePhyUpdated m
  | .paramUpdated interval => leParamUpdated m interval
  | .dataLengthUpdated txMaxLen => leDataLengthUpdated m txMaxLen
  | .dataRead => throughputRead m

/-! ## Steps -/

inductive Act
  | call (params : Params)
  | thread (answer : Int)
  | callback (event : Event)
  deriving DecidableEq

def step (m : Machine) : Act → Option Machine
  | .call params => call m params
  | .thread answer => thread m answer
  | .callback event => some (callback m event)

/-- After the boot, with a connection of any values. -/
structure Init (m : Machine) : Prop where
  throughputSem : m.throughputSem = Semaphore.empty
  dataLengthReq : m.dataLengthReq = false
  pc : m.pc = .idle
  log : m.log = []

end NcsExp.Throughput
