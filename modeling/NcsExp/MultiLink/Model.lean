/-
# NcsExp.MultiLink.Model -- a central and peripheral with ten links

`bluetooth_central_bas_peripheral_hr_10`: `main.c` keeps the connections it starts as a
central in `curr_conn`, from the attempt on; `app_hr.c` keeps those in which it is the
peripheral in a table of the same name (`hrConn` here).  An attempt begins in one of
two ways: the scan module connects to a device that matches the filter and calls
`scan_connecting`, or `scan_filter_no_match` answers directed advertising with
`bt_conn_le_create`.

The host reports each attempt by one call of `connected` and each connection by at
most one call of `disconnected`, and an object that the application holds a
reference to is not handed out again (`Fresh`).  `attempts`, `centrals` and
`peripherals` are what the host knows; `calls` are the references taken and given
back and the discoveries started.
-/
import NcsExp.Theory.Runs
import NcsExp.Theory.References
import NcsExp.Theory.Slots
import Mathlib.Data.Finset.Insert

namespace NcsExp.MultiLink

open NcsExp.Theory

set_option autoImplicit false

/-- A connection object. -/
abbrev Conn : Type := Nat

def NUM_CONN_MAX : Nat := 10

/-- `curr_conn`. -/
abbrev Table : Type := Slots NUM_CONN_MAX Conn

/-- `leCreate` is the reference that `bt_conn_le_create` hands over; `discover` is
`bt_gatt_dm_start` with the `bas` entry it is given. -/
inductive Call
  | leCreate (conn : Conn)
  | ref (conn : Conn)
  | unref (conn : Conn)
  | discover (conn : Conn) (bas : Option (Fin NUM_CONN_MAX))
  deriving DecidableEq

structure App where
  currConn : Table
  hrConn : Table
  scanning : Bool
  attempts : Finset Conn
  centrals : Finset Conn
  peripherals : Finset Conn
  calls : List Call

namespace App

def call (s : App) (c : Call) : App := { s with calls := s.calls ++ [c] }

def storeCurr (s : App) (i : Fin NUM_CONN_MAX) (conn : Option Conn) : App :=
  { s with currConn := s.currConn.store i conn }

def storeHr (s : App) (i : Fin NUM_CONN_MAX) (conn : Option Conn) : App :=
  { s with hrConn := s.hrConn.store i conn }

def scan (s : App) (on : Bool) : App := { s with scanning := on }

def attempt (s : App) (conn : Conn) : App := { s with attempts := insert conn s.attempts }

end App

/-! ## `main.c` -/

/-- `find_bas_client`, lines 64-82: entry `i` of `bas` goes with slot `i`. -/
def findBasClient (s : App) (conn : Conn) : Option (Fin NUM_CONN_MAX) := s.currConn.find (some conn)

/-- `scan_start`, lines 84-93; starting while scanning is on leaves it on. -/
def scanStart (s : App) : App := s.scan true

/-- `scan_connecting_error`, lines 107-110. -/
def scanConnectingError (s : App) : App := s

/-- `scan_connecting`, lines 112-121. -/
def scanConnecting (s : App) (conn : Conn) : App :=
  match s.currConn.find none with
  | some room => (s.call (.ref conn)).storeCurr room (some conn)
  | none => s

/-- `scan_filter_no_match`, lines 123-155; `created` is the connection that
`bt_conn_le_create` starts, if it succeeds. -/
def scanFilterNoMatch (s : App) (directed : Bool) (created : Option Conn) : App :=
  if directed then
    match s.currConn.find none with
    | some room =>
        let s := s.scan false
        match created with
        | some conn =>
            let s := (s.attempt conn).call (.leCreate conn)
            ((s.call (.ref conn)).storeCurr room (some conn)).call (.unref conn)
        | none => s
    | none => s
  else s

/-- `gatt_discover`, lines 217-235. -/
def gattDiscover (s : App) (conn : Conn) : App :=
  match s.currConn.find (some conn) with
  | none => s
  | some _ => s.call (.discover conn (findBasClient s conn))

/-- `connected` in the central role, lines 251-283; `secured` says whether
`bt_conn_set_security` succeeds. -/
def connectedCentral (s : App) (conn : Conn) (connErr : UInt8) (secured : Bool) : App :=
  if connErr ≠ 0 then
    match s.currConn.find (some conn) with
    | some room => scanStart ((s.call (.unref conn)).storeCurr room none)
    | none => s
  else
    let s := if secured then s else gattDiscover s conn
    match s.currConn.find none with
    | some _ => scanStart s
    | none => s

/-- `disconnected` in the central role, lines 298-312. -/
def disconnectedCentral (s : App) (conn : Conn) : App :=
  match s.currConn.find (some conn) with
  | some room => scanStart ((s.call (.unref conn)).storeCurr room none)
  | none => scanStart s

/-! ## `app_hr.c` -/

/-- `bt_hr_connected`, lines 52-67. -/
def btHrConnected (s : App) (conn : Conn) (err : UInt8) : App :=
  if err ≠ 0 then s
  else
    match s.hrConn.find none with
    | some room => (s.call (.ref conn)).storeHr room (some conn)
    | none => s

/-- `bt_hr_disconnected`, lines 69-80. -/
def btHrDisconnected (s : App) (conn : Conn) : App :=
  match s.hrConn.find (some conn) with
  | some room => (s.call (.unref conn)).storeHr room none
  | none => s

/-! ## Events -/

/-- What a call does to the references. -/
def Call.refOp : Call → Option (RefOp Conn)
  | .leCreate conn => some (.take conn)
  | .ref conn => some (.take conn)
  | .unref conn => some (.drop conn)
  | .discover _ _ => none

/-- The references held to a connection. -/
def refs (calls : List Call) (conn : Conn) : Nat := held (calls.filterMap Call.refOp) conn

/-- The host knows no link with this object, and no reference to it is held. -/
def Fresh (s : App) (conn : Conn) : Prop :=
  conn ∉ s.attempts ∧ conn ∉ s.centrals ∧ conn ∉ s.peripherals ∧ refs s.calls conn = 0

instance (s : App) (conn : Conn) : Decidable (Fresh s conn) := inferInstanceAs (Decidable (_ ∧ _))

/-- `filterMatch` is the scan module's connect-on-match, with the connection it
creates, if it can; `filterNoMatch` a report without a match. -/
inductive Event
  | filterMatch (created : Option Conn)
  | filterNoMatch (directed : Bool) (created : Option Conn)
  | connected (conn : Conn) (err : UInt8) (secured : Bool)
  | disconnected (conn : Conn)
  | securityChanged (conn : Conn)
  deriving DecidableEq

/-- One event.  A connection that is not an attempt of ours is an incoming one: the
role that `bt_conn_get_info` gives `connected` is central for the former and
peripheral for the latter. -/
def step (s : App) : Event → Option App
  | .filterMatch created =>
      match created with
      | some conn =>
          if Fresh s conn then some (scanConnecting ((s.scan false).attempt conn) conn) else none
      | none => some (scanConnectingError (s.scan false))
  | .filterNoMatch directed created =>
      if ∀ conn ∈ created, Fresh s conn then some (scanFilterNoMatch s directed created) else none
  | .connected conn err secured =>
      if conn ∈ s.attempts then
        let t := connectedCentral s conn err secured
        some { t with
          attempts := t.attempts.erase conn
          centrals := if err = 0 then insert conn t.centrals else t.centrals }
      else if Fresh s conn then
        some (btHrConnected
          (if err = 0 then { s with peripherals := insert conn s.peripherals } else s) conn err)
      else none
  | .disconnected conn =>
      if conn ∈ s.centrals then
        let t := disconnectedCentral s conn
        some { t with centrals := t.centrals.erase conn }
      else if conn ∈ s.peripherals then
        let t := btHrDisconnected s conn
        some { t with peripherals := t.peripherals.erase conn }
      else none
  | .securityChanged conn =>
      if conn ∈ s.centrals ∨ conn ∈ s.peripherals then some (gattDiscover s conn) else none

/-- After `main` has started scanning and advertising. -/
def start : App := ⟨.empty, .empty, true, ∅, ∅, ∅, []⟩

end NcsExp.MultiLink
