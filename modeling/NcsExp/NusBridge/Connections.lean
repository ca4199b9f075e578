/-
# NcsExp.NusBridge.Connections -- the references to the connection and to the pairing

`peripheral_uart/src/main.c` keeps two references: `current_conn` from `connected`
to `disconnected`, and `auth_conn` from `auth_passkey_confirm` to the button that
answers it, or to `disconnected`.  `Balanced` is the law they should keep: only held
references are used and dropped, and once no connection is up nothing is held.

Three events break it: a confirmation request while another one waits overwrites
`auth_conn`, a press of both buttons answers twice although `auth_conn` is tested
once, and a second connection overwrites `current_conn`.  In the runs without them
(`singleRequests`) the law holds in every state (`references_balanced`), and each
of them leads out of it (`refused_breaks`).
-/
import NcsExp.Theory.Runs
import NcsExp.Theory.References

namespace NcsExp.NusBridge.Connections

open NcsExp.Theory

set_option autoImplicit false

/-! ## The handlers -/

/-- A connection object; `Option Conn` is a `struct bt_conn *`, `none` its `NULL`. -/
abbrev Conn : Type := Nat

/-- A call of the Bluetooth host that takes a connection. -/
inductive Call
  | ref (conn : Option Conn)
  | unref (conn : Option Conn)
  | passkeyConfirm (conn : Option Conn)
  | authCancel (conn : Option Conn)
  deriving DecidableEq

/-- What a call does to the references. -/
def Call.refOp : Call → RefOp (Option Conn)
  | .ref conn => .take conn
  | .unref conn => .drop conn
  | .passkeyConfirm conn | .authCancel conn => .use conn

/-- `DK_BTN1_MSK`. -/
def KEY_PASSKEY_ACCEPT : BitVec 32 := 1

/-- `DK_BTN2_MSK`. -/
def KEY_PASSKEY_REJECT : BitVec 32 := 2

/-- The two cached references, the connections that are up, and the calls made. -/
structure App where
  up : List Conn
  currentConn : Option Conn
  authConn : Option Conn
  calls : List Call
  deriving DecidableEq

def App.call (s : App) (c : Call) : App := { s with calls := s.calls ++ [c] }

def App.setCurrent (s : App) (conn : Option Conn) : App := { s with currentConn := conn }

def App.setAuth (s : App) (conn : Option Conn) : App := { s with authConn := conn }

def App.setUp (s : App) (up : List Conn) : App := { s with up := up }

/-- `connected`, lines 322-339. -/
def connected (s : App) (conn : Conn) (err : UInt8) : App :=
  if err ≠ 0 then s else (s.call (.ref (some conn))).setCurrent (some conn)

/-- The first test of `disconnected`, lines 349-352. -/
def dropAuth (s : App) : App :=
  if s.authConn ≠ none then (s.call (.unref s.authConn)).setAuth none else s

/-- The second test of `disconnected`, lines 354-358. -/
def dropCurrent (s : App) : App :=
  if s.currentConn ≠ none then (s.call (.unref s.currentConn)).setCurrent none else s

/-- `disconnected`, lines 341-359. -/
def disconnected (s : App) : App := dropCurrent (dropAuth s)

/-- `auth_passkey_confirm`, lines 395-405. -/
def authPasskeyConfirm (s : App) (conn : Conn) : App :=
  (s.call (.ref (some conn))).setAuth (some conn)

/-- `num_comp_reply`, lines 524-536. -/
def numCompReply (s : App) (accept : Bool) : App :=
  let s := if accept then s.call (.passkeyConfirm s.authConn) else s.call (.authCancel s.authConn)
  (s.call (.unref s.authConn)).setAuth none

/-- `button_changed`, lines 538-551. -/
def buttonChanged (s : App) (buttonState hasChanged : BitVec 32) : App :=
  let buttons := buttonState &&& hasChanged
  if s.authConn ≠ none then
    let s := if buttons &&& KEY_PASSKEY_ACCEPT ≠ 0 then numCompReply s true else s
    if buttons &&& KEY_PASSKEY_REJECT ≠ 0 then numCompReply s false else s
  else s

/-- What the Bluetooth host and the board do. -/
inductive Event
  | connected (conn : Conn) (err : UInt8)
  | disconnected (conn : Conn)
  | authPasskeyConfirm (conn : Conn)
  | buttonChanged (buttonState hasChanged : BitVec 32)
  deriving DecidableEq

/-- One event.  The host reports a connection once, and disconnections and requests
only of connections that are up. -/
def step (s : App) : Event → Option App
  | .connected conn err =>
      if err ≠ 0 then some (connected s conn err)
      else if conn ∈ s.up then none
      else some ((connected s conn err).setUp (conn :: s.up))
  | .disconnected conn =>
      if conn ∈ s.up then some ((disconnected s).setUp (s.up.erase conn)) else none
  | .authPasskeyConfirm conn => if conn ∈ s.up then some (authPasskeyConfirm s conn) else none
  | .buttonChanged buttonState hasChanged => some (buttonChanged s buttonState hasChanged)

/-- Before the first event. -/
def start : App := ⟨[], none, none, []⟩

/-! ## The law -/

/-- The references held to a connection. -/
def refs (s : App) (conn : Option Conn) : Nat := held (s.calls.map Call.refOp) conn

/-- A reference is held of what is given back or answered, and it is not `NULL`. -/
def OnHeld (past : List Call) : Call → Prop
  | .ref _ => True
  | .unref conn | .passkeyConfirm conn | .authCancel conn =>
      conn ≠ none ∧ 0 < held (past.map Call.refOp) conn

structure Balanced (s : App) : Prop where
  onHeld : Always OnHeld s.calls
  cleared : s.up = [] → s.currentConn = none ∧ s.authConn = none
  released : s.up = [] →
    ∀ conn, s.calls.count (.ref (some conn)) = s.calls.count (.unref (some conn))

/-- Both buttons are pressed at once. -/
def bothPressed (buttonState hasChanged : BitVec 32) : Bool :=
  decide (buttonState &&& hasChanged &&& KEY_PASSKEY_ACCEPT ≠ 0) &&
    decide (buttonState &&& hasChanged &&& KEY_PASSKEY_REJECT ≠ 0)

/-- One connection at a time, one request at a time, and one button for it. -/
def singleRequests (s : App) : Event → Bool
  | .connected _ err => decide (err ≠ 0) || decide (s.up = [])
  | .disconnected _ => true
  | .authPasskeyConfirm _ => decide (s.authConn = none)
  | .buttonChanged buttonState hasChanged =>
      decide (s.authConn = none) || !bothPressed buttonState hasChanged

/-! ## What the handlers do to the references -/

section

variable (s : App) (call : Call) (p conn c : Option Conn) (up : List Conn)

@[simp] theorem call_currentConn : (s.call call).currentConn = s.currentConn := rfl
@[simp] theorem call_authConn : (s.call call).authConn = s.authConn := rfl
@[simp] theorem call_calls : (s.call call).calls = s.calls ++ [call] := rfl

@[simp] theorem setCurrent_currentConn : (s.setCurrent p).currentConn = p := rfl
@[simp] theorem setCurrent_authConn : (s.setCurrent p).authConn = s.authConn := rfl
@[simp] theorem setCurrent_refs : refs (s.setCurrent p) c = refs s c := rfl

@[simp] theorem setAuth_currentConn : (s.setAuth p).currentConn = s.currentConn := rfl
@[simp] theorem setAuth_authConn : (s.setAuth p).authConn = p := rfl
@[simp] theorem setAuth_calls : (s.setAuth p).calls = s.calls := rfl
@[simp] theorem setAuth_refs : refs (s.setAuth p) c = refs s c := rfl

@[simp] theorem setUp_currentConn : (s.setUp up).currentConn = s.currentConn := rfl
@[simp] theorem setUp_authConn : (s.setUp up).authConn = s.authConn := rfl
@[simp] theorem setUp_up : (s.setUp up).up = up := rfl
@[simp] theorem setUp_refs : refs (s.setUp up) c = refs s c := rfl

@[simp] theorem refs_ref :
    refs (s.call (.ref conn)) c = if conn = c then refs s c + 1 else refs s c := by
  simp [refs, Call.refOp]

@[simp] theorem refs_unref :
    refs (s.call (.unref conn)) c = if conn = c then refs s c - 1 else refs s c := by
  simp [refs, Call.refOp]

end

/-- The references to a connection that a pointer stands for. -/
def pointsTo (p : Option Conn) (conn : Conn) : Nat := if p = some conn then 1 else 0

@[simp] theorem pointsTo_none (conn : Conn) : pointsTo none conn = 0 := rfl

@[simp] theorem pointsTo_some (a conn : Conn) :
    pointsTo (some a) conn = if a = conn then 1 else 0 := by
  simp [pointsTo]

/-- The references that `current_conn` and `auth_conn` stand for. -/
def owed (s : App) (conn : Conn) : Nat := pointsTo s.currentConn conn + pointsTo s.authConn conn

/-- Nothing is held but what the two pointers stand for. -/
structure Counted (s : App) : Prop where
  onHeld : Always OnHeld s.calls
  refs : ∀ conn, refs s (some conn) = owed s conn

theorem onHeld_unref {s : App} {conn : Conn} (legal : Always OnHeld s.calls)
    (held : 0 < refs s (some conn)) : Always OnHeld (s.call (.unref (some conn))).calls :=
  always_snoc.mpr ⟨legal, by simp, held⟩

/-- The first test of `disconnected` leaves only what `current_conn` stands for. -/
theorem counted_dropAuth {s : App} (counted : Counted s) : Counted (dropAuth s) := by
  unfold dropAuth
  cases auth : s.authConn with
  | none => simpa using counted
  | some a =>
      have heldAuth : 0 < refs s (some a) := by
        rw [counted.refs, owed, auth, pointsTo_some, if_pos rfl]
        omega
      refine ⟨onHeld_unref counted.onHeld heldAuth, fun conn => ?_⟩
      have held := counted.refs conn
      by_cases same : a = conn <;> simp [owed, auth, same] at held ⊢ <;> omega

/-- The second test leaves only what `auth_conn` stands for. -/
theorem counted_dropCurrent {s : App} (counted : Counted s) : Counted (dropCurrent s) := by
  unfold dropCurrent
  cases current : s.currentConn with
  | none => simpa using counted
  | some a =>
      have heldCurrent : 0 < refs s (some a) := by
        rw [counted.refs, owed, current, pointsTo_some, if_pos rfl]
        omega
      refine ⟨onHeld_unref counted.onHeld heldCurrent, fun conn => ?_⟩
      have held := counted.refs conn
      by_cases same : a = conn <;> simp [owed, current, same] at held ⊢ <;> omega

/-- `disconnected` clears both pointers. -/
theorem disconnected_cleared (s : App) :
    (disconnected s).currentConn = none ∧ (disconnected s).authConn = none := by
  unfold disconnected dropCurrent dropAuth
  split <;> split <;> simp_all

theorem owed_disconnected (s : App) (conn : Conn) : owed (disconnected s) conn = 0 := by
  simp [owed, disconnected_cleared]

theorem refs_dropAuth (s : App) (conn : Conn) :
    refs (dropAuth s) (some conn) =
      refs s (some conn) - pointsTo s.authConn conn := by
  unfold dropAuth
  cases s.authConn with
  | none => simp
  | some a => by_cases same : a = conn <;> simp [same]

theorem refs_dropCurrent (s : App) (conn : Conn) :
    refs (dropCurrent s) (some conn) =
      refs s (some conn) - pointsTo s.currentConn conn := by
  unfold dropCurrent
  cases s.currentConn with
  | none => simp
  | some a => by_cases same : a = conn <;> simp [same]

theorem dropAuth_currentConn (s : App) : (dropAuth s).currentConn = s.currentConn := by
  unfold dropAuth
  split <;> rfl

/-- Each pointer is dropped once, whatever is held. -/
theorem refs_disconnected (s : App) (conn : Conn) :
    refs (disconnected s) (some conn) = refs s (some conn) - owed s conn := by
  rw [disconnected, refs_dropCurrent, dropAuth_currentConn, refs_dropAuth, owed]
  omega

/-! ## Every run of single requests -/

/-- The invariant of the runs whose events meet `singleRequests`. -/
structure Inv (s : App) : Prop where
  counted : Counted s
  single : ∀ conn ∈ s.up, s.up = [conn] ∧ s.currentConn = some conn
  cleared : s.up = [] → s.currentConn = none ∧ s.authConn = none

theorem inv_start : Inv start where
  counted := ⟨always_nil, fun _ => rfl⟩
  single := by simp [start]
  cleared := by simp [start]

theorem inv_connected {s : App} (inv : Inv s) (conn : Conn) (alone : s.up = []) :
    Inv ((connected s conn 0).setUp (conn :: s.up)) := by
  obtain ⟨noCurrent, noAuth⟩ := inv.cleared alone
  refine ⟨⟨?_, fun c => ?_⟩, ?_, by simp⟩
  · exact always_snoc.mpr ⟨inv.counted.onHeld, trivial⟩
  · have held := inv.counted.refs c
    by_cases same : conn = c <;> simp_all [connected, owed]
  · simp [alone, connected]

theorem inv_disconnected {s : App} (inv : Inv s) {conn : Conn} (up : conn ∈ s.up) :
    Inv ((disconnected s).setUp (s.up.erase conn)) := by
  have last : s.up.erase conn = [] := by simp [(inv.single conn up).1]
  have counted := counted_dropCurrent (counted_dropAuth inv.counted)
  rw [last]
  exact ⟨⟨counted.onHeld, counted.refs⟩, by simp, fun _ => disconnected_cleared s⟩

theorem inv_authPasskeyConfirm {s : App} (inv : Inv s) {conn : Conn} (up : conn ∈ s.up)
    (idle : s.authConn = none) : Inv (authPasskeyConfirm s conn) := by
  refine ⟨⟨?_, fun c => ?_⟩, inv.single, ?_⟩
  · exact always_snoc.mpr ⟨inv.counted.onHeld, trivial⟩
  · have held := inv.counted.refs c
    by_cases same : conn = c <;> simp [authPasskeyConfirm, owed, idle, same] at held ⊢ <;> omega
  · intro down
    simp [show s.up = [] from down] at up

/-- The answer to a pending request gives its reference back. -/
theorem inv_numCompReply {s : App} (inv : Inv s) {conn : Conn} (auth : s.authConn = some conn)
    (accept : Bool) : Inv (numCompReply s accept) := by
  have authHeld : 0 < refs s (some conn) := by
    rw [inv.counted.refs, owed, auth, pointsTo_some, if_pos rfl]
    omega
  have legal (answer : Call) (op : answer.refOp = .use (some conn))
      (valid : OnHeld s.calls answer) :
      Inv (((s.call answer).call (.unref (some conn))).setAuth none) := by
    have same (c : Option Conn) : refs (s.call answer) c = refs s c := by simp [refs, op]
    have answered : Always OnHeld (s.call answer).calls :=
      always_snoc.mpr ⟨inv.counted.onHeld, valid⟩
    refine ⟨⟨onHeld_unref answered (same _ ▸ authHeld), fun c => ?_⟩, inv.single, fun down => ?_⟩
    · have held := inv.counted.refs c
      by_cases equal : conn = c <;> simp [owed, auth, equal, same] at held ⊢ <;> omega
    · exact ⟨(inv.cleared down).1, rfl⟩
  unfold numCompReply
  cases accept with
  | true => simpa [auth] using legal (.passkeyConfirm (some conn)) rfl ⟨by simp, authHeld⟩
  | false => simpa [auth] using legal (.authCancel (some conn)) rfl ⟨by simp, authHeld⟩

theorem inv_buttonChanged {s : App} (inv : Inv s) {buttonState hasChanged : BitVec 32}
    (one : s.authConn = none ∨ bothPressed buttonState hasChanged = false) :
    Inv (buttonChanged s buttonState hasChanged) := by
  unfold buttonChanged
  dsimp only
  cases auth : s.authConn with
  | none => simpa using inv
  | some conn =>
      have notBoth := one.resolve_left (by simp [auth])
      simp only [bothPressed, Bool.and_eq_false_iff, decide_eq_false_iff_not] at notBoth
      simp only [ne_eq, reduceCtorEq, not_false_eq_true, if_true]
      by_cases accept : buttonState &&& hasChanged &&& KEY_PASSKEY_ACCEPT ≠ 0
      · have noReject := notBoth.resolve_left (not_not.mpr accept)
        rw [if_pos accept, if_neg noReject]
        exact inv_numCompReply inv auth true
      · rw [if_neg accept]
        split
        · exact inv_numCompReply inv auth false
        · exact inv

theorem step_inv {s t : App} {e : Event} (inv : Inv s) (met : singleRequests s e = true)
    (taken : step s e = some t) : Inv t := by
  cases e with
  | connected conn err =>
      by_cases failed : err ≠ 0
      · rw [step, if_pos failed] at taken
        cases taken
        rwa [connected, if_pos failed]
      · simp only [step, if_neg failed, Option.ite_none_left_eq_some, Option.some.injEq] at taken
        obtain ⟨-, rfl⟩ := taken
        obtain rfl : err = 0 := not_not.mp failed
        exact inv_connected inv conn (by simpa [singleRequests] using met)
  | disconnected conn =>
      simp only [step, Option.ite_none_right_eq_some, Option.some.injEq] at taken
      obtain ⟨up, rfl⟩ := taken
      exact inv_disconnected inv up
  | authPasskeyConfirm conn =>
      simp only [step, Option.ite_none_right_eq_some, Option.some.injEq] at taken
      obtain ⟨up, rfl⟩ := taken
      exact inv_authPasskeyConfirm inv up (of_decide_eq_true met)
  | buttonChanged buttonState hasChanged =>
      cases taken
      exact inv_buttonChanged inv (by simpa [singleRequests] using met)

theorem reachable_inv {s : App} (run : Reachable step (· = start) singleRequests s) : Inv s := by
  apply run.invariant
  · rintro s rfl
    exact inv_start
  · intro s e t inv met taken
    exact step_inv inv met taken

/-! ## The law in every run -/

theorem count_ref (s : App) (conn : Option Conn) :
    s.calls.count (.ref conn) = (s.calls.map Call.refOp).count (.take conn) := by
  rw [← List.filterMap_eq_map]
  refine (count_means _ (fun call => ?_) s.calls).symm
  cases call <;> simp [Call.refOp]

theorem count_unref (s : App) (conn : Option Conn) :
    s.calls.count (.unref conn) = (s.calls.map Call.refOp).count (.drop conn) := by
  rw [← List.filterMap_eq_map]
  refine (count_means _ (fun call => ?_) s.calls).symm
  cases call <;> simp [Call.refOp]

theorem legalRef_of_onHeld {s : App} (valid : Always OnHeld s.calls) :
    Always LegalRef (s.calls.map Call.refOp) := by
  refine valid.map fun past now moment => ?_
  cases now with
  | ref conn => trivial
  | unref conn => exact moment.2
  | passkeyConfirm conn => exact moment.2
  | authCancel conn => exact moment.2

/-- **References are balanced** in every state of every run without a second
connection, a second request or a double answer. -/
theorem references_balanced {s : App} (run : Reachable step (· = start) singleRequests s) :
    Balanced s where
  onHeld := (reachable_inv run).counted.onHeld
  cleared := (reachable_inv run).cleared
  released := by
    intro down conn
    have inv := reachable_inv run
    have legal := legalRef_of_onHeld inv.counted.onHeld
    rw [count_ref, count_unref]
    refine count_take_eq_of_released legal ?_
    obtain ⟨noCurrent, noAuth⟩ := inv.cleared down
    have counted := inv.counted.refs conn
    rwa [owed, noCurrent, noAuth, pointsTo_none] at counted

/-! ## Each refused event breaks it -/

/-- A reference is held that no pointer stands for. -/
def Lost (s : App) (conn : Conn) : Prop := owed s conn < refs s (some conn)

theorem lost_disconnected {s : App} {conn : Conn} (lost : Lost s conn) :
    Lost (disconnected s) conn := by
  unfold Lost at lost ⊢
  rw [refs_disconnected, owed_disconnected]
  omega

/-- Once every connection is down, a lost reference breaks the law. -/
theorem lost_breaks {s : App} {conn : Conn} (lost : Lost s conn) :
    ∃ events t, exec step unguarded s events = some t ∧ ¬ Balanced t := by
  induction up : s.up generalizing s with
  | nil =>
      refine ⟨[], s, rfl, fun balanced => ?_⟩
      have counted := count_take_eq (legalRef_of_onHeld balanced.onHeld) (some conn)
      have released := balanced.released up conn
      rw [count_ref, count_unref] at released
      have held : 0 < refs s (some conn) := by
        unfold Lost at lost
        omega
      unfold refs at held
      omega
  | cons c rest ih =>
      have taken : step s (.disconnected c) = some ((disconnected s).setUp rest) := by
        simp [step, up]
      obtain ⟨events, t, found, broken⟩ :=
        ih (s := (disconnected s).setUp rest) (lost_disconnected lost) rfl
      exact ⟨.disconnected c :: events, t, by simp [exec, unguarded, taken, found], broken⟩

/-- A reference taken while the pointer that is to hold it holds another one. -/
theorem lost_of_overwritten {s : App} {a conn : Conn} (counted : Counted s)
    (busy : s.authConn = some a) : Lost (authPasskeyConfirm s conn) a := by
  have held := counted.refs a
  unfold Lost
  by_cases same : conn = a <;> simp [authPasskeyConfirm, owed, busy, same] at held ⊢ <;> omega

theorem lost_of_second {s : App} {a conn : Conn} (counted : Counted s)
    (busy : s.currentConn = some a) (up : List Conn) :
    Lost ((connected s conn 0).setUp up) a := by
  have held := counted.refs a
  unfold Lost
  by_cases same : conn = a <;> simp [connected, owed, busy, same] at held ⊢ <;> omega

/-- **The condition is exact**: after an event that does not meet it, some run
leaves the law. -/
theorem refused_breaks {s t : App} {e : Event}
    (run : Reachable step (· = start) singleRequests s) (refused : singleRequests s e = false)
    (taken : step s e = some t) :
    ∃ events t', exec step unguarded t events = some t' ∧ ¬ Balanced t' := by
  have inv := reachable_inv run
  cases e with
  | connected conn err =>
      simp only [singleRequests, Bool.or_eq_false_iff, decide_eq_false_iff_not] at refused
      obtain ⟨succeeded, busy⟩ := refused
      simp only [step, if_neg succeeded, Option.ite_none_left_eq_some, Option.some.injEq] at taken
      obtain ⟨-, rfl⟩ := taken
      obtain rfl : err = 0 := not_not.mp succeeded
      obtain ⟨a, isUp⟩ := List.exists_mem_of_ne_nil _ busy
      exact lost_breaks (lost_of_second inv.counted (inv.single a isUp).2 _)
  | disconnected conn => cases refused
  | authPasskeyConfirm conn =>
      simp only [step, Option.ite_none_right_eq_some, Option.some.injEq] at taken
      obtain ⟨-, rfl⟩ := taken
      obtain ⟨a, busy⟩ := Option.ne_none_iff_exists'.mp (of_decide_eq_false refused)
      exact lost_breaks (lost_of_overwritten inv.counted busy)
  | buttonChanged buttonState hasChanged =>
      cases taken
      simp only [singleRequests, bothPressed, Bool.or_eq_false_iff, decide_eq_false_iff_not,
        Bool.not_eq_false', Bool.and_eq_true, decide_eq_true_eq] at refused
      obtain ⟨pending, accept, reject⟩ := refused
      refine ⟨[], _, rfl, fun balanced => ?_⟩
      -- the second answer is given on NULL
      have answers : (buttonChanged s buttonState hasChanged).calls =
          s.calls ++ [Call.passkeyConfirm s.authConn, .unref s.authConn] ++
            Call.authCancel none :: [.unref none] := by
        simp only [buttonChanged, ne_eq, pending, not_false_eq_true, if_true]
        rw [if_pos accept, if_pos reject]
        simp [numCompReply]
      exact (balanced.onHeld _ _ _ answers).1 rfl

/-! ## A pairing that is answered, and two that are not balanced -/

/-- A connection pairs, the request is accepted, and the connection ends. -/
def pairingRun : List Event :=
  [.connected 7 0, .authPasskeyConfirm 7, .buttonChanged 1 1, .disconnected 7]

theorem references_balanced_pairing :
    ∃ s, exec step singleRequests start pairingRun = some s ∧ Balanced s := by
  obtain ⟨s, taken⟩ : ∃ s, exec step singleRequests start pairingRun = some s := ⟨_, rfl⟩
  exact ⟨s, taken, references_balanced (reachable_of_exec rfl taken)⟩

/-- Both buttons are pressed while a request waits. -/
def bothButtonsRun : List Event := [.connected 7 0, .authPasskeyConfirm 7, .buttonChanged 3 3]

/-- **Pressing both buttons answers a pairing on `NULL`.** -/
theorem both_buttons_answer_null :
    ¬ ∀ s, Reachable step (· = start) unguarded s → Balanced s := by
  intro balance
  obtain ⟨s, taken, calls⟩ : ∃ s, exec step unguarded start bothButtonsRun = some s ∧
      s.calls = [Call.ref (some 7), .ref (some 7), .passkeyConfirm (some 7), .unref (some 7)] ++
        Call.authCancel none :: [.unref none] :=
    ⟨_, rfl, rfl⟩
  have balanced := balance s (reachable_of_exec rfl taken)
  exact (balanced.onHeld _ _ _ calls).1 rfl

end NcsExp.NusBridge.Connections
