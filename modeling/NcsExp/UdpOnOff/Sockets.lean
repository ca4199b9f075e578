/-
# NcsExp.UdpOnOff.Sockets -- the socket of the on/off uploader

`udp_lp_onoff/src/main.c` with CONFIG_UDP_ON_OFF_ENABLE: each execution of
`server_transmission_work_fn` attaches the modem, opens a socket, sends, and every
jump goes to `workerror`, which closes `client_fd`, switches the modem off and
submits the work again.  `server_connect` has an error exit of its own that also
closes `client_fd`.  So a failed `connect` closes the descriptor twice, and a failed
`socket` closes -1 and returns `err` unassigned, which may be 0.  Where `setsockopt`
failed, the `recv` after the payload waits for an answer that may never come, and
the work is not submitted again.

An execution is a function of what its calls return (`Outcome`); the log has every
call in order.  The wait for the registration, a `k_sem_take` with K_FOREVER, is
taken to end.  `sockets_orderly_iff`: over any number of executions the descriptors
are handled as they should, and the work is submitted again, exactly when in each of
them `socket` and `connect` succeed and `recv` returns (`Outcome.Returns`).
-/
import NcsExp.Theory.References
import Mathlib.Algebra.Group.Nat.Defs

namespace NcsExp.UdpOnOff

open NcsExp.Theory

set_option autoImplicit false

/-! ## The work -/

/-- The part of the configuration that decides what the work does. -/
structure Config where
  /-- CONFIG_UDP_DATA_UPLOAD_SIZE_BYTES -/
  uploadSize : Nat
  /-- CONFIG_RECEIVE_UDP_PACKETS -/
  receive : Bool
  /-- CONFIG_USE_CFUN_0_OFF -/
  cfun0Off : Bool
  /-- CONFIG_UDP_RECV_TIMEOUT_SECONDS; 0 is no timeout. -/
  recvTimeoutSeconds : Nat

def EACH_MAX_TCP_PACKET : Nat := 1024

/-- What the calls of one execution return; `uninitialized` is what the local `err`
of `server_connect` holds before it is assigned, `send i` answers the call number
`i`, and `recv` is what comes after the payload, `none` if nothing comes. -/
structure Outcome where
  socket : Int
  setsockopt : Int
  connect : Int
  uninitialized : Int
  send : Nat → Int
  recv : Option Int

/-- The socket has a receive timeout, `SO_RCVTIMEO`. -/
def Outcome.TimesOut (cfg : Config) (o : Outcome) : Prop :=
  o.setsockopt = 0 ∧ 0 < cfg.recvTimeoutSeconds

instance (cfg : Config) (o : Outcome) : Decidable (o.TimesOut cfg) :=
  inferInstanceAs (Decidable (_ ∧ _))

/-- What `recv` returns: if nothing comes it fails at the receive timeout, or at once
where there is no socket, and otherwise it does not return (`none`). -/
def Outcome.received (cfg : Config) (o : Outcome) : Option Int :=
  match o.recv with
  | some ret => some ret
  | none => if o.socket < 0 ∨ o.TimesOut cfg then some (-1) else none

/-- A call with what it returned; `serverConnect` is the return of `server_connect`,
with the value of `client_fd`. -/
inductive Call
  | lteLcConnectAsync
  | socket (ret : Int)
  | setsockopt (fd ret : Int)
  | connect (fd ret : Int)
  | serverConnect (ret fd : Int)
  | send (fd : Int) (len : Nat) (ret : Int)
  | recv (fd : Int) (len : Nat) (ret : Int)
  | close (fd : Int)
  | lteLcPowerOff
  | lteLcOffline
  | lteLcCeregSetup
  | submit
  deriving DecidableEq

/-- The global `client_fd`, whether the work is submitted, and the calls made so far. -/
structure World where
  clientFd : Int
  submitted : Bool
  calls : List Call

def World.call (w : World) (c : Call) : World := { w with calls := w.calls ++ [c] }

/-- `server_disconnect`, lines 121-124. -/
def serverDisconnect (w : World) : World := w.call (.close w.clientFd)

/-- `server_connect`, lines 139-180, with what it returns. -/
def serverConnect (w : World) (o : Outcome) : World × Int :=
  let w := { w.call (.socket o.socket) with clientFd := o.socket }
  if o.socket < 0 then (serverDisconnect w, o.uninitialized)
  else
    let w := (w.call (.setsockopt o.socket o.setsockopt)).call (.connect o.socket o.connect)
    if o.connect < 0 then (serverDisconnect w, o.connect) else (w, 0)

/-- `int32_t packets_to_send = CONFIG_UDP_DATA_UPLOAD_SIZE_BYTES`; a negative value is as good as
0, for the loop is not entered. -/
def packetsToSend (uploadSize : Nat) : Nat :=
  if uploadSize % 2 ^ 32 < 2 ^ 31 then uploadSize % 2 ^ 32 else 0

/-- `(packets_to_send > EACH_MAX_TCP_PACKET) ? EACH_MAX_TCP_PACKET : packets_to_send`. -/
def pkgOut (packetsToSend : Nat) : Nat :=
  if EACH_MAX_TCP_PACKET < packetsToSend then EACH_MAX_TCP_PACKET else packetsToSend

theorem pkgOut_le (packetsToSend : Nat) : pkgOut packetsToSend ≤ packetsToSend := by
  rw [pkgOut]
  split <;> omega

theorem pkgOut_pos {packetsToSend : Nat} (more : 0 < packetsToSend) : 0 < pkgOut packetsToSend := by
  rw [pkgOut, EACH_MAX_TCP_PACKET]
  split <;> omega

theorem pkgOut_le_max (packetsToSend : Nat) : pkgOut packetsToSend ≤ EACH_MAX_TCP_PACKET := by
  rw [pkgOut]
  split <;> omega

/-- The sending loop, lines 242-255; `i` counts the calls of `send`.  It tells
whether every packet was sent. -/
def sendLoop (w : World) (send : Nat → Int) (i packetsToSend : Nat) : World × Bool :=
  if 0 < packetsToSend then
    let w := w.call (.send w.clientFd (pkgOut packetsToSend) (send i))
    if send i < 0 then (w, false)
    else sendLoop w send (i + 1) (packetsToSend - pkgOut packetsToSend)
  else (w, true)
termination_by packetsToSend
decreasing_by
  have some := pkgOut_pos ‹0 < packetsToSend›
  omega

/-- From the first packet to `workerror`, lines 234-269; it tells whether `workerror`
is reached. -/
def transmit (cfg : Config) (w : World) (o : Outcome) : World × Bool :=
  let sent := sendLoop w o.send 0 (packetsToSend cfg.uploadSize)
  if sent.2 && cfg.receive then
    match o.received cfg with
    | some ret => (sent.1.call (.recv w.clientFd cfg.uploadSize ret), true)
    | none => (sent.1, false)
  else (sent.1, true)

/-- What follows `workerror`, lines 271-290. -/
def workerror (cfg : Config) (w : World) : World :=
  let w := serverDisconnect w
  let w := if cfg.cfun0Off then w.call .lteLcPowerOff else w.call .lteLcOffline
  let w := if cfg.cfun0Off then w.call .lteLcCeregSetup else w
  { w.call .submit with submitted := true }

/-- `server_transmission_work_fn`, lines 192-291, up to its end or to the `recv` that
does not return; `server_init` returns 0. -/
def serverTransmissionWorkFn (cfg : Config) (w : World) (o : Outcome) : World :=
  let connected := serverConnect (w.call .lteLcConnectAsync) o
  let w := connected.1.call (.serverConnect connected.2 connected.1.clientFd)
  if connected.2 ≠ 0 then workerror cfg w
  else
    let transmitted := transmit cfg w o
    if transmitted.2 then workerror cfg transmitted.1 else transmitted.1

/-- The work runs if it is submitted. -/
def execute (cfg : Config) (w : World) (o : Outcome) : World :=
  if w.submitted then serverTransmissionWorkFn cfg { w with submitted := false } o else w

/-- After `main`: the work is submitted. -/
def start : World := ⟨0, true, []⟩

/-- One execution after the other. -/
def executions (cfg : Config) (outcomes : List Outcome) : World :=
  outcomes.foldl (execute cfg) start

/-! ## The law -/

/-- What a call does to the open descriptors. -/
def Call.fdOp : Call → Option (RefOp Int)
  | .socket ret => if 0 ≤ ret then some (.take ret) else none
  | .close fd => some (.drop fd)
  | _ => none

/-- How often `fd` is open. -/
def opened (calls : List Call) (fd : Int) : Nat := held (calls.filterMap Call.fdOp) fd

/-- The socket that is connected, as far as the log tells. -/
def Call.connects (connected : Option Int) : Call → Option Int
  | .connect fd ret => if 0 ≤ ret then some fd else connected
  | .close fd => if connected = some fd then none else connected
  | _ => connected

/-- What should hold when a call is made: only an open descriptor is closed;
`server_connect` returns 0 only with a connected socket; the work is submitted when
every descriptor returned by `socket` has been closed once. -/
def Moment (past : List Call) : Call → Prop
  | .close fd => 0 < opened past fd
  | .serverConnect ret fd =>
      ret = 0 → 0 < opened past fd ∧ present Call.connects none past = some fd
  | .submit => ∀ fd, 0 ≤ fd → past.count (.socket fd) = past.count (.close fd)
  | _ => True

/-- The descriptors of `n` executions were handled as they should, and the work was
submitted again in each. -/
structure Orderly (n : Nat) (w : World) : Prop where
  moments : Always Moment w.calls
  submitted : w.calls.count .submit = n

/-- Both calls that give a connected socket succeed. -/
def Outcome.Connects (o : Outcome) : Prop := 0 ≤ o.socket ∧ 0 ≤ o.connect

instance (o : Outcome) : Decidable o.Connects := inferInstanceAs (Decidable (_ ∧ _))

/-- A call fails. -/
def Fails (rest : Nat) (send : Nat → Int) : Prop := ∃ j, EACH_MAX_TCP_PACKET * j < rest ∧ send j < 0

/-- If `recv` is called, after all of the payload was sent, then something comes or the
socket has a receive timeout. -/
def Outcome.Returns (cfg : Config) (o : Outcome) : Prop :=
  cfg.receive = true → ¬ Fails (packetsToSend cfg.uploadSize) o.send →
    o.recv ≠ none ∨ o.TimesOut cfg

/-! ## The calls of `send` -/

section

variable {send : Nat → Int} {i rest : Nat}

/-- The calls that are left are the calls of what is left. -/
theorem more_succ_iff (rest j : Nat) :
    EACH_MAX_TCP_PACKET * (j + 1) < rest ↔ EACH_MAX_TCP_PACKET * j < rest - pkgOut rest := by
  rw [pkgOut, EACH_MAX_TCP_PACKET]
  split <;> omega

/-- What holds of all calls holds of the first one and of those of what is left. -/
theorem forall_calls {P : Nat → Prop} (more : 0 < rest) :
    (∀ j, EACH_MAX_TCP_PACKET * j < rest → P j) ↔
      P 0 ∧ ∀ j, EACH_MAX_TCP_PACKET * j < rest - pkgOut rest → P (j + 1) := by
  constructor
  · intro all
    exact ⟨all 0 (by rwa [Nat.mul_zero]),
      fun j left => all (j + 1) ((more_succ_iff rest j).mpr left)⟩
  · rintro ⟨first, others⟩ j within
    cases j with
    | zero => exact first
    | succ j => exact others j ((more_succ_iff rest j).mp within)

theorem fails_iff (more : 0 < rest) : Fails rest (fun j => send (i + j)) ↔
    send i < 0 ∨ Fails (rest - pkgOut rest) (fun j => send (i + 1 + j)) := by
  have none_ (rest : Nat) (send : Nat → Int) :
      Fails rest send ↔ ¬ ∀ j, EACH_MAX_TCP_PACKET * j < rest → ¬ send j < 0 := by
    simp [Fails]
  rw [none_, none_, forall_calls more, Classical.not_and_iff_not_or_not, Classical.not_not]
  simp only [Nat.add_zero, Nat.add_assoc, Nat.add_comm 1]

/-- The loop is left early exactly when a call fails. -/
theorem sendLoop_fails_iff (w : World) (send : Nat → Int) (i rest : Nat) :
    (sendLoop w send i rest).2 = false ↔ Fails rest fun j => send (i + j) := by
  fun_induction sendLoop w send i rest with
  | case1 w i rest more w' failed =>
      exact iff_of_true rfl ((fails_iff more).mpr (Or.inl failed))
  | case2 w i rest more w' sent ih =>
      rw [fails_iff more, or_iff_right sent]
      exact ih
  | case3 w i rest done =>
      refine iff_of_false (by simp) ?_
      rintro ⟨j, within, -⟩
      omega

end

/-! ## The log -/

section

variable (w : World) (c : Call) (calls : List Call) (fd : Int)

@[simp] theorem call_clientFd : (w.call c).clientFd = w.clientFd := rfl

@[simp] theorem call_calls : (w.call c).calls = w.calls ++ [c] := rfl

theorem opened_socket {ret : Int} (valid : 0 ≤ ret) :
    opened (calls ++ [Call.socket ret]) fd =
      if ret = fd then opened calls fd + 1 else opened calls fd :=
  held_means Call.fdOp (.socket ret) (if_pos valid) fd

@[simp] theorem opened_close (closed : Int) :
    opened (calls ++ [Call.close closed]) fd =
      if closed = fd then opened calls fd - 1 else opened calls fd :=
  held_means Call.fdOp (.close closed) rfl fd

/-- Only `socket` and `close` change what is open. -/
theorem opened_other {c : Call} (other : c.fdOp = none) :
    opened (calls ++ [c]) fd = opened calls fd := held_means_nothing Call.fdOp c other fd

end

theorem fdOp_eq_take {fd : Int} (valid : 0 ≤ fd) (c : Call) :
    c.fdOp = some (.take fd) ↔ c = .socket fd := by
  cases c with
  | socket ret =>
      simp only [Call.fdOp, Option.ite_none_right_eq_some, Option.some.injEq, RefOp.take.injEq,
        Call.socket.injEq]
      exact and_iff_right_of_imp fun same => same ▸ valid
  | _ => simp [Call.fdOp]

theorem fdOp_eq_drop {fd : Int} (c : Call) : c.fdOp = some (.drop fd) ↔ c = .close fd := by
  cases c <;> simp [Call.fdOp]

/-- In a log that meets the law every descriptor was closed or is open. -/
theorem count_socket {calls : List Call} (law : Always Moment calls) {fd : Int} (valid : 0 ≤ fd) :
    calls.count (.socket fd) = calls.count (.close fd) + opened calls fd := by
  have legal : Always LegalRef (calls.filterMap Call.fdOp) := by
    refine law.filterMap fun past now op moment means => ?_
    cases now with
    | socket ret =>
        simp only [Call.fdOp, Option.ite_none_right_eq_some, Option.some.injEq] at means
        obtain ⟨-, rfl⟩ := means
        trivial
    | close closed =>
        cases means
        exact moment
    | _ => cases means
  rw [← count_means Call.fdOp (fdOp_eq_take valid), ← count_means Call.fdOp fdOp_eq_drop]
  exact count_take_eq legal fd

/-- Between executions no descriptor is open. -/
def Settled (w : World) : Prop := ∀ fd, opened w.calls fd = 0

/-- `w'` has made calls since `w` that open and close nothing, submit nothing, and
meet the law whenever they are made. -/
structure Quiet (w w' : World) : Prop where
  clientFd : w'.clientFd = w.clientFd
  submitted : w'.submitted = w.submitted
  opened : ∀ fd, opened w'.calls fd = opened w.calls fd
  law : Always Moment w'.calls ↔ Always Moment w.calls
  submits : w'.calls.count .submit = w.calls.count .submit

namespace Quiet

theorem refl (w : World) : Quiet w w := ⟨rfl, rfl, fun _ => rfl, Iff.rfl, rfl⟩

theorem trans {w₁ w₂ w₃ : World} (first : Quiet w₁ w₂) (second : Quiet w₂ w₃) : Quiet w₁ w₃ where
  clientFd := second.clientFd.trans first.clientFd
  submitted := second.submitted.trans first.submitted
  opened fd := (second.opened fd).trans (first.opened fd)
  law := second.law.trans first.law
  submits := second.submits.trans first.submits

theorem settled {w w' : World} (quiet : Quiet w w') (settled : Settled w) : Settled w' := by
  intro fd
  rw [quiet.opened, settled]

/-- One such call. -/
theorem call (w : World) (c : Call) (other : c.fdOp = none) (free : ∀ past, Moment past c)
    (notSubmit : c ≠ .submit) : Quiet w (w.call c) where
  clientFd := rfl
  submitted := rfl
  opened fd := opened_other w.calls fd other
  law := always_snoc.trans (and_iff_left (free w.calls))
  submits := by simp [List.count_append, notSubmit]

theorem sendLoop (w : World) (send : Nat → Int) (i packetsToSend : Nat) :
    Quiet w (sendLoop w send i packetsToSend).1 := by
  fun_induction UdpOnOff.sendLoop w send i packetsToSend with
  | case1 w i rest more w' failed =>
      exact call w (.send w.clientFd (pkgOut rest) (send i)) rfl (fun _ => trivial) (by simp)
  | case2 w i rest more w' sent ih =>
      have sending : Quiet w w' :=
        call w (.send w.clientFd (pkgOut rest) (send i)) rfl (fun _ => trivial) (by simp)
      exact sending.trans ih
  | case3 w i rest done => exact refl w

theorem transmit (cfg : Config) (w : World) (o : Outcome) : Quiet w (transmit cfg w o).1 := by
  have sent := sendLoop w o.send 0 (packetsToSend cfg.uploadSize)
  unfold UdpOnOff.transmit
  dsimp only
  split
  · cases o.received cfg with
    | some ret => exact sent.trans (call _ (.recv _ _ ret) rfl (fun _ => trivial) (by simp))
    | none => exact sent
  · exact sent

end Quiet

/-! ## The `recv` after the payload -/

/-- On a socket `recv` returns if something comes, or at the timeout. -/
theorem received_isSome {cfg : Config} {o : Outcome} (socket : 0 ≤ o.socket) :
    (o.received cfg).isSome ↔ o.recv ≠ none ∨ o.TimesOut cfg := by
  have open_ : ¬ o.socket < 0 := Int.not_lt.mpr socket
  cases recv : o.recv with
  | some ret => simp [Outcome.received, recv]
  | none =>
      by_cases timeout : o.TimesOut cfg
      · simp [Outcome.received, recv, timeout]
      · simp [Outcome.received, recv, timeout, open_]

/-- Without a socket it returns whatever comes. -/
theorem received_noSocket {cfg : Config} {o : Outcome} (noSocket : o.socket < 0) :
    (o.received cfg).isSome := by
  cases recv : o.recv with
  | some ret => simp [Outcome.received, recv]
  | none => simp [Outcome.received, recv, noSocket]

/-- `workerror` is reached unless `recv` is called and does not return. -/
theorem transmit_reaches_iff (cfg : Config) (w : World) (o : Outcome) :
    (transmit cfg w o).2 = true ↔
      (cfg.receive = true → ¬ Fails (packetsToSend cfg.uploadSize) o.send →
        (o.received cfg).isSome) := by
  have left := sendLoop_fails_iff w o.send 0 (packetsToSend cfg.uploadSize)
  simp only [Nat.zero_add] at left
  rw [← left, Bool.not_eq_false, transmit]
  cases sent : (sendLoop w o.send 0 (packetsToSend cfg.uploadSize)).2 with
  | false => simp
  | true =>
      cases cfg.receive with
      | false => simp
      | true => cases o.received cfg <;> simp

theorem transmit_reaches_iff_returns (cfg : Config) (w : World) {o : Outcome}
    (socket : 0 ≤ o.socket) : (transmit cfg w o).2 = true ↔ o.Returns cfg := by
  rw [transmit_reaches_iff, received_isSome socket]
  rfl

/-! ## One execution -/

/-- `workerror` closes `client_fd`, switches the modem off and submits the work. -/
theorem workerror_eq (cfg : Config) (w : World) :
    ∃ w', Quiet (serverDisconnect w) w' ∧
      workerror cfg w = { w'.call .submit with submitted := true } := by
  unfold workerror
  cases cfg.cfun0Off with
  | true =>
      have off := Quiet.call (serverDisconnect w) .lteLcPowerOff rfl (fun _ => trivial) (by simp)
      exact ⟨_, off.trans (.call _ .lteLcCeregSetup rfl (fun _ => trivial) (by simp)), rfl⟩
  | false =>
      exact ⟨_, .call _ .lteLcOffline rfl (fun _ => trivial) (by simp), rfl⟩

theorem submitted_workerror (cfg : Config) (w : World) : (workerror cfg w).submitted = true := by
  obtain ⟨w', -, same⟩ := workerror_eq cfg w
  rw [same]

theorem opened_workerror (cfg : Config) (w : World) (fd : Int) :
    opened (workerror cfg w).calls fd =
      if w.clientFd = fd then opened w.calls fd - 1 else opened w.calls fd := by
  obtain ⟨w', quiet, same⟩ := workerror_eq cfg w
  rw [same, call_calls, opened_other _ _ rfl, quiet.opened, serverDisconnect, call_calls,
    opened_close]

theorem submits_workerror (cfg : Config) (w : World) :
    (workerror cfg w).calls.count .submit = w.calls.count .submit + 1 := by
  obtain ⟨w', quiet, same⟩ := workerror_eq cfg w
  rw [same, call_calls, List.count_append, quiet.submits, serverDisconnect, call_calls,
    List.count_append]
  rfl

/-- At `workerror` nothing but `client_fd` can be open; the law then asks that it is. -/
theorem law_workerror (cfg : Config) {w : World}
    (onlyClient : ∀ fd, opened w.calls fd ≤ if w.clientFd = fd then 1 else 0) :
    Always Moment (workerror cfg w).calls ↔
      Always Moment w.calls ∧ 0 < opened w.calls w.clientFd := by
  have closed (fd : Int) := opened_workerror cfg w fd
  obtain ⟨w', quiet, same⟩ := workerror_eq cfg w
  have disconnected : Always Moment w'.calls ↔
      Always Moment w.calls ∧ 0 < opened w.calls w.clientFd :=
    quiet.law.trans always_snoc
  rw [same, call_calls, always_snoc, disconnected]
  refine and_iff_left_of_imp fun law fd valid => ?_
  have released : opened w'.calls fd = 0 := by
    have room := onlyClient fd
    have after := closed fd
    rw [same, call_calls, opened_other _ _ rfl] at after
    split at after <;> simp_all
  rw [count_socket (disconnected.mpr law) valid, released, Nat.add_zero]

/-- `server_connect` from a state in which nothing is open, where both calls
succeed: it returns 0 and `client_fd` is the one descriptor that is open. -/
theorem serverConnect_connects {w : World} (settled : Settled w) {o : Outcome}
    (connects : o.Connects) {w' : World} {ret : Int} (returned : serverConnect w o = (w', ret)) :
    ret = 0 ∧ w'.clientFd = o.socket ∧ w'.submitted = w.submitted ∧
      (∀ fd, opened w'.calls fd = if o.socket = fd then 1 else 0) ∧
      w'.calls.count .submit = w.calls.count .submit ∧
      (Always Moment (w'.call (.serverConnect 0 o.socket)).calls ↔ Always Moment w.calls) := by
  obtain ⟨socket, connect⟩ := connects
  simp only [serverConnect, if_neg (Int.not_lt.mpr socket), if_neg (Int.not_lt.mpr connect),
    Prod.mk.injEq] at returned
  obtain ⟨rfl, rfl⟩ := returned
  have open_ (fd : Int) : opened (w.calls ++ [Call.socket o.socket] ++
      [Call.setsockopt o.socket o.setsockopt] ++ [Call.connect o.socket o.connect]) fd =
        if o.socket = fd then 1 else 0 := by
    rw [opened_other _ _ rfl, opened_other _ _ rfl, opened_socket _ _ socket, settled fd]
  refine ⟨rfl, rfl, rfl, open_, by simp [World.call, List.count_append], ?_⟩
  constructor
  · intro law
    simp only [call_calls, always_snoc] at law
    exact law.1.1.1.1
  · intro law
    simp only [call_calls, always_snoc]
    refine ⟨⟨⟨⟨law, trivial⟩, trivial⟩, trivial⟩, fun _ => ⟨?_, ?_⟩⟩
    · rw [open_, if_pos rfl]
      exact Nat.one_pos
    · rw [present_snoc, Call.connects, if_pos connect]

/-- Where one of the calls fails, `server_connect` leaves nothing open, and returns 0 at
most without a socket. -/
theorem serverConnect_fails {w : World} (settled : Settled w) {o : Outcome}
    (fails : ¬ o.Connects) :
    Settled (serverConnect w o).1 ∧
      (serverConnect w o).1.calls.count .submit = w.calls.count .submit ∧
      ((serverConnect w o).2 = 0 → o.socket < 0) := by
  unfold serverConnect
  by_cases noSocket : o.socket < 0
  · have failed : (Call.socket o.socket).fdOp = none := if_neg (Int.not_le.mpr noSocket)
    simp only [if_pos noSocket]
    refine ⟨fun fd => ?_, by simp [serverDisconnect, World.call, List.count_append],
      fun _ => noSocket⟩
    simp only [serverDisconnect, call_calls, opened_close]
    rw [opened_other _ _ failed, settled]
    split <;> rfl
  · have connect : o.connect < 0 := by
      by_contra connects
      exact fails ⟨Int.not_lt.mp noSocket, Int.not_lt.mp connects⟩
    simp only [if_neg noSocket, if_pos connect]
    refine ⟨fun fd => ?_, by simp [serverDisconnect, World.call, List.count_append],
      fun zero => absurd connect (by omega)⟩
    simp only [serverDisconnect, call_calls, call_clientFd, opened_close]
    rw [opened_other _ _ rfl, opened_other _ _ rfl, opened_socket _ _ (Int.not_lt.mp noSocket),
      settled]
    split <;> rfl

/-- Where the calls succeed, the execution comes to `transmit` with one socket. -/
theorem execution_connects (cfg : Config) {w : World} (settled : Settled w) {o : Outcome}
    (connects : o.Connects) :
    ∃ w', w'.clientFd = o.socket ∧ w'.submitted = w.submitted ∧
      (∀ fd, opened w'.calls fd = if o.socket = fd then 1 else 0) ∧
      w'.calls.count .submit = w.calls.count .submit ∧
      (Always Moment w'.calls ↔ Always Moment w.calls) ∧
      serverTransmissionWorkFn cfg w o =
        if (transmit cfg w' o).2 then workerror cfg (transmit cfg w' o).1
        else (transmit cfg w' o).1 := by
  have attached := Quiet.call w .lteLcConnectAsync rfl (fun _ => trivial) (by simp)
  rcases returned : serverConnect (w.call .lteLcConnectAsync) o with ⟨w', ret⟩
  obtain ⟨rfl, client, submitted, open_, submits, law⟩ :=
    serverConnect_connects (attached.settled settled) connects returned
  refine ⟨w'.call (.serverConnect 0 o.socket), client, submitted, fun fd => ?_, ?_,
    law.trans attached.law, ?_⟩
  · rw [call_calls, opened_other _ _ rfl, open_]
  · rw [call_calls, List.count_append, submits, attached.submits]
    rfl
  · simp only [serverTransmissionWorkFn, returned, ne_eq, not_true_eq_false, if_false, client]

/-- Where one of the calls fails, it comes to `workerror` with nothing open. -/
theorem execution_fails (cfg : Config) {w : World} (settled : Settled w) {o : Outcome}
    (fails : ¬ o.Connects) :
    ∃ w', Settled w' ∧ w'.calls.count .submit = w.calls.count .submit ∧
      serverTransmissionWorkFn cfg w o = workerror cfg w' := by
  have attached := Quiet.call w .lteLcConnectAsync rfl (fun _ => trivial) (by simp)
  obtain ⟨closed, submits, unassigned⟩ := serverConnect_fails (attached.settled settled) fails
  unfold serverTransmissionWorkFn
  dsimp only
  generalize serverConnect (w.call .lteLcConnectAsync) o = returned at *
  have opened_ : Settled (returned.1.call (.serverConnect returned.2 returned.1.clientFd)) := by
    intro fd
    rw [call_calls, opened_other _ _ rfl, closed]
  have submits_ : (returned.1.call (.serverConnect returned.2 returned.1.clientFd)).calls.count
      .submit = w.calls.count .submit := by
    rw [call_calls, List.count_append, submits, attached.submits]
    rfl
  by_cases failed : returned.2 ≠ 0
  · rw [if_pos failed]
    exact ⟨_, opened_, submits_, rfl⟩
  · -- the unassigned `err` is 0, and the calls on descriptor -1 fail
    have noSocket : o.socket < 0 := unassigned (not_not.mp failed)
    have reaches := (transmit_reaches_iff cfg
      (returned.1.call (.serverConnect returned.2 returned.1.clientFd)) o).mpr
        fun _ _ => received_noSocket noSocket
    have sent := Quiet.transmit cfg
      (returned.1.call (.serverConnect returned.2 returned.1.clientFd)) o
    rw [if_neg failed, if_pos reaches]
    exact ⟨_, sent.settled opened_, sent.submits.trans submits_, rfl⟩

/-- **One execution** that returns, from a state in which nothing is open: nothing is
open afterwards, the work is submitted once, and the law is kept exactly where `socket`
and `connect` succeed. -/
theorem execution_spec (cfg : Config) {w : World} (settled : Settled w) {o : Outcome}
    (returns : o.Connects → o.Returns cfg) :
    Settled (serverTransmissionWorkFn cfg w o) ∧
      (serverTransmissionWorkFn cfg w o).submitted = true ∧
      (serverTransmissionWorkFn cfg w o).calls.count .submit = w.calls.count .submit + 1 ∧
      (Always Moment (serverTransmissionWorkFn cfg w o).calls ↔
        Always Moment w.calls ∧ o.Connects) := by
  by_cases connects : o.Connects
  · obtain ⟨w', client, -, open_, submits, law, same⟩ := execution_connects cfg settled connects
    have reaches := (transmit_reaches_iff_returns cfg w' connects.1).mpr (returns connects)
    have sent := Quiet.transmit cfg w' o
    rw [same, if_pos reaches]
    generalize (transmit cfg w' o).1 = t at sent
    have clientFd : t.clientFd = o.socket := sent.clientFd.trans client
    have openT (fd : Int) : opened t.calls fd = if t.clientFd = fd then 1 else 0 := by
      rw [sent.opened, open_, clientFd]
    refine ⟨fun fd => ?_, submitted_workerror cfg t, ?_, ?_⟩
    · rw [opened_workerror, openT]
      split <;> rfl
    · rw [submits_workerror, sent.submits, submits]
    · rw [law_workerror cfg fun fd => Nat.le_of_eq (openT fd), sent.law, law, openT, if_pos rfl]
      exact and_congr_right fun _ => iff_of_true Nat.one_pos connects
  · obtain ⟨t, closed, submits, same⟩ := execution_fails cfg settled connects
    rw [same]
    refine ⟨fun fd => ?_, submitted_workerror cfg t, ?_, ?_⟩
    · rw [opened_workerror, closed]
      split <;> rfl
    · rw [submits_workerror, submits]
    · rw [law_workerror cfg fun fd => by simp [closed fd]]
      exact iff_of_false (fun law => by simp [closed t.clientFd] at law) fun law => connects law.2

/-- An execution in which `recv` does not return submits nothing. -/
theorem execution_blocks (cfg : Config) {w : World} (settled : Settled w) {o : Outcome}
    (connects : o.Connects) (blocks : ¬ o.Returns cfg) :
    (serverTransmissionWorkFn cfg w o).submitted = w.submitted ∧
      (serverTransmissionWorkFn cfg w o).calls.count .submit = w.calls.count .submit := by
  obtain ⟨w', -, submitted, -, submits, -, same⟩ := execution_connects cfg settled connects
  have stays := mt (transmit_reaches_iff_returns cfg w' connects.1).mp blocks
  have sent := Quiet.transmit cfg w' o
  rw [same, if_neg stays]
  exact ⟨sent.submitted.trans submitted, sent.submits.trans submits⟩

/-! ## Every number of executions -/

/-- Every execution has returned. -/
structure Running (cfg : Config) (outcomes : List Outcome) (w : World) : Prop where
  settled : Settled w
  submitted : w.submitted = true
  submits : w.calls.count .submit = outcomes.length
  law : Always Moment w.calls ↔ ∀ o ∈ outcomes, o.Connects
  returned : ∀ o ∈ outcomes, o.Connects → o.Returns cfg

/-- One of them has not, and none follows. -/
structure Blocked (cfg : Config) (outcomes : List Outcome) (w : World) : Prop where
  submitted : w.submitted = false
  submits : w.calls.count .submit < outcomes.length
  blocks : ∃ o ∈ outcomes, ¬ o.Returns cfg

theorem Running.next {cfg : Config} {outcomes : List Outcome} {w : World}
    (running : Running cfg outcomes w) {o : Outcome} (returns : o.Connects → o.Returns cfg) :
    Running cfg (outcomes ++ [o]) (execute cfg w o) := by
  have settled : Settled { w with submitted := false } := running.settled
  obtain ⟨settled', submitted', submits', law'⟩ := execution_spec cfg settled returns
  rw [execute, if_pos running.submitted]
  refine ⟨settled', submitted', ?_, ?_, ?_⟩
  · rw [submits', running.submits, List.length_append, List.length_singleton]
  · rw [law', running.law]
    simp [or_imp, forall_and]
  · intro other member
    rcases List.mem_append.mp member with early | last
    · exact running.returned other early
    · rwa [List.mem_singleton.mp last]

theorem Running.block {cfg : Config} {outcomes : List Outcome} {w : World}
    (running : Running cfg outcomes w) {o : Outcome} (connects : o.Connects)
    (blocks : ¬ o.Returns cfg) : Blocked cfg (outcomes ++ [o]) (execute cfg w o) := by
  have settled : Settled { w with submitted := false } := running.settled
  obtain ⟨submitted, submits⟩ := execution_blocks cfg settled connects blocks
  rw [execute, if_pos running.submitted]
  refine ⟨submitted, ?_, o, by simp, blocks⟩
  rw [submits, running.submits, List.length_append, List.length_singleton]
  exact Nat.lt_succ_self _

theorem Blocked.next {cfg : Config} {outcomes : List Outcome} {w : World}
    (blocked : Blocked cfg outcomes w) (o : Outcome) :
    Blocked cfg (outcomes ++ [o]) (execute cfg w o) := by
  obtain ⟨stuck, member, blocks⟩ := blocked.blocks
  rw [execute, if_neg (by simp [blocked.submitted])]
  refine ⟨blocked.submitted, ?_, stuck, by simp [member], blocks⟩
  rw [List.length_append]
  exact Nat.lt_add_right 1 blocked.submits

theorem executions_spec (cfg : Config) (outcomes : List Outcome) :
    Running cfg outcomes (executions cfg outcomes) ∨
      Blocked cfg outcomes (executions cfg outcomes) := by
  induction outcomes using List.reverseRecOn with
  | nil => exact Or.inl ⟨fun _ => rfl, rfl, rfl, by simp [executions, start, always_nil], by simp⟩
  | append_singleton outcomes o ih =>
      have last : executions cfg (outcomes ++ [o]) = execute cfg (executions cfg outcomes) o := by
        simp [executions]
      rw [last]
      rcases ih with running | blocked
      · by_cases returns : o.Connects → o.Returns cfg
        · exact Or.inl (running.next returns)
        · obtain ⟨connects, blocks⟩ := Classical.not_imp.mp returns
          exact Or.inr (running.block connects blocks)
      · exact Or.inr (blocked.next o)

/-- **The descriptors of the on/off uploader** are handled as they should, and the work is
submitted again, over any number of executions, exactly when in each `socket` and `connect`
succeed and `recv` returns. -/
theorem sockets_orderly_iff (cfg : Config) (outcomes : List Outcome) :
    Orderly outcomes.length (executions cfg outcomes) ↔
      ∀ o ∈ outcomes, o.Connects ∧ o.Returns cfg := by
  rcases executions_spec cfg outcomes with running | blocked
  · constructor
    · intro orderly o member
      have connects := running.law.mp orderly.moments o member
      exact ⟨connects, running.returned o member connects⟩
    · intro good
      exact ⟨running.law.mpr fun o member => (good o member).1, running.submits⟩
  · obtain ⟨o, member, blocks⟩ := blocked.blocks
    refine iff_of_false (fun orderly => ?_) fun good => blocks (good o member).2
    have fewer := blocked.submits
    rw [orderly.submitted] at fewer
    exact Nat.lt_irrefl _ fewer

/-- `connect` fails in the only execution. -/
def unreachableServer : Outcome := ⟨3, 0, -1, 0, fun _ => 0, none⟩

/-- **A failed `connect` closes its descriptor twice.** -/
theorem failed_connect_closes_twice :
    ¬ ∀ cfg outcomes, Orderly outcomes.length (executions cfg outcomes) := by
  intro everyRun
  have orderly := everyRun ⟨1000, true, false, 2⟩ [unreachableServer]
  have refused : ¬ unreachableServer.Connects := by decide
  rcases executions_spec ⟨1000, true, false, 2⟩ [unreachableServer] with running | blocked
  · exact refused (running.law.mp orderly.moments unreachableServer (by simp))
  · have fewer := blocked.submits
    rw [orderly.submitted] at fewer
    exact Nat.lt_irrefl _ fewer

end NcsExp.UdpOnOff
