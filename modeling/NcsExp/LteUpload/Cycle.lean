/-
# NcsExp.LteUpload.Cycle -- the executions of the periodic upload

`lp_udp_cfun_1_4/src/main.c`: `server_transmission_work_fn` attaches the modem, waits
for the registration, connects a socket and sends its packets; `workerror` closes
the socket, switches the modem offline and schedules the work again.  A failure of
`server_connect` returns instead of going to `workerror`, so the modem stays on and
the work is never scheduled again; its own error exit closes `client_fd`, which is
-1 when `socket` failed.  The loop that empties the socket before each packet goes on
as long as `recv` returns data.  And where `setsockopt` failed, the `recv` after a
packet waits for an answer that may never come.

An execution is a function of what its calls return (`Outcome`), with fuel for the
emptying loops.  `upload_cycle_iff`: the cycle goes on, each execution ending as it
should, exactly when in every execution `socket` and `connect` succeed, each emptying
loop that is reached comes to an end, and each packet sent is answered or the socket has
a receive timeout (`Outcome.Completes`).
-/
import NcsExp.Theory.References

namespace NcsExp.LteUpload

open NcsExp.Theory

set_option autoImplicit false

/-! ## The work -/

/-- The part of the configuration that decides what the work does. -/
structure Config where
  /-- CONFIG_UDP_DATA_UPLOAD_SIZE_BYTES -/
  uploadSize : Nat
  /-- CONFIG_UDP_TOTAL_DATA_KB -/
  totalDataKb : Nat
  /-- CONFIG_UDP_RECV_TIMEOUT_SECONDS; 0 is no timeout. -/
  recvTimeoutSeconds : Nat

/-- What the calls of one execution return.  `waits` has one entry for each wait of 5
seconds that times out, the value of `gs_clear_modem_reset_flag` then; `drain k j` is
the `recv` number `j` before packet `k`, `reply k` what comes for the one after it,
`none` if nothing comes. -/
structure Outcome where
  connectAsync : Int
  waits : List Bool
  socket : Int
  errno : Int
  setsockopt : Int
  connect : Int
  drain : Nat → Nat → Int
  send : Nat → Int
  reply : Nat → Option Int
  offline : Int
  /-- `errno` after a call that failed. -/
  errnoSet : 0 < errno

/-- The socket has a receive timeout, `NRF_SO_RCVTIMEO`. -/
def Outcome.TimesOut (cfg : Config) (o : Outcome) : Prop :=
  o.setsockopt = 0 ∧ 0 < cfg.recvTimeoutSeconds

instance (cfg : Config) (o : Outcome) : Decidable (o.TimesOut cfg) :=
  inferInstanceAs (Decidable (_ ∧ _))

/-- The `recv` after packet `k`: if nothing comes it fails at the receive timeout, and
does not return (`none`) where there is none. -/
def Outcome.received (cfg : Config) (o : Outcome) (k : Nat) : Option Int :=
  match o.reply k with
  | some ret => some ret
  | none => if o.TimesOut cfg then some (-1) else none

/-- A call with what it returned. -/
inductive Call
  | lteLcConnectAsync (ret : Int)
  | semTake (taken : Bool)
  | socket (ret : Int)
  | setsockopt (fd ret : Int)
  | connect (fd ret : Int)
  | recv (fd : Int) (len : Nat) (ret : Int)
  | send (fd : Int) (len : Nat) (ret : Int)
  | close (fd : Int)
  | lteLcOffline (ret : Int)
  | schedule
  deriving DecidableEq

/-- The global `client_fd`, whether the work is scheduled, and the calls made. -/
structure World where
  clientFd : Int
  scheduled : Bool
  calls : List Call

def World.call (w : World) (c : Call) : World := { w with calls := w.calls ++ [c] }

/-- How an execution goes: it returns, the device reboots, or it is still running, as the
fuel is too little or `recv` does not return. -/
inductive Exit
  | returned (w : World)
  | rebooted
  | running

/-- The registration wait, lines 149-165. -/
def waitRegistered (w : World) : List Bool → Option World
  | [] => some (w.call (.semTake true))
  | reset :: waits =>
      if reset then none else waitRegistered (w.call (.semTake false)) waits

/-- `server_disconnect`, lines 407-410. -/
def serverDisconnect (w : World) : World := w.call (.close w.clientFd)

/-- `server_connect`, lines 425-465, with what it returns. -/
def serverConnect (w : World) (o : Outcome) : World × Int :=
  let w := { w.call (.socket o.socket) with clientFd := o.socket }
  if o.socket < 0 then (serverDisconnect w, -o.errno)
  else
    let w := (w.call (.setsockopt o.socket o.setsockopt)).call (.connect o.socket o.connect)
    if o.connect < 0 then (serverDisconnect w, o.connect) else (w, 0)

/-- The emptying loop, lines 189-192. -/
def drainLoop (cfg : Config) (drain : Nat → Int) : Nat → World → Nat → Option World
  | 0, _, _ => none
  | fuel + 1, w, j =>
      let w := w.call (.recv w.clientFd cfg.uploadSize (drain j))
      if 0 < drain j then drainLoop cfg drain fuel w (j + 1) else some w

/-- The packet loop, lines 185-218; if it ends then at `workerror`. -/
def packetLoop (cfg : Config) (o : Outcome) (fuel : Nat) (w : World) (cnt : Nat) : Option World :=
  if cnt < cfg.totalDataKb then
    (drainLoop cfg (o.drain cnt) fuel w 0).bind fun w =>
      let w := w.call (.send w.clientFd cfg.uploadSize (o.send cnt))
      if o.send cnt < 0 then some w
      else
        (o.received cfg cnt).bind fun err =>
          let w := w.call (.recv w.clientFd cfg.uploadSize err)
          if err < 0 then some w else packetLoop cfg o fuel w (cnt + 1)
  else some w
termination_by cfg.totalDataKb - cnt

/-- What follows `workerror`, lines 220-228. -/
def workerror (w : World) (o : Outcome) : World :=
  let w := (serverDisconnect w).call (.lteLcOffline o.offline)
  { w.call .schedule with scheduled := true }

/-- `server_transmission_work_fn`, lines 139-229; `server_init` returns 0. -/
def serverTransmissionWorkFn (cfg : Config) (fuel : Nat) (w : World) (o : Outcome) : Exit :=
  match waitRegistered (w.call (.lteLcConnectAsync o.connectAsync)) o.waits with
  | none => .rebooted
  | some w =>
      let connected := serverConnect w o
      if connected.2 ≠ 0 then .returned connected.1
      else
        match packetLoop cfg o fuel connected.1 0 with
        | none => .running
        | some w => .returned (workerror w o)

/-- After `main`: the work is scheduled. -/
def start : World := ⟨0, true, []⟩

/-- The scheduled work runs and returns. -/
def Ends (cfg : Config) (w : World) (o : Outcome) (w' : World) : Prop :=
  w.scheduled = true ∧
    ∃ fuel, serverTransmissionWorkFn cfg fuel { w with scheduled := false } o = .returned w'

/-! ## The law -/

/-- What a call does to the open descriptors. -/
def Call.fdOp : Call → Option (RefOp Int)
  | .socket ret => if 0 ≤ ret then some (.take ret) else none
  | .close fd => some (.drop fd)
  | _ => none

/-- How often `fd` is open. -/
def opened (calls : List Call) (fd : Int) : Nat := held (calls.filterMap Call.fdOp) fd

/-- Only a descriptor that these calls opened is closed. -/
def OwnClose (past : List Call) : Call → Prop
  | .close fd => 0 < opened past fd
  | _ => True

/-- How the calls of one execution should be. -/
structure CleanEnd (own : List Call) : Prop where
  closedOnce : ∀ fd, 0 ≤ fd → .socket fd ∈ own → own.count (.close fd) = 1
  ownClose : Always OwnClose own
  offline : ∃ ret, .lteLcOffline ret ∈ own
  scheduled : own.count .schedule = 1

/-- At most one socket is open after these calls. -/
def AtMostOne (calls : List Call) : Prop :=
  ∃ s : Option Int, ∀ fd, opened calls fd = if s = some fd then 1 else 0

/-- One execution after the other, each started by the work that was scheduled
before and each ending as it should. -/
inductive Cycle (cfg : Config) : List Outcome → World → Prop
  | start : Cycle cfg [] start
  | next {outcomes : List Outcome} {w w' : World} {o : Outcome} {own : List Call}
      (before : Cycle cfg outcomes w) (ends : Ends cfg w o w') (calls : w'.calls = w.calls ++ own)
      (clean : CleanEnd own) : Cycle cfg (outcomes ++ [o]) w'

/-- The cycle has gone on through these executions, goes on, and never had two
sockets open. -/
def GoesOn (cfg : Config) (outcomes : List Outcome) : Prop :=
  ∃ w, Cycle cfg outcomes w ∧ w.scheduled = true ∧ Always (fun past _ => AtMostOne past) w.calls

/-- The registration came before a reset was asked for. -/
def Outcome.PassesWait (o : Outcome) : Prop := ∀ reset ∈ o.waits, reset = false

instance (o : Outcome) : Decidable o.PassesWait :=
  inferInstanceAs (Decidable (∀ reset ∈ o.waits, reset = false))

/-- Packet `i` is sent and answered. -/
def Outcome.Answered (o : Outcome) (i : Nat) : Prop :=
  0 ≤ o.send i ∧ ∃ ret, o.reply i = some ret ∧ 0 ≤ ret

/-- Before packet `k` the socket is empty at some time, and if the packet is sent then
something comes or the socket has a receive timeout. -/
def Outcome.Passes (cfg : Config) (o : Outcome) (k : Nat) : Prop :=
  (∃ j, o.drain k j ≤ 0) ∧ (0 ≤ o.send k → o.reply k ≠ none ∨ o.TimesOut cfg)

/-- A socket is connected, and each packet that is reached is got past. -/
structure Outcome.Completes (cfg : Config) (o : Outcome) : Prop where
  socket : 0 ≤ o.socket
  connect : 0 ≤ o.connect
  passes : ∀ k < cfg.totalDataKb, (∀ i < k, o.Answered i) → o.Passes cfg k

/-! ## What the loops add to the log -/

/-- Calls that neither open, close nor schedule. -/
def Call.Plain : Call → Prop
  | .socket _ | .close _ | .schedule => False
  | _ => True

theorem plain_append {first second : List Call} (plain : ∀ c ∈ first, c.Plain)
    (plain' : ∀ c ∈ second, c.Plain) : ∀ c ∈ first ++ second, c.Plain := by
  intro c member
  rcases List.mem_append.mp member with early | late
  · exact plain c early
  · exact plain' c late

/-- The same program state with more calls made. -/
def World.after (w : World) (new : List Call) : World := { w with calls := w.calls ++ new }

@[simp] theorem call_eq_after (w : World) (c : Call) : w.call c = w.after [c] := rfl

@[simp] theorem after_after (w : World) (first second : List Call) :
    (w.after first).after second = w.after (first ++ second) := by
  simp [World.after]

@[simp] theorem after_clientFd (w : World) (new : List Call) :
    (w.after new).clientFd = w.clientFd := rfl

/-- The calls of the registration wait. -/
def waitCalls (waits : List Bool) : List Call :=
  waits.map (fun _ => Call.semTake false) ++ [Call.semTake true]

theorem waitRegistered_passes (w : World) {waits : List Bool}
    (passes : ∀ reset ∈ waits, reset = false) :
    waitRegistered w waits = some (w.after (waitCalls waits)) := by
  induction waits generalizing w with
  | nil => rfl
  | cons reset waits ih =>
      have clear : reset = false := passes reset (by simp)
      rw [waitRegistered, clear, if_neg Bool.false_ne_true,
        ih _ fun later member => passes later (by simp [member])]
      simp [waitCalls]

section

variable {cfg : Config} {drain : Nat → Int} {fuel fuel' : Nat} {w w' : World} {j : Nat}

theorem drainLoop_mono (more : fuel ≤ fuel') (ended : drainLoop cfg drain fuel w j = some w') :
    drainLoop cfg drain fuel' w j = some w' := by
  induction fuel generalizing fuel' w j with
  | zero => cases ended
  | succ fuel ih =>
      obtain ⟨rest, rfl⟩ : ∃ rest, fuel' = rest + 1 := ⟨fuel' - 1, by omega⟩
      simp only [drainLoop] at ended ⊢
      split
      · rename_i data
        rw [if_pos data] at ended
        exact ih (by omega) ended
      · rename_i empty
        rwa [if_neg empty] at ended

/-- The emptying loop only receives. -/
theorem drainLoop_after (ended : drainLoop cfg drain fuel w j = some w') :
    ∃ new, w' = w.after new ∧ ∀ c ∈ new, c.Plain := by
  induction fuel generalizing w j with
  | zero => cases ended
  | succ fuel ih =>
      simp only [drainLoop, call_eq_after] at ended
      split at ended
      · obtain ⟨new, rfl, plain⟩ := ih ended
        refine ⟨_, after_after _ _ _, ?_⟩
        intro c member
        rcases List.mem_cons.mp member with rfl | later
        · trivial
        · exact plain c later
      · cases ended
        exact ⟨_, rfl, by simp [Call.Plain]⟩

/-- It ends once `recv` finds nothing. -/
theorem drainLoop_ends {n : Nat} (empty : drain (j + n) ≤ 0) (w : World) :
    ∃ fuel w', drainLoop cfg drain fuel w j = some w' := by
  induction n generalizing j w with
  | zero => exact ⟨1, _, if_neg (Int.not_lt.mpr empty)⟩
  | succ n ih =>
      by_cases data : 0 < drain j
      · obtain ⟨fuel, w', ended⟩ := ih (j := j + 1) (by
          rw [Nat.add_right_comm]
          exact empty) (w.call (.recv w.clientFd cfg.uploadSize (drain j)))
        exact ⟨fuel + 1, w', (if_pos data).trans ended⟩
      · exact ⟨1, _, if_neg data⟩

/-- It goes on while `recv` finds something. -/
theorem drainLoop_runs (data : ∀ i, 0 < drain i) : drainLoop cfg drain fuel w j = none := by
  induction fuel generalizing w j with
  | zero => rfl
  | succ fuel ih => exact (if_pos (data j)).trans ih

end

/-- The `recv` after a packet returns if something comes, or at the timeout. -/
theorem received_isSome {cfg : Config} {o : Outcome} {k : Nat} :
    (∃ err, o.received cfg k = some err) ↔ o.reply k ≠ none ∨ o.TimesOut cfg := by
  cases reply : o.reply k with
  | some ret => simp [Outcome.received, reply]
  | none =>
      by_cases timeout : o.TimesOut cfg
      · simp [Outcome.received, reply, timeout]
      · simp [Outcome.received, reply, timeout]

/-- What it returns without an error has come. -/
theorem reply_of_received {cfg : Config} {o : Outcome} {k : Nat} {err : Int}
    (received : o.received cfg k = some err) (valid : 0 ≤ err) : o.reply k = some err := by
  cases reply : o.reply k with
  | some ret => simpa [Outcome.received, reply] using received
  | none =>
      have late : -1 = err := by
        simp only [Outcome.received, reply, Option.ite_none_right_eq_some, Option.some.injEq]
          at received
        exact received.2
      omega

/-- From packet `cnt` on, each packet that is reached is got past. -/
def PassesFrom (cfg : Config) (o : Outcome) (cnt : Nat) : Prop :=
  ∀ k, cnt ≤ k → k < cfg.totalDataKb → (∀ i, cnt ≤ i → i < k → o.Answered i) → o.Passes cfg k

section

variable {cfg : Config} {o : Outcome} {fuel fuel' : Nat} {w w' : World} {cnt : Nat}

theorem PassesFrom.here (passes : PassesFrom cfg o cnt) (more : cnt < cfg.totalDataKb) :
    o.Passes cfg cnt :=
  passes cnt (Nat.le_refl cnt) more fun i above below => by omega

theorem PassesFrom.next (passes : PassesFrom cfg o cnt) (answered : o.Answered cnt) :
    PassesFrom cfg o (cnt + 1) := by
  intro k above below succeeded
  refine passes k (by omega) below fun i from_ to_ => ?_
  rcases Nat.eq_or_lt_of_le from_ with rfl | later
  · exact answered
  · exact succeeded i later to_

theorem PassesFrom.cons (first : o.Passes cfg cnt)
    (rest : o.Answered cnt → PassesFrom cfg o (cnt + 1)) : PassesFrom cfg o cnt := by
  intro k above below succeeded
  rcases Nat.eq_or_lt_of_le above with rfl | later
  · exact first
  · have answered := succeeded cnt (Nat.le_refl cnt) later
    exact rest answered k later below fun i from_ to_ => succeeded i (by omega) to_

/-- One round of the packet loop: the packet is not sent, or `recv` fails, or the loop goes on. -/
theorem packetLoop_eq_some (more : cnt < cfg.totalDataKb) :
    packetLoop cfg o fuel w cnt = some w' ↔
      ∃ w₁, drainLoop cfg (o.drain cnt) fuel w 0 = some w₁ ∧
        (o.send cnt < 0 ∧ w' = w₁.call (.send w₁.clientFd cfg.uploadSize (o.send cnt)) ∨
          0 ≤ o.send cnt ∧ ∃ err, o.received cfg cnt = some err ∧
            ∃ w₂, w₂ = (w₁.call (.send w₁.clientFd cfg.uploadSize (o.send cnt))).call
                (.recv w₁.clientFd cfg.uploadSize err) ∧
              (err < 0 ∧ w' = w₂ ∨
                0 ≤ err ∧ packetLoop cfg o fuel w₂ (cnt + 1) = some w')) := by
  rw [packetLoop, if_pos more, Option.bind_eq_some_iff]
  refine exists_congr fun w₁ => and_congr_right fun _ => ?_
  by_cases sent : o.send cnt < 0
  · simp [sent, Int.not_le.mpr sent, eq_comm]
  · have valid : 0 ≤ o.send cnt := Int.not_lt.mp sent
    rw [if_neg sent, Option.bind_eq_some_iff]
    simp only [sent, valid, false_and, false_or, true_and, exists_eq_left]
    refine exists_congr fun err => and_congr_right fun _ => ?_
    by_cases failed : err < 0
    · simp [failed, Int.not_le.mpr failed, eq_comm]
    · simp [failed, Int.not_lt.mp failed]

theorem packetLoop_done (done : ¬ cnt < cfg.totalDataKb) :
    packetLoop cfg o fuel w cnt = some w := by
  rw [packetLoop, if_neg done]

theorem packetLoop_mono (more : fuel ≤ fuel') (ended : packetLoop cfg o fuel w cnt = some w') :
    packetLoop cfg o fuel' w cnt = some w' := by
  induction remaining : cfg.totalDataKb - cnt generalizing w cnt with
  | zero =>
      have done : ¬ cnt < cfg.totalDataKb := by omega
      rwa [packetLoop_done done] at ended ⊢
  | succ left ih =>
      have open_ : cnt < cfg.totalDataKb := by omega
      have fewer : cfg.totalDataKb - (cnt + 1) = left := by omega
      rw [packetLoop_eq_some open_] at ended ⊢
      obtain ⟨w₁, drained, round⟩ := ended
      refine ⟨w₁, drainLoop_mono more drained, round.imp_right ?_⟩
      rintro ⟨sent, err, received, w₂, same, broken | ⟨replied, rest⟩⟩
      · exact ⟨sent, err, received, w₂, same, Or.inl broken⟩
      · exact ⟨sent, err, received, w₂, same, Or.inr ⟨replied, ih rest fewer⟩⟩

/-- The packet loop only sends and receives, and it got past each packet it reached. -/
theorem packetLoop_after (ended : packetLoop cfg o fuel w cnt = some w') :
    (∃ new, w' = w.after new ∧ ∀ c ∈ new, c.Plain) ∧ PassesFrom cfg o cnt := by
  induction rounds : cfg.totalDataKb - cnt generalizing w cnt with
  | zero =>
      have done : ¬ cnt < cfg.totalDataKb := by omega
      rw [packetLoop_done done] at ended
      cases ended
      exact ⟨⟨[], by simp [World.after], by simp⟩, fun k above below => absurd below (by omega)⟩
  | succ rounds ih =>
      have open_ : cnt < cfg.totalDataKb := by omega
      obtain ⟨w₁, drained, round⟩ := (packetLoop_eq_some open_).mp ended
      have first : ∃ j, o.drain cnt j ≤ 0 := by
        by_contra never
        have data (i : Nat) : 0 < o.drain cnt i := Int.not_le.mp fun empty => never ⟨i, empty⟩
        rw [drainLoop_runs data] at drained
        cases drained
      obtain ⟨emptied, rfl, plain⟩ := drainLoop_after drained
      rcases round with ⟨unsent, rfl⟩ | ⟨sent, err, received, w₂, rfl, round⟩
      · refine ⟨⟨emptied ++ [Call.send w.clientFd cfg.uploadSize (o.send cnt)], by simp, ?_⟩, ?_⟩
        · exact plain_append plain (by simp [Call.Plain])
        · have here : o.Passes cfg cnt := ⟨first, fun sent => absurd sent (by omega)⟩
          exact .cons here fun answered => absurd answered.1 (by omega)
      · have here : o.Passes cfg cnt := ⟨first, fun _ => received_isSome.mp ⟨err, received⟩⟩
        rcases round with ⟨broken, rfl⟩ | ⟨replied, rest⟩
        · refine ⟨⟨emptied ++ [Call.send w.clientFd cfg.uploadSize (o.send cnt),
            .recv w.clientFd cfg.uploadSize err], by simp, ?_⟩, ?_⟩
          · exact plain_append plain (by simp [Call.Plain])
          · refine .cons here ?_
            rintro ⟨-, ret, same, valid⟩
            obtain rfl : err = ret := by simpa [Outcome.received, same] using received.symm
            exact absurd valid (by omega)
        · obtain ⟨⟨new, rfl, plain'⟩, passes⟩ := ih rest (by omega)
          refine ⟨⟨emptied ++ [Call.send w.clientFd cfg.uploadSize (o.send cnt),
            .recv w.clientFd cfg.uploadSize err] ++ new, by simp, ?_⟩, ?_⟩
          · exact plain_append (plain_append plain (by simp [Call.Plain])) plain'
          · exact .cons here fun _ => passes

/-- With enough fuel it ends where it gets past each packet it reaches. -/
theorem packetLoop_ends (passes : PassesFrom cfg o cnt) (w : World) :
    ∃ fuel w', packetLoop cfg o fuel w cnt = some w' := by
  induction rounds : cfg.totalDataKb - cnt generalizing w cnt with
  | zero => exact ⟨0, w, packetLoop_done (by omega)⟩
  | succ rounds ih =>
      have open_ : cnt < cfg.totalDataKb := by omega
      obtain ⟨⟨j, empty⟩, returns⟩ := passes.here open_
      obtain ⟨fuel, w₁, drained⟩ : ∃ fuel w₁, drainLoop cfg (o.drain cnt) fuel w 0 = some w₁ :=
        drainLoop_ends (n := j) (by rwa [Nat.zero_add]) w
      by_cases sent : o.send cnt < 0
      · exact ⟨fuel, _, (packetLoop_eq_some open_).mpr ⟨w₁, drained, Or.inl ⟨sent, rfl⟩⟩⟩
      · have sent := Int.not_lt.mp sent
        obtain ⟨err, received⟩ := received_isSome.mpr (returns sent)
        by_cases failed : err < 0
        · exact ⟨fuel, _, (packetLoop_eq_some open_).mpr
            ⟨w₁, drained, Or.inr ⟨sent, err, received, _, rfl, Or.inl ⟨failed, rfl⟩⟩⟩⟩
        · have replied := Int.not_lt.mp failed
          obtain ⟨fuel', w', rest⟩ := ih
            (passes.next ⟨sent, err, reply_of_received received replied, replied⟩)
            ((w₁.call (.send w₁.clientFd cfg.uploadSize (o.send cnt))).call
              (.recv w₁.clientFd cfg.uploadSize err)) (by omega)
          exact ⟨max fuel fuel', w', (packetLoop_eq_some open_).mpr
            ⟨w₁, drainLoop_mono (Nat.le_max_left ..) drained, Or.inr ⟨sent, err, received, _, rfl,
              Or.inr ⟨replied, packetLoop_mono (Nat.le_max_right ..) rest⟩⟩⟩⟩

end

/-! ## One execution -/

/-- The calls up to the registration. -/
def attachCalls (o : Outcome) : List Call := .lteLcConnectAsync o.connectAsync :: waitCalls o.waits

/-- The calls of an execution that completes, `mid` being those on the socket. -/
def cycleCalls (o : Outcome) (mid : List Call) : List Call :=
  attachCalls o ++ [Call.socket o.socket] ++ mid ++
    [Call.close o.socket, .lteLcOffline o.offline, .schedule]

theorem plain_attachCalls (o : Outcome) : ∀ c ∈ attachCalls o, c.Plain := by
  intro c member
  simp only [attachCalls, waitCalls, List.mem_cons, List.mem_append, List.mem_map,
    List.not_mem_nil, or_false] at member
  rcases member with rfl | ⟨_, _, rfl⟩ | rfl <;> trivial

section

variable {cfg : Config} {o : Outcome} {fuel : Nat} {w w' : World}

/-- After the registration the execution connects, and goes on to `workerror` if that
succeeds. -/
theorem work_passes (passes : o.PassesWait) :
    serverTransmissionWorkFn cfg fuel w o =
      let connected := serverConnect (w.after (attachCalls o)) o
      if connected.2 ≠ 0 then .returned connected.1
      else
        match packetLoop cfg o fuel connected.1 0 with
        | none => .running
        | some w => .returned (workerror w o) := by
  rw [serverTransmissionWorkFn, waitRegistered_passes _ passes, call_eq_after, after_after]
  rfl

/-- The world with a connected socket. -/
def connectedWorld (w : World) (o : Outcome) : World :=
  { (w.after (attachCalls o)).after [.socket o.socket, .setsockopt o.socket o.setsockopt,
      .connect o.socket o.connect] with clientFd := o.socket }

theorem serverConnect_connects (socket : 0 ≤ o.socket) (connect : 0 ≤ o.connect) :
    serverConnect (w.after (attachCalls o)) o = (connectedWorld w o, 0) := by
  simp [serverConnect, Int.not_lt.mpr socket, Int.not_lt.mpr connect, connectedWorld, World.after]

/-- Where `socket` or `connect` fails, the execution returns and has scheduled
nothing. -/
theorem work_fails (cfg : Config) (fuel : Nat) (w : World) (passes : o.PassesWait)
    (fails : o.socket < 0 ∨ o.connect < 0) :
    ∃ own, serverTransmissionWorkFn cfg fuel w o =
        .returned { w.after own with clientFd := o.socket } ∧ own.count .schedule = 0 := by
  have none_ (tail : List Call) (quiet : tail.count .schedule = 0) :
      (attachCalls o ++ tail).count .schedule = 0 := by
    rw [List.count_append, quiet, Nat.add_zero, List.count_eq_zero]
    exact fun member => plain_attachCalls o _ member
  rw [work_passes passes]
  have errno := o.errnoSet
  by_cases noSocket : o.socket < 0
  · refine ⟨attachCalls o ++ [Call.socket o.socket, .close o.socket], ?_, none_ _ (by simp)⟩
    have failed : -o.errno ≠ 0 := by omega
    simp [serverConnect, serverDisconnect, noSocket, failed, World.after]
  · have refused := fails.resolve_left noSocket
    refine ⟨attachCalls o ++ [Call.socket o.socket, .setsockopt o.socket o.setsockopt,
      .connect o.socket o.connect, .close o.socket], ?_, none_ _ (by simp)⟩
    have failed : o.connect ≠ 0 := by omega
    simp [serverConnect, serverDisconnect, noSocket, refused, failed, World.after]

/-- **An execution that completes** makes the calls of one cycle and schedules the
next. -/
theorem work_completes (passes : o.PassesWait) (completes : o.Completes cfg) (w : World) :
    ∃ fuel mid, (∀ c ∈ mid, c.Plain) ∧ serverTransmissionWorkFn cfg fuel w o =
      .returned ⟨o.socket, true, w.calls ++ cycleCalls o mid⟩ := by
  have passed : PassesFrom cfg o 0 := fun k _ below succeeded =>
    completes.passes k below fun i later => succeeded i (Nat.zero_le i) later
  obtain ⟨fuel, w', ended⟩ := packetLoop_ends passed (connectedWorld w o)
  obtain ⟨⟨new, rfl, plain⟩, -⟩ := packetLoop_after ended
  refine ⟨fuel, [Call.setsockopt o.socket o.setsockopt, .connect o.socket o.connect] ++ new,
    plain_append (by simp [Call.Plain]) plain, ?_⟩
  rw [work_passes passes, serverConnect_connects completes.socket completes.connect]
  simp only [ne_eq, not_true_eq_false, if_false, ended]
  simp [workerror, serverDisconnect, connectedWorld, World.after, cycleCalls]

/-- An execution that returns either completed or has scheduled nothing. -/
theorem work_returned (passes : o.PassesWait)
    (returned : serverTransmissionWorkFn cfg fuel w o = .returned w') :
    (∃ own, w'.calls = w.calls ++ own ∧ own.count .schedule = 0) ∨ o.Completes cfg := by
  by_cases fails : o.socket < 0 ∨ o.connect < 0
  · obtain ⟨own, same, none_⟩ := work_fails cfg fuel w passes fails
    rw [same] at returned
    cases returned
    exact Or.inl ⟨own, rfl, none_⟩
  · right
    obtain ⟨socket, connect⟩ := not_or.mp fails
    have socket := Int.not_lt.mp socket
    have connect := Int.not_lt.mp connect
    rw [work_passes passes, serverConnect_connects socket connect] at returned
    simp only [ne_eq, not_true_eq_false, if_false] at returned
    cases ended : packetLoop cfg o fuel (connectedWorld w o) 0 with
    | none => simp [ended] at returned
    | some w₁ =>
        obtain ⟨-, passed⟩ := packetLoop_after ended
        exact ⟨socket, connect, fun k below succeeded =>
          passed k (Nat.zero_le k) below fun i _ later => succeeded i later⟩

end

/-! ## The law of the cycle -/

section

variable {calls new : List Call} {s : Option Int}

theorem opened_other {c : Call} (other : c.fdOp = none) (fd : Int) :
    opened (calls ++ [c]) fd = opened calls fd := held_means_nothing Call.fdOp c other fd

/-- The open descriptors after these calls: the one named, or none. -/
def OnlyOpen (calls : List Call) (s : Option Int) : Prop :=
  ∀ fd, opened calls fd = if s = some fd then 1 else 0

theorem OnlyOpen.plain {c : Call} (only : OnlyOpen calls s) (plain : c.Plain) :
    OnlyOpen (calls ++ [c]) s := by
  intro fd
  rw [← only fd]
  cases c with
  | socket ret => exact plain.elim
  | close fd => exact plain.elim
  | schedule => exact plain.elim
  | _ => exact opened_other rfl fd

theorem OnlyOpen.socket {ret : Int} (only : OnlyOpen calls none) (valid : 0 ≤ ret) :
    OnlyOpen (calls ++ [Call.socket ret]) (some ret) := by
  intro fd
  have now : opened (calls ++ [Call.socket ret]) fd =
      if ret = fd then opened calls fd + 1 else opened calls fd :=
    held_means Call.fdOp (.socket ret) (if_pos valid) fd
  rw [now, only fd]
  by_cases same : ret = fd <;> simp [same]

theorem OnlyOpen.close {fd : Int} (only : OnlyOpen calls (some fd)) :
    OnlyOpen (calls ++ [Call.close fd]) none := by
  intro other
  have closed : opened (calls ++ [Call.close fd]) other =
      if fd = other then opened calls other - 1 else opened calls other :=
    held_means Call.fdOp (.close fd) rfl other
  rw [closed, only other]
  by_cases same : fd = other <;> simp [same]

/-- At every moment of these calls at most one socket is open. -/
def NeverTwo (calls : List Call) : Prop := Always (fun past _ => AtMostOne past) calls

theorem neverTwo_snoc (never : NeverTwo calls) (only : OnlyOpen calls s) (c : Call) :
    NeverTwo (calls ++ [c]) :=
  always_snoc.mpr ⟨never, s, only⟩

theorem neverTwo_plain (never : NeverTwo calls) (only : OnlyOpen calls s)
    (plain : ∀ c ∈ new, c.Plain) : NeverTwo (calls ++ new) ∧ OnlyOpen (calls ++ new) s := by
  induction new generalizing calls with
  | nil => simpa using ⟨never, only⟩
  | cons c rest ih =>
      rw [List.append_cons]
      exact ih (neverTwo_snoc never only c) (only.plain (plain c (by simp)))
        fun later member => plain later (by simp [member])

/-- The calls of an execution that completes have at most one socket open and leave
none. -/
theorem neverTwo_cycleCalls (never : NeverTwo calls) (only : OnlyOpen calls none) {o : Outcome}
    (valid : 0 ≤ o.socket) {mid : List Call} (plain : ∀ c ∈ mid, c.Plain) :
    NeverTwo (calls ++ cycleCalls o mid) ∧ OnlyOpen (calls ++ cycleCalls o mid) none := by
  obtain ⟨never, only⟩ := neverTwo_plain never only (plain_attachCalls o)
  have never := neverTwo_snoc never only (.socket o.socket)
  have only := only.socket valid
  obtain ⟨never, only⟩ := neverTwo_plain never only plain
  have never := neverTwo_snoc never only (.close o.socket)
  have only := only.close
  have never := neverTwo_snoc never only (.lteLcOffline o.offline)
  have only := only.plain (c := .lteLcOffline o.offline) trivial
  refine ⟨?_, ?_⟩
  · simpa [cycleCalls] using neverTwo_snoc never only .schedule
  · intro fd
    have done := opened_other (c := .schedule) rfl fd ▸ only fd
    simpa [cycleCalls] using done

theorem ownClose_plain {c : Call} (plain : c.Plain) (past : List Call) : OwnClose past c := by
  cases c with
  | close fd => exact plain.elim
  | _ => trivial

theorem onlyOpen_plain (only : OnlyOpen calls s) (plain : ∀ c ∈ new, c.Plain) :
    OnlyOpen (calls ++ new) s := by
  induction new generalizing calls with
  | nil => simpa using only
  | cons c rest ih =>
      rw [List.append_cons]
      exact ih (only.plain (plain c (by simp))) fun later member => plain later (by simp [member])

/-- Plain calls are none of the others. -/
theorem count_plain (plain : ∀ c ∈ new, c.Plain) {c : Call} (special : ¬ c.Plain) :
    new.count c = 0 :=
  List.count_eq_zero.mpr fun member => special (plain c member)

theorem count_cycleCalls {c : Call} (special : ¬ c.Plain) {o : Outcome} {mid : List Call}
    (plain : ∀ c ∈ mid, c.Plain) :
    (cycleCalls o mid).count c =
      List.count c [.socket o.socket] +
        List.count c [.close o.socket, .lteLcOffline o.offline, .schedule] := by
  rw [cycleCalls, List.count_append, List.count_append, List.count_append,
    count_plain (plain_attachCalls o) special, count_plain plain special]
  omega

theorem clean_cycleCalls {o : Outcome} (valid : 0 ≤ o.socket) {mid : List Call}
    (plain : ∀ c ∈ mid, c.Plain) : CleanEnd (cycleCalls o mid) where
  closedOnce := by
    intro fd _ member
    have same : fd = o.socket := by
      simp only [cycleCalls, List.mem_append, List.mem_cons, Call.socket.injEq, reduceCtorEq,
        List.not_mem_nil, or_false] at member
      rcases member with ((early | rfl) | later)
      · exact (plain_attachCalls o _ early).elim
      · rfl
      · exact (plain _ later).elim
    subst same
    rw [count_cycleCalls (c := .close o.socket) not_false plain]
    simp
  ownClose := by
    have attached : Always OwnClose (attachCalls o) := by
      simpa using always_nil.append fun c member past =>
        ownClose_plain (plain_attachCalls o c member) past
    have opened_ : Always OwnClose (attachCalls o ++ [Call.socket o.socket]) :=
      always_snoc.mpr ⟨attached, trivial⟩
    have transferred := opened_.append fun c member past => ownClose_plain (plain c member) past
    have none_ : OnlyOpen ([] ++ attachCalls o) none :=
      onlyOpen_plain (fun _ => rfl) (plain_attachCalls o)
    have only := onlyOpen_plain (none_.socket valid) plain
    have isOpen : 0 < opened (attachCalls o ++ [Call.socket o.socket] ++ mid) o.socket := by
      have one := only o.socket
      rw [if_pos rfl, List.nil_append] at one
      omega
    have closed : Always OwnClose
        (attachCalls o ++ [Call.socket o.socket] ++ mid ++ [Call.close o.socket]) :=
      always_snoc.mpr ⟨transferred, isOpen⟩
    have ended := closed.append
      fun c (member : c ∈ [.lteLcOffline o.offline, .schedule]) past => by
        simp only [List.mem_cons, List.not_mem_nil, or_false] at member
        rcases member with rfl | rfl <;> trivial
    simpa [cycleCalls] using ended
  offline := ⟨o.offline, by simp [cycleCalls]⟩
  scheduled := by
    rw [count_cycleCalls (c := .schedule) not_false plain]
    simp

end

/-! ## Every number of executions -/

/-- An execution that ends as it should has completed. -/
theorem completes_of_clean {cfg : Config} {o : Outcome} {w w' : World} {own : List Call}
    (passes : o.PassesWait) (ends : Ends cfg w o w') (calls : w'.calls = w.calls ++ own)
    (clean : CleanEnd own) : o.Completes cfg := by
  obtain ⟨-, fuel, returned⟩ := ends
  rcases work_returned passes returned with ⟨own', calls', none_⟩ | completes
  · obtain rfl : own = own' := List.append_cancel_left (calls.symm.trans calls')
    have once := clean.scheduled
    omega
  · exact completes

theorem completes_of_cycle {cfg : Config} {outcomes : List Outcome} {w : World}
    (passes : ∀ o ∈ outcomes, o.PassesWait) (cycle : Cycle cfg outcomes w) :
    ∀ o ∈ outcomes, o.Completes cfg := by
  induction cycle with
  | start => simp
  | next before ends calls clean ih =>
      intro o member
      rcases List.mem_append.mp member with early | last
      · exact ih (fun o member => passes o (by simp [member])) o early
      · obtain rfl := List.mem_singleton.mp last
        exact completes_of_clean (passes o member) ends calls clean

/-- Executions that complete, one after the other. -/
theorem cycle_of_completes {cfg : Config} {outcomes : List Outcome}
    (passes : ∀ o ∈ outcomes, o.PassesWait) (completes : ∀ o ∈ outcomes, o.Completes cfg) :
    ∃ w, Cycle cfg outcomes w ∧ w.scheduled = true ∧ NeverTwo w.calls ∧ OnlyOpen w.calls none := by
  induction outcomes using List.reverseRecOn with
  | nil => exact ⟨start, .start, rfl, always_nil, fun _ => rfl⟩
  | append_singleton outcomes o ih =>
      obtain ⟨w, cycle, scheduled, never, only⟩ :=
        ih (fun o member => passes o (by simp [member]))
          fun o member => completes o (by simp [member])
      have completes := completes o (by simp)
      obtain ⟨fuel, mid, plain, returned⟩ :=
        work_completes (passes o (by simp)) completes { w with scheduled := false }
      obtain ⟨never', only'⟩ := neverTwo_cycleCalls never only completes.socket plain
      exact ⟨_, .next cycle ⟨scheduled, fuel, returned⟩ rfl
        (clean_cycleCalls completes.socket plain), rfl, never', only'⟩

/-- **The upload cycle goes on** through executions that get past the registration
wait, each ending with its socket closed once, the modem offline and the work
scheduled, exactly when each of them completes. -/
theorem upload_cycle_iff (cfg : Config) (outcomes : List Outcome)
    (passes : ∀ o ∈ outcomes, o.PassesWait) :
    GoesOn cfg outcomes ↔ ∀ o ∈ outcomes, o.Completes cfg := by
  constructor
  · rintro ⟨w, cycle, -, -⟩
    exact completes_of_cycle passes cycle
  · intro completes
    obtain ⟨w, cycle, scheduled, never, -⟩ := cycle_of_completes passes completes
    exact ⟨w, cycle, scheduled, never⟩

/-- One packet is sent and answered after one wait of 5 seconds. -/
def goodOutcome : Outcome where
  connectAsync := 0
  waits := [false]
  socket := 3
  errno := 1
  setsockopt := 0
  connect := 0
  drain _ _ := -1
  send _ := 1000
  reply _ := some 20
  offline := 0
  errnoSet := by decide

theorem upload_cycle_goodOutcome : GoesOn ⟨1000, 1, 3⟩ [goodOutcome, goodOutcome] := by
  apply (upload_cycle_iff ⟨1000, 1, 3⟩ [goodOutcome, goodOutcome] (by decide)).mpr
  intro o member
  obtain rfl : o = goodOutcome := by simpa using member
  refine ⟨by decide, by decide, fun k _ _ => ⟨⟨0, by simp [goodOutcome]⟩, fun _ => Or.inl ?_⟩⟩
  exact Option.some_ne_none 20

/-- The server cannot be connected. -/
def refusedOutcome : Outcome := { goodOutcome with connect := -1 }

/-- **A failed `connect` stops the uploads for good.** -/
theorem failed_connect_stops :
    ¬ ∀ cfg outcomes, (∀ o ∈ outcomes, Outcome.PassesWait o) → GoesOn cfg outcomes := by
  intro goesOn
  have passes : ∀ o ∈ [refusedOutcome], o.PassesWait := by decide
  obtain ⟨w, cycle, -, -⟩ := goesOn ⟨1000, 1, 3⟩ [refusedOutcome] passes
  have completes := completes_of_cycle passes cycle refusedOutcome (by simp)
  exact absurd completes.connect (by decide)

end NcsExp.LteUpload
